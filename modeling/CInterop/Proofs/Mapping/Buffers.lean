import CInterop.Proofs.Mapping.Decay
import CInterop.Proofs.Mapping.Layout
import CInterop.Proofs.Mapping.Precedence
import CInterop.Proofs.Mapping.Stride

/-!
# Buffers and helpers of a binding

What a binding holds of an array is as large as the array. The elements of a helper are those of the
array; if these are an enumeration, they stay it only if its declaration has the size that it has in C,
and otherwise they are its integer type.
-/

namespace CInterop.Mapping

open Header
open Binding (TypeUse IntegerType escape)

section

variable {s : Setting}

/-! ## Enumerations as elements -/

/-- A size that the mapping finds is the one that the name leads to, unless it gave up. -/
theorem measures_of_sizeOf_ne_zero {name : String} {size : Int} (h : s.sizeOf name = .ok size)
    (hne : size ≠ 0) : ∃ links, Measures s.tree links name size := by
  unfold Setting.sizeOf at h
  generalize Setting.linkLimit + s.tree.nodes.length + 1 = steps at h
  generalize 0 = followed at h
  induction steps generalizing followed name with
  | zero => cases h
  | succ steps ih =>
    unfold Setting.sizeWithin at h
    obtain ⟨node, hnode, h⟩ := bind_eq_ok.mp h
    have hnode := node_eq_ok hnode
    split at h
    · rename_i underlying hbody
      split at h
      · obtain ⟨links, hmeasures⟩ := ih _ h
        exact ⟨links + 1, .link hnode (by rw [hbody]; rfl) hmeasures⟩
      · cases h
        exact absurd rfl hne
    · rename_i integerType values hbody
      obtain ⟨links, hmeasures⟩ := ih _ h
      exact ⟨links + 1, .link hnode (by rw [hbody]; rfl) hmeasures⟩
    · rename_i htypedef henumeration
      cases h
      refine ⟨0, .stated hnode ?_⟩
      unfold measuredBy?
      split
      · exact absurd ‹_› (htypedef _)
      · exact absurd ‹_› (henumeration _ _)
      · rfl

/-- A type with a name of its own that is neither ignored nor replaced is used by that name. -/
theorem typeUse_eq_named {name : String} {node : Declaration} {position : Position}
    (hnode : s.tree.node? name = some node)
    (hkind : node.kind ≠ .primitive ∧ node.kind ≠ .pointer ∧ node.kind ≠ .array)
    (hignored : s.policy.ignores name = false) (haliases : s.policy.aliases = []) :
    typeUse s name position = named (useWithin s s.tree.nodes.length) s node position := by
  have hnone : structural? (useWithin s s.tree.nodes.length) s node position = none := by
    rw [Node.kind] at hkind
    unfold structural?
    split <;> simp_all [Body.kind]
  obtain rfl := node?_name hnode
  rw [typeUse_of_node? hnode, nodeUse, hnone]
  dsimp only
  rw [hignored, if_neg Bool.false_ne_true, aliasFor?_eq_none haliases]

/-- What is no pointer and no array, and as a value not as large as a pointer, is not ignored. -/
theorem ignores_of_size_ne {name : String} {node : Declaration} {u : TypeUse}
    (hnode : s.tree.node? name = some node) (hkind : node.kind ≠ .pointer ∧ node.kind ≠ .array)
    (hu : (typeUse s name .value).result = .ok u) (hne : u.size ≠ s.pointerSize) :
    s.policy.ignores name = false := by
  rw [← Bool.not_eq_true]
  intro hignored
  rw [typeUse_of_ignored hnode hkind.1 hkind.2 hignored] at hu
  cases hsize : s.sizeOf name with
  | error reason =>
    rw [hsize] at hu
    cases hu
  | ok size =>
    rw [hsize] at hu
    cases hu
    exact hne rfl

theorem size_of_pointer {name pointee : String} {node : Declaration} {position : Position} {size : Int}
    {u : TypeUse} (hnode : s.tree.node? name = some node) (hbody : node.body = .pointer pointee size)
    (hu : (typeUse s name position).result = .ok u) : u.size = s.pointerSize := by
  rw [typeUse_of_node? hnode, nodeUse_of_structural? (by rw [structural?, hbody])] at hu
  split at hu
  · obtain ⟨_, -, hu, -⟩ := Outcome.bind_eq_ok hu
    cases hu
    rfl
  · obtain ⟨_, -, hu, -⟩ := Outcome.bind_eq_ok hu
    obtain ⟨_, -, hu, -⟩ := Outcome.bind_eq_ok hu
    cases hu
    rfl

theorem size_of_primitive (consistent : LayoutConsistent s.tree)
    (hbitness : s.bitness = s.tree.bitness) (haliases : s.policy.aliases = []) {name : String}
    {node : Declaration} {position : Position} {size align : Int} {u : TypeUse}
    (hnode : s.tree.node? name = some node) (hbody : node.body = .primitive size align)
    (hignored : s.policy.ignores name = false) (hu : (typeUse s name position).result = .ok u) :
    u.size = size := by
  have hconsistent := consistent.sizes node (node?_mem hnode)
  rw [SizeConsistent, hbody] at hconsistent
  have hplatform : ∀ p ∈ platformPrimitives, primitiveSizes.lookup p.1 = some [4, 8] := by decide
  rw [typeUse_of_node? hnode, nodeUse_of_structural? (by rw [structural?, hbody]), node?_name hnode,
    hignored, if_neg Bool.false_ne_true, aliasFor?_eq_none haliases] at hu
  refine size_primitive hbitness (fun hsome => ?_) hu
  obtain ⟨isSigned, hlookup⟩ := Option.isSome_iff_exists.mp hsome
  have hmem : size ∈ [4, 8] :=
    hconsistent _ (node?_name hnode ▸ hplatform _ (mem_of_lookup hlookup))
  simpa using hmem

/-- What takes no bytes as a value has none in C, unless it leads to an enumeration. -/
theorem size_eq_zero_of_value (consistent : LayoutConsistent s.tree)
    (hbitness : s.bitness = s.tree.bitness) (haliases : s.policy.aliases = []) {links : Nat}
    {name : String} {size : Int} (h : Measures s.tree links name size)
    (hplain : ¬LeadsToEnumeration s.tree name) {u : TypeUse}
    (hu : (typeUse s name .value).result = .ok u) (hzero : u.size = 0) : size = 0 := by
  have hpointer : s.pointerSize ≠ 0 := by
    rw [Setting.pointerSize, hbitness]
    rcases consistent.bitness with hwidth | hwidth <;> rw [hwidth] <;> decide
  -- a chain of typedefs gives the size on unchanged, and at its end a type without bytes has a name
  induction h generalizing u with
  | @stated name node hnode hbody =>
    have hkept (hkind : node.kind ≠ .pointer ∧ node.kind ≠ .array) :
        s.policy.ignores name = false :=
      ignores_of_size_ne hnode hkind hu (hzero ▸ hpointer.symm)
    have hkind : node.kind = node.body.kind := rfl
    cases hnodeBody : node.body <;> rw [hnodeBody, Body.kind] at hkind
    case primitive size align =>
      have hignored := hkept (by rw [hkind]; decide)
      exact (size_of_primitive consistent hbitness haliases hnode hnodeBody hignored hu).symm.trans hzero
    case pointer => exact absurd ((size_of_pointer hnode hnodeBody hu).symm.trans hzero) hpointer
    case array =>
      obtain ⟨inner, -, hu⟩ := typeUse_array_eq_ok hnode hnodeBody hu
      dsimp only at hu
      subst hu
      exact absurd hzero hpointer
    case functionPointer =>
      have hignored := hkept (by rw [hkind]; decide)
      rw [typeUse_eq_named hnode (by rw [hkind]; decide) hignored haliases, named, hnodeBody] at hu
      cases hu
      exact absurd hzero hpointer
    case record =>
      have hignored := hkept (by rw [hkind]; decide)
      rw [typeUse_eq_named hnode (by rw [hkind]; decide) hignored haliases, named, hnodeBody] at hu
      cases hu
      exact hzero
    all_goals rfl
  | @link links name next size node hnode hbody _ ih =>
    rcases body_of_measuredBy? hbody with htypedef | ⟨values, henumeration⟩
    · have hkind : node.kind = .typedef := by rw [Node.kind, htypedef]; rfl
      have hignored : s.policy.ignores name = false :=
        ignores_of_size_ne hnode (by rw [hkind]; decide) hu (hzero ▸ hpointer.symm)
      obtain ⟨inner, hinner, rfl⟩ :=
        typeUse_typedef_eq_ok hnode htypedef hignored (aliasFor?_eq_none haliases name) hu
      refine ih (fun hleads => hplain (.link hnode htypedef hleads)) hinner ?_
      rw [← hzero]
      split <;> rfl
    · exact absurd (.enumeration hnode (by rw [Node.kind, henumeration]; rfl)) hplain

/-- The use of the elements of an array: that of their type, which is no enumeration of another width
than its declaration, or that of the integer type of an enumeration. -/
theorem elementUse_eq_ok {use : String → Position → Outcome TypeUse} {name : String} {u : TypeUse}
    (h : (elementUse use s name).result = .ok u) :
    ∃ own node, (use name .field).result = .ok own ∧ s.tree.node? name = some node ∧
      ((u = own ∧ ∀ integerType values, node.body = .enumeration integerType values →
          own.name = escape node.name → ∃ narrow,
            (backing use integerType values).result = .ok narrow ∧ narrow.size = own.size) ∨
        ∃ integerType values, node.body = .enumeration integerType values ∧
          (use integerType .field).result = .ok u) := by
  obtain ⟨own, hown, h, -⟩ := Outcome.bind_eq_ok h
  obtain ⟨node, hnode, h, -⟩ := Outcome.bind_eq_ok h
  refine ⟨own, node, hown, node_eq_ok hnode, ?_⟩
  split at h
  · rename_i integerType values hbody
    split at h
    · obtain ⟨narrow, hnarrow, h, -⟩ := Outcome.bind_eq_ok h
      split at h
      · exact .inr ⟨integerType, values, hbody, h⟩
      · rename_i hsame
        cases h
        refine .inl ⟨rfl, fun _ _ hbody' _ => ?_⟩
        cases hbody.symm.trans hbody'
        exact ⟨narrow, hnarrow, Decidable.not_not.mp hsame⟩
    · rename_i hname
      cases h
      exact .inl ⟨rfl, fun _ _ _ hsame => absurd hsame hname⟩
  · rename_i hbody
    cases h
    exact .inl ⟨rfl, fun _ _ hbody' _ => absurd hbody' (hbody _ _)⟩

theorem narrowest_size_ne_zero (values : List Int) :
    ((IntegerType.narrowest values).size : Int) ≠ 0 := by
  cases IntegerType.narrowest values <;> decide

/-- An enumeration that stays the element of an array is declared as large as it is in C. -/
theorem backing_size (consistent : LayoutConsistent s.tree) (hbitness : s.bitness = s.tree.bitness)
    (haliases : s.policy.aliases = []) {name integerType : String} {node : Declaration}
    {values : List (Enumerator String Int)} {size stride : Int} {narrow : TypeUse}
    (hnode : s.tree.node? name = some node) (hbody : node.body = .enumeration integerType values)
    (hplain : ¬LeadsToEnumeration s.tree integerType) (hstride : s.tree.sizeOf name = .ok stride)
    (hsize : s.sizeOf name = .ok size)
    (hnarrow : (backing (typeUse s) integerType values).result = .ok narrow)
    (hsame : narrow.size = size) : narrow.size = stride := by
  obtain ⟨links, hmeasures⟩ := measures_of_sizeOf hstride
  by_cases hzero : size = 0
  · -- only an enumeration without values can take no bytes, as its integer type does
    unfold backing at hnarrow
    split at hnarrow
    · cases hmeasures with
      | stated hnode' hbody' =>
        rw [← Option.some.inj (hnode.symm.trans hnode'), hbody] at hbody'
        cases hbody'
      | link hnode' hbody' hmeasures =>
        rw [← Option.some.inj (hnode.symm.trans hnode'), hbody] at hbody'
        cases hbody'
        rw [hsame, hzero]
        exact (size_eq_zero_of_value consistent hbitness haliases hmeasures hplain hnarrow
          (hsame.trans hzero)).symm
    · cases hnarrow
      exact absurd (hsame.trans hzero) (narrowest_size_ne_zero _)
  · obtain ⟨_, hmeasures'⟩ := measures_of_sizeOf_ne_zero hsize hzero
    exact hsame.trans (hmeasures'.unique hmeasures)

end

/-! ## The whole run -/

/-- The binding declares the enumeration with that integer type. -/
def BackedBy (b : Binding.Bindings) (node : Declaration) (integer : TypeUse) : Prop :=
  ∃ d ∈ b.ofNodes, StandsFor d node ∧ ∃ values, d.body = .enumeration integer values

/-- What stands for the elements of an array in its helper: their own type, which is no enumeration
unless it is declared as large as it is in C, or the integer type of an enumeration. -/
inductive KeepsStride (s : Setting) (b : Binding.Bindings) (element : String) (u : TypeUse) : Prop where
  | own (hu : (typeUse s element .field).result = .ok u)
      (hbacked : ∀ node integerType values, s.tree.node? element = some node →
        node.body = .enumeration integerType values → s.policy.ignores element = false →
        ∃ integer, BackedBy b node integer ∧ s.tree.sizeOf element = .ok integer.size)
  | integer {node : Declaration} {integerType : String} {values : List (Enumerator String Int)}
      (hnode : s.tree.node? element = some node) (hbody : node.body = .enumeration integerType values)
      (hplain : ¬LeadsToEnumeration s.tree integerType)
      (hu : (typeUse s integerType .field).result = .ok u)

section

variable {s : Setting} {b : Binding.Bindings} {node : Declaration}

/-- That a `long double` is narrowed is among the diagnostics if it happens. -/
theorem narrowed_told (hrun : (run s).bindings = .ok b) (hnode : node ∈ s.tree.nodes)
    (hmapped : isMapped s node = true) (h : narrowed ∈ (declaration? s node).events) :
    ⟨.unmappable "long double" narrowing, none⟩ ∈ (run s).diagnostics := by
  have hignored : s.policy.ignores "long double" = false := by
    rcases reports_declaration? s node _ h with ⟨hignored, -⟩ | ⟨-, reason, heq⟩
    · exact hignored
    · cases heq
  obtain ⟨other, -, d, hd, hevent⟩ := exists_reportedOnce_run hrun hnode
    (show narrowed ∈ eventsOf s node by rwa [eventsOf, if_pos hmapped])
  unfold eventsOf at hevent
  split at hevent
  · rcases reports_declaration? s other _ hevent with ⟨-, reason, hunusual, rfl⟩ | ⟨hnot, -⟩
    · cases hunusual with
      | narrowed => exact hd
      | unknown type hlookup => exact absurd hlookup (by decide)
    · rw [hignored] at hnot
      cases hnot
  · cases hevent

theorem backedBy_of_backing (haliases : s.policy.aliases = []) (hrun : (run s).bindings = .ok b)
    {integerType : String} {values : List (Enumerator String Int)} {integer : TypeUse}
    (hnode : node ∈ s.tree.nodes) (hbody : node.body = .enumeration integerType values)
    (hignored : s.policy.ignores node.name = false)
    (h : (backing (typeUse s) integerType values).result = .ok integer) : BackedBy b node integer := by
  have hmapped : isMapped s node = true := by
    have hinline : isInline node = false := by rw [isInline, Node.kind, hbody]; rfl
    rw [isMapped, hinline, hignored, aliasFor?_eq_none haliases]
    rfl
  have hresult : (declaration? s node).result = .ok (some (fromNode node "Enum" (.enumeration integer
      (values.map fun v => ⟨escape v.name, v.value⟩)))) := by
    rw [declaration?, hbody]
    exact Outcome.result_bind_of_ok h
  have hdeclared : declared? s node = some (fromNode node "Enum" (.enumeration integer
      (values.map fun v => ⟨escape v.name, v.value⟩))) := by
    rw [declared?, if_pos hmapped, hresult]
    rfl
  exact ⟨_, (mem_ofNodes_iff hrun).mpr ⟨node, hnode, hdeclared⟩, standsFor_of_declared? hdeclared, _, rfl⟩

/-- What the elements of an array are used as keeps the stride. -/
theorem keepsStride_of_elementUse (consistent : LayoutConsistent s.tree)
    (hbitness : s.bitness = s.tree.bitness) (haliases : s.policy.aliases = [])
    (hplain : IntegersPlain s.tree) (hrun : (run s).bindings = .ok b) {element : String} {stride : Int}
    {u : TypeUse} (hstride : s.tree.sizeOf element = .ok stride)
    (hu : (elementUse (typeUse s) s element).result = .ok u) : KeepsStride s b element u := by
  obtain ⟨own, node, hown, hnode, ⟨rfl, hsame⟩ | ⟨integerType, values, hbody, hinteger⟩⟩ :=
    elementUse_eq_ok hu
  · -- the enumeration was compared with its declaration before it was kept
    refine .own hown fun node' integerType values hnode' hbody hignored => ?_
    obtain rfl := Option.some.inj (hnode.symm.trans hnode')
    have hkind : node.kind = .enumeration := by rw [Node.kind, hbody]; rfl
    rw [typeUse_eq_named hnode (by rw [hkind]; decide) hignored haliases, named, hbody] at hown
    obtain ⟨size, hsize, hown, -⟩ := Outcome.bind_eq_ok hown
    cases hown
    obtain ⟨narrow, hnarrow, hnarrowSize⟩ := hsame integerType values hbody rfl
    rw [← node?_name hnode] at hstride hignored ⊢
    refine ⟨narrow, backedBy_of_backing haliases hrun (node?_mem hnode) hbody hignored hnarrow, ?_⟩
    rw [hstride, backing_size consistent hbitness haliases (node?_name hnode ▸ hnode) hbody
      (hplain node (node?_mem hnode) _ _ hbody) hstride hsize hnarrow hnarrowSize]
  · exact .integer hnode hbody (hplain node (node?_mem hnode) _ _ hbody) hinteger

end

/-- The buffers of a binding keep the stride of the arrays. In a tree whose sizes are those of C, and
whose enumerations have integer types that are no enumerations, mapped for its own pointer width and
without aliases, an array that becomes a buffer in a field has as many elements as in C and the same
size, which is that of its elements together by the width of their spelling, unless they are a
`long double`, narrowed and reported. So has every buffer in a binding, where what is narrowed is among
the diagnostics. And every helper is for an array, with elements of the array's own type, which is an
enumeration only if it is declared as large as it is in C, or of the enumeration's integer type. -/
theorem buffers_keep_stride {s : Setting} (consistent : LayoutConsistent s.tree)
    (hbitness : s.bitness = s.tree.bitness) (haliases : s.policy.aliases = [])
    (hplain : IntegersPlain s.tree) :
    (∀ name array, s.tree.node? name = some array →
      ∀ element count size, array.body = .array element count size →
      ∀ u, (typeUse s name .field).result = .ok u → ∀ n, u.count = some n →
        n = count ∧ u.size = size ∧ ∃ w, width? u.name = some w ∧
          (n * w = size ∨ u.name = "double" ∧ narrowed ∈ (typeUse s name .field).events)) ∧
    ∀ b, (run s).bindings = .ok b →
      (∀ d ∈ b.declarations, ∀ u ∈ d.body.stored, ∀ n, u.count = some n →
        ∃ w, width? u.name = some w ∧ (n * w = u.size ∨
          u.name = "double" ∧ ⟨.unmappable "long double" narrowing, none⟩ ∈ (run s).diagnostics)) ∧
      ∀ d ∈ b.declarations, ∀ u count size, d.body = .fixedBuffer u count size →
        ∃ array ∈ s.tree.nodes, ∃ element, array.body = .array element count size ∧
          KeepsStride s b element u := by
  refine ⟨fun name array harray element count size hbody u hu n hn => ?_, fun b hrun =>
    ⟨fun d hd u hmem n hn => ?_, fun d hd u count size hbody => ?_⟩⟩
  · have hstrided : Strided [] (typeUse s name .field) (FitsAt s.tree name .field) :=
      strided_typeUse consistent hbitness haliases name .field
    obtain ⟨w, hw, hsize⟩ := (hstrided.result u hu rfl).strides n hn
    obtain ⟨inner, -, hfield⟩ := typeUse_array_eq_ok harray hbody hu
    dsimp only at hfield
    split at hfield
    · subst hfield
      cases hn
      exact ⟨rfl, rfl, w, hw, hsize⟩
    · obtain ⟨helper, -, rfl⟩ := hfield
      cases hn
  · obtain ⟨node, hnode, hmapped, hmade⟩ := exists_made hrun hd
    have hstrided : Strided [] (declaration? s node) DeclaredStrides :=
      strided_declaration? consistent hbitness haliases node
    have hstrides : Strides (declaration? s node).events u := by
      rcases hmade with hhelper | hresult
      · exact hstrided.helpers d hhelper u hmem
      · exact hstrided.result _ hresult d rfl u hmem
    obtain ⟨w, hw, hsize⟩ := hstrides n hn
    exact ⟨w, hw, hsize.imp_right fun hdouble =>
      ⟨hdouble.1, narrowed_told hrun hnode hmapped hdouble.2⟩⟩
  · have hhelper : IsHelper s d := by
      rcases isHelper_or_declared hrun hd with hhelper | ⟨node, -, hdeclared⟩
      · exact hhelper
      · refine absurd ?_ (standsFor_of_declared? hdeclared).kind_ne
        rw [Binding.Declaration.kind, hbody]
        rfl
    obtain ⟨a, ha, -, heq⟩ := hhelper
    rw [hbody] at heq
    cases heq
    obtain ⟨array, harray, huse⟩ := List.mem_filterMap.mp ha
    obtain ⟨element, hbody', hinner⟩ := body_of_arrayUse? huse
    obtain ⟨stride, hstride, -⟩ := (consistent.sizes array harray).of_array hbody'
    exact ⟨array, harray, element, hbody',
      keepsStride_of_elementUse consistent hbitness haliases hplain hrun hstride hinner⟩

/-- Where the integer types of enumerations are primitives, they are plain. -/
theorem integersPlain_of_primitive {t : Declarations}
    (h : ∀ node ∈ t.nodes, node.kind = .enumeration → ∀ next ∈ spelledOver? node.body,
      ∀ target ∈ t.node? next, target.kind = .primitive) : IntegersPlain t := by
  intro node hnode integerType values hbody hleads
  have hprimitive := h node hnode (by rw [Node.kind, hbody]; rfl) integerType (by rw [hbody]; rfl)
  cases hleads with
  | enumeration htarget hkind =>
    rw [hprimitive _ htarget] at hkind
    cases hkind
  | link htarget hbody' =>
    have hkind := hprimitive _ htarget
    rw [Node.kind, hbody'] at hkind
    cases hkind

/-- A tree with arrays of an enumeration that is declared smaller than it is in C, of one that is not, and
of numbers that are narrowed. -/
def palettes : Setting where
  tree := ⟨"palettes.h", 64, [
    ⟨"unsigned int", .primitive 4 4, none⟩,
    ⟨"long double", .primitive 16 16, none⟩,
    ⟨"color", .enumeration "unsigned int" [⟨"RED", 0, none⟩, ⟨"BLUE", 1, none⟩], none⟩,
    ⟨"mask", .enumeration "unsigned int" [⟨"ALL", 65536, none⟩], none⟩,
    ⟨"color[4]", .array "color" 4 16, none⟩,
    ⟨"mask[2]", .array "mask" 2 8, none⟩,
    ⟨"long double[2]", .array "long double" 2 32, none⟩,
    ⟨"palette", .record false [⟨"colors", "color[4]", 0, 16⟩, ⟨"masks", "mask[2]", 16, 8⟩,
      ⟨"weights", "long double[2]", 32, 32⟩] 64 16, none⟩]⟩
  policy := ⟨"Palettes", [], [], none⟩

/-- The first enumeration gives way to its integer type, the second one stays, and the third array is
narrowed. -/
theorem buffers_keep_stride_palettes :
    LayoutConsistent palettes.tree ∧ palettes.bitness = palettes.tree.bitness ∧
    palettes.policy.aliases = [] ∧ IntegersPlain palettes.tree ∧
    (∃ u, (typeUse palettes "color[4]" .field).result = .ok u ∧ u.name = "uint" ∧ u.size = 16) ∧
    ∃ b, (run palettes).bindings = .ok b ∧
      (∃ d ∈ b.declarations, ∃ u ∈ d.body.stored, u = ⟨"double", 32, 16, some 2⟩) ∧
      ⟨.unmappable "long double" narrowing, none⟩ ∈ (run palettes).diagnostics ∧
      ∃ d ∈ b.declarations, d.body = .fixedBuffer ⟨"mask", 4, 4, none⟩ 2 8 ∧
        KeepsStride palettes b "mask" ⟨"mask", 4, 4, none⟩ := by
  have consistent : LayoutConsistent palettes.tree := ⟨.inr rfl, by decide +kernel⟩
  have hplain : IntegersPlain palettes.tree := integersPlain_of_primitive (by decide +kernel)
  obtain ⟨harrays, hbindings⟩ := buffers_keep_stride consistent rfl rfl hplain
  refine ⟨consistent, rfl, rfl, hplain, ?_, ?_⟩
  · have huse : (typeUse palettes "color[4]" .field).result = .ok ⟨"uint", 16, 4, some 4⟩ := by
      decide +kernel
    obtain ⟨-, hsize, -⟩ := harrays "color[4]" _ rfl _ _ _ rfl _ huse 4 rfl
    exact ⟨_, huse, rfl, hsize⟩
  have hbodies : (run palettes).bindings.toOption.map (fun b => b.declarations.map (·.body)) = some [
      .enumeration ⟨"byte", 1, 1, none⟩ [⟨"RED", 0⟩, ⟨"BLUE", 1⟩],
      .enumeration ⟨"uint", 4, 4, none⟩ [⟨"ALL", 65536⟩],
      .fixedBuffer ⟨"mask", 4, 4, none⟩ 2 8,
      .struct [⟨"colors", ⟨"uint", 16, 4, some 4⟩, 0, 0⟩,
        ⟨"masks", ⟨"FixedBuffer_Mask_two", 8, 4, none⟩, 16, 8⟩,
        ⟨"weights", ⟨"double", 32, 16, some 2⟩, 32, 0⟩] 64 16] := by
    decide +kernel
  obtain ⟨b, hrun, hbodies⟩ := eq_ok_of_toOption_map hbodies
  obtain ⟨hbuffers, hhelpers⟩ := hbindings b hrun
  have hdeclared {body : Binding.Body} (hbody : body ∈ b.declarations.map (·.body)) :
      ∃ d ∈ b.declarations, d.body = body := by
    obtain ⟨d, hd, heq⟩ := List.mem_map.mp hbody
    exact ⟨d, hd, heq⟩
  refine ⟨b, hrun, ?_, ?_, ?_⟩
  · obtain ⟨d, hd, hbody⟩ := hdeclared (hbodies ▸ List.mem_cons_of_mem _ (List.mem_cons_of_mem _
      (List.mem_cons_of_mem _ List.mem_cons_self)))
    exact ⟨d, hd, ⟨"double", 32, 16, some 2⟩, by rw [hbody]; decide, rfl⟩
  · obtain ⟨d, hd, hbody⟩ := hdeclared (hbodies ▸ List.mem_cons_of_mem _ (List.mem_cons_of_mem _
      (List.mem_cons_of_mem _ List.mem_cons_self)))
    obtain ⟨w, hw, hsize | ⟨-, htold⟩⟩ := hbuffers d hd ⟨"double", 32, 16, some 2⟩
      (by rw [hbody]; decide) 2 rfl
    · cases hw
      cases hsize
    · exact htold
  · obtain ⟨d, hd, hbody⟩ := hdeclared (hbodies ▸ List.mem_cons_of_mem _ (List.mem_cons_of_mem _
      List.mem_cons_self))
    obtain ⟨array, harray, element, harrayBody, hkeeps⟩ := hhelpers d hd _ _ _ hbody
    have helement : ∀ array ∈ palettes.tree.nodes, ∀ next ∈ spelledOver? array.body,
        array.body = .array next 2 8 → next = "mask" := by decide +kernel
    obtain rfl := helement array harray element (by rw [harrayBody]; rfl) harrayBody
    exact ⟨d, hd, hbody, hkeeps⟩

/-- A tree with an enumeration whose integer type is an enumeration that is declared smaller than it is in
C. -/
def ranks : Setting where
  tree := ⟨"ranks.h", 64, [
    ⟨"int", .primitive 4 4, none⟩,
    ⟨"low", .enumeration "int" [⟨"NONE", 0, none⟩], none⟩,
    ⟨"high", .enumeration "low" [⟨"FIRST", 0, none⟩], none⟩,
    ⟨"high[3]", .array "high" 3 12, none⟩,
    ⟨"table", .record false [⟨"ranks", "high[3]", 0, 12⟩] 12 4, none⟩]⟩
  policy := ⟨"Ranks", [], [], none⟩

/-- The condition on integer types cannot be left out: an enumeration that gives way to another one loses
the stride with it. -/
theorem ranks_lose_stride :
    LayoutConsistent ranks.tree ∧ ranks.tree.danglingReferences = [] ∧ Acyclic ranks.tree ∧
    ranks.bitness = ranks.tree.bitness ∧ ranks.policy.aliases = [] ∧
    ranks.tree.sizeOf "low" = .ok 4 ∧
    (run ranks).bindings.toOption.map (fun b => b.declarations.map fun d => (d.name, d.body)) = some [
      ("low", .enumeration ⟨"byte", 1, 1, none⟩ [⟨"NONE", 0⟩]),
      ("high", .enumeration ⟨"byte", 1, 1, none⟩ [⟨"FIRST", 0⟩]),
      ("FixedBuffer_Low_three", .fixedBuffer ⟨"low", 4, 4, none⟩ 3 12),
      ("table", .struct [⟨"ranks", ⟨"FixedBuffer_Low_three", 12, 4, none⟩, 0, 0⟩] 12 4)] := by
  have hordered : ∀ node ∈ ranks.tree.nodes, ∀ next ∈ spelledOver? node.body,
      ranks.tree.names.idxOf next < ranks.tree.names.idxOf node.name := by decide +kernel
  refine ⟨⟨.inr rfl, by decide +kernel⟩, by decide +kernel, acyclic_of_rank hordered, rfl, rfl,
    by decide +kernel, by decide +kernel⟩

end CInterop.Mapping
