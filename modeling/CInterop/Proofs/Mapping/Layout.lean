import CInterop.Proofs.Mapping.Totality

/-!
# Layout does not depend on the policy

In a field a type keeps its size, whatever is ignored or replaced and wherever: below a typedef, in an
array or as the integer type of an enumeration. So a record has one layout in all bindings of a tree.
-/

namespace CInterop.Mapping

open Header
open Binding (TypeUse escape)

/-- What of a field decides where it lies: its name, its offset, its size and what follows it. -/
def layout (f : Binding.Field) : String × Int × Int × Int :=
  (f.name, f.offset, f.type.size, f.padding)

/-! ## Trees whose sizes are those of the platform -/

/-- All references of the tree lead to types, without a cycle and within the limit, and the types
whose size depends on the platform have a size for its pointer width. -/
structure Regular (t : Declarations) : Prop where
  closed : t.danglingReferences = []
  acyclic : Acyclic t
  short : ∀ links name size, Measures t links name size → links ≤ 64
  pointers : ∀ node ∈ t.nodes, node.kind = .pointer ∨ node.kind = .functionPointer →
    node.body.statedSize = t.bitness / 8
  platform : ∀ node ∈ t.nodes, node.kind = .primitive →
    (platformPrimitives.lookup node.name).isSome →
    node.body.statedSize = 4 ∨ node.body.statedSize = 8

/-- In a field, the use is as large as the type. -/
def Sized (t : Declarations) (name : String) (position : Position) (u : TypeUse) : Prop :=
  position = .field → ∀ links size, Measures t links name size → 0 < size → u.size = size

/-- A use that has the size at the end of the chain is as large as the type. -/
theorem sized_of_measures {t : Declarations} {name : String} {position : Position} {u : TypeUse}
    {links : Nat} (h : Measures t links name u.size) : Sized t name position u :=
  fun _ _ _ h' _ => h.unique h'

section

variable {s : Setting} {name : String} {node : Declaration}

/-- A pointer of any sort is as large as the platform has it. -/
theorem measures_pointer (regular : Regular s.tree) (hbitness : s.bitness = s.tree.bitness)
    (hnode : s.tree.node? name = some node)
    (hkind : node.kind = .pointer ∨ node.kind = .functionPointer) :
    Measures s.tree 0 name s.pointerSize := by
  have hstated : measuredBy? node.body = none := by
    unfold measuredBy?
    rw [Node.kind] at hkind
    split <;> simp_all [Body.kind]
  rw [Setting.pointerSize, hbitness, ← regular.pointers node (node?_mem hnode) hkind]
  exact .stated hnode hstated

/-! ## Rules for one node -/

/-- The placeholder of an ignored type takes its place in a field. -/
theorem sized_placeholder (regular : Regular s.tree) {position : Position} {u : TypeUse}
    (h : (placeholder s name position).result = .ok u) : Sized s.tree name position u := by
  intro hfield links size hmeasures hpos
  obtain ⟨_, -, h, -⟩ := Outcome.bind_eq_ok h
  obtain ⟨stated, hstated, h, -⟩ := Outcome.bind_eq_ok h
  have hsize := sizeOf_of_measures hmeasures (regular.short _ _ _ hmeasures)
  obtain rfl : stated = size := Except.ok.inj (hstated.symm.trans hsize)
  cases h
  rw [if_pos (by simp [hfield, hpos])]

/-- So is a use with the size that is found. -/
theorem sized_sizeOf (regular : Regular s.tree) {position : Position} {u : TypeUse}
    (h : s.sizeOf name = .ok u.size) : Sized s.tree name position u := by
  intro _ links size hmeasures _
  have hsize := sizeOf_of_measures hmeasures (regular.short _ _ _ hmeasures)
  exact Except.ok.inj (h.symm.trans hsize)

theorem size_sizedInteger {size : Int} (isSigned : Bool) (h : size = 4 ∨ size = 8) :
    ((sizedInteger size isSigned).size : Int) = size := by
  rcases h with rfl | rfl <;> cases isSigned <;> rfl

/-- A primitive keeps its size. -/
theorem size_primitive (hbitness : s.bitness = s.tree.bitness) {size align : Int} {u : TypeUse}
    (hplatform : (platformPrimitives.lookup name).isSome → size = 4 ∨ size = 8)
    (h : (primitive s name size align).result = .ok u) : u.size = size := by
  unfold primitive at h
  split at h
  · rename_i integer hinteger
    obtain ⟨isSigned, hlookup, rfl⟩ := Option.map_eq_some_iff.mp hinteger
    have hsize := hplatform (by rw [hlookup]; rfl)
    have hknown : (s.bitness = s.tree.bitness && (size = 4 || size = 8)) = true := by
      simp [hbitness, hsize]
    cases h
    rw [if_pos hknown]
    exact size_sizedInteger isSigned hsize
  · dsimp only at h
    split at h
    · split at h
      · obtain ⟨_, -, h, -⟩ := Outcome.bind_eq_ok h
        cases h
        rfl
      · cases h
        rfl
    · split at h
      · cases h
        rfl
      · obtain ⟨_, -, h, -⟩ := Outcome.bind_eq_ok h
        cases h
        rfl

section

/- The rules keep sizes if the uses they ask for do. -/
variable {use : String → Position → Outcome TypeUse} {position : Position} {u : TypeUse}

/-- A primitive type, a pointer or an array is as large in a field as it is in C. -/
theorem sized_structural? (regular : Regular s.tree) (hbitness : s.bitness = s.tree.bitness)
    {outcome : Outcome TypeUse} (hnode : s.tree.node? name = some node)
    (houtcome : structural? use s node position = some outcome) (h : outcome.result = .ok u) :
    Sized s.tree name position u := by
  have hmem := node?_mem hnode
  unfold structural? at houtcome
  split at houtcome
  · rename_i size align hbody
    have hmeasures : Measures s.tree 0 name size := measures_of_body hnode hbody rfl
    cases houtcome
    split at h
    · rw [node?_name hnode] at h
      exact sized_placeholder regular h
    · split at h
      · cases h
        exact sized_of_measures hmeasures
      · have hplatform := regular.platform node hmem (by rw [Node.kind, hbody]; rfl)
        rw [hbody] at hplatform
        have hsize : u.size = size := size_primitive hbitness hplatform h
        exact sized_of_measures (hsize ▸ hmeasures)
  · rename_i pointee size hbody
    have hmeasures := measures_pointer regular hbitness hnode (.inl (by rw [Node.kind, hbody]; rfl))
    cases houtcome
    split at h
    · obtain ⟨_, -, h, -⟩ := Outcome.bind_eq_ok h
      cases h
      exact sized_of_measures hmeasures
    · obtain ⟨target, -, h, -⟩ := Outcome.bind_eq_ok h
      obtain ⟨inner, -, h, -⟩ := Outcome.bind_eq_ok h
      cases h
      exact sized_of_measures hmeasures
  · rename_i element count size hbody
    have hmeasures : Measures s.tree 0 name size := measures_of_body hnode hbody rfl
    cases houtcome
    obtain ⟨inner, -, h, -⟩ := Outcome.bind_eq_ok h
    cases position with
    | value => exact fun hfield => by cases hfield
    | field =>
      dsimp only at h
      split at h
      · cases h
        exact sized_of_measures hmeasures
      · obtain ⟨helper, -, h, -⟩ := Outcome.bind_eq_ok h
        cases h
        exact sized_of_measures hmeasures
  · cases houtcome

/-- So is a type with a name of its own. -/
theorem sized_named (regular : Regular s.tree) (hbitness : s.bitness = s.tree.bitness)
    (huse : ∀ name position u, (use name position).result = .ok u → Sized s.tree name position u)
    (hnode : s.tree.node? name = some node) (h : (named use s node position).result = .ok u) :
    Sized s.tree name position u := by
  unfold named at h
  split at h
  · rename_i underlying hbody
    obtain ⟨inner, hinner, h, -⟩ := Outcome.bind_eq_ok h
    have hsame : u.size = inner.size := by
      split at h <;> cases h <;> rfl
    -- the chain of the typedef is one link longer than that of its type
    intro hfield links size hmeasures hpos
    cases hmeasures with
    | stated hnode' hbody' =>
      rw [← Option.some.inj (hnode.symm.trans hnode'), hbody] at hbody'
      cases hbody'
    | link hnode' hbody' hmeasures =>
      rw [← Option.some.inj (hnode.symm.trans hnode'), hbody] at hbody'
      cases hbody'
      exact hsame.trans (huse underlying position inner hinner hfield _ _ hmeasures hpos)
  · rename_i fields size align hbody
    have hmeasures : Measures s.tree 0 name size := measures_of_body hnode hbody rfl
    cases h
    exact sized_of_measures hmeasures
  · obtain ⟨size, hsize, h, -⟩ := Outcome.bind_eq_ok h
    rw [node?_name hnode] at hsize
    cases h
    exact sized_sizeOf regular hsize
  · rename_i result parameters size hbody
    have hmeasures := measures_pointer regular hbitness hnode (.inr (by rw [Node.kind, hbody]; rfl))
    cases h
    exact sized_of_measures hmeasures
  · rename_i hbody
    have hmeasures : Measures s.tree 0 name 0 := measures_of_body hnode hbody rfl
    cases h
    exact sized_of_measures hmeasures
  · cases h

theorem sized_nodeUse (regular : Regular s.tree) (hbitness : s.bitness = s.tree.bitness)
    (huse : ∀ name position u, (use name position).result = .ok u → Sized s.tree name position u)
    (hnode : s.tree.node? name = some node) (h : (nodeUse use s node position).result = .ok u) :
    Sized s.tree name position u := by
  unfold nodeUse at h
  split at h
  · exact sized_structural? regular hbitness hnode ‹_› h
  · rw [node?_name hnode] at h
    split at h
    · exact sized_placeholder regular h
    · split at h
      · obtain ⟨size, hsize, h, -⟩ := Outcome.bind_eq_ok h
        cases h
        exact sized_sizeOf regular hsize
      · exact sized_named regular hbitness huse hnode h

end

end

/-! ## Uses of types -/

section

variable {s : Setting}

/-- However many references may be followed, a use in a field is as large as the type is in C. -/
theorem sized_useWithin (regular : Regular s.tree) (hbitness : s.bitness = s.tree.bitness)
    (steps : Nat) (name : String) (position : Position) (u : TypeUse)
    (h : (useWithin s steps name position).result = .ok u) : Sized s.tree name position u := by
  induction steps generalizing name position u with
  | zero => cases h
  | succ steps ih =>
    obtain ⟨node, hfound, h, -⟩ := Outcome.bind_eq_ok h
    exact sized_nodeUse regular hbitness ih (node_eq_ok hfound) h

/-- In a field every type is as large as it is in C. -/
theorem yields_typeUse (regular : Regular s.tree) (counts : CountsNamed s.tree)
    (hbitness : s.bitness = s.tree.bitness) {name : String} {size : Int}
    (hsize : s.tree.sizeOf name = .ok size) (hpos : 0 < size) :
    Yields (typeUse s name .field) fun u => u.size = size := by
  obtain ⟨links, hmeasures⟩ := measures_of_sizeOf hsize
  have closed := closed_of_danglingReferences regular.closed
  obtain ⟨u, hu, -⟩ := ends_typeUse closed regular.acyclic counts .field (hmeasures.hasType hpos)
  exact ⟨u, hu, sized_useWithin regular hbitness _ name .field u hu rfl links size hmeasures hpos⟩

/-! ## Records -/

/-- The fields of a record are laid out as in C, if each has the size of its type. -/
theorem yields_fieldsOf (regular : Regular s.tree) (counts : CountsNamed s.tree)
    (hbitness : s.bitness = s.tree.bitness) (node : Declaration)
    (padding : Field String Int → Int) (fields : List (Field String Int))
    (hsizes : ∀ f ∈ fields, s.tree.sizeOf f.type = .ok f.size ∧ 0 ≤ f.size) :
    Yields (fieldsOf s node padding fields) fun mapped =>
      mapped.map layout = (fields.filter (·.size ≠ 0)).map fun f =>
        (escape f.name, f.offset, f.size, padding f) := by
  induction fields with
  | nil => exact .pure rfl
  | cons f rest ih =>
    rw [List.forall_mem_cons] at hsizes
    obtain ⟨⟨hsize, hnonneg⟩, hrest⟩ := hsizes
    unfold fieldsOf
    split
    · rename_i hzero
      rw [List.filter_cons_of_neg (by simpa using hzero)]
      exact (Yields.emit _).bind fun _ _ => ih hrest
    · rename_i hzero
      have hpos : 0 < f.size := by omega
      refine (yields_typeUse regular counts hbitness hsize hpos).bind fun type htype =>
        (ih hrest).bind fun others hothers => .pure ?_
      rw [List.filter_cons_of_pos (by simpa using hzero), List.map_cons, List.map_cons, hothers,
        layout, htype]

/-- The struct that a record becomes, if it is kept. -/
theorem exists_struct {b : Binding.Bindings} {node : Declaration} {isUnion : Bool}
    {fields : List (Field String Int)} {size align : Int} (regular : Regular s.tree)
    (counts : CountsNamed s.tree) (hbitness : s.bitness = s.tree.bitness)
    (hrun : (run s).bindings = .ok b) (hnode : node ∈ s.tree.nodes)
    (hbody : node.body = .record isUnion fields size align)
    (hsizes : ∀ f ∈ fields, s.tree.sizeOf f.type = .ok f.size ∧ 0 ≤ f.size)
    (hignored : s.policy.ignores node.name = false)
    (halias : s.policy.aliasFor? node.name = none) :
    ∃ d ∈ b.ofNodes, d.origin = some node.name ∧ ∃ mapped, d.body = .struct mapped size align ∧
      mapped.map layout = (fields.filter (·.size ≠ 0)).map fun f =>
        (escape f.name, f.offset, f.size,
          paddingAfter isUnion (fields.map (·.offset)) size f.offset f.size) := by
  have hmapped : isMapped s node = true := by
    have hinline : isInline node = false := by rw [isInline, Node.kind, hbody]; rfl
    rw [isMapped, hinline, hignored, halias]
    rfl
  have hyields : Yields (declaration? s node) fun declaration =>
      ∃ d, declaration = some d ∧ d.origin = some node.name ∧
        ∃ mapped, d.body = .struct mapped size align ∧
          mapped.map layout = (fields.filter (·.size ≠ 0)).map fun f =>
            (escape f.name, f.offset, f.size,
              paddingAfter isUnion (fields.map (·.offset)) size f.offset f.size) := by
    rw [declaration?, hbody]
    exact (yields_fieldsOf regular counts hbitness node _ fields hsizes).bind fun mapped hlayout =>
      .pure ⟨_, rfl, rfl, mapped, rfl, hlayout⟩
  obtain ⟨_, hresult, d, rfl, horigin, hstruct⟩ := hyields
  have hdeclared : declared? s node = some d := by
    rw [declared?, if_pos hmapped, hresult]
    rfl
  refine ⟨d, ?_, horigin, hstruct⟩
  rw [ofNodes_run hrun]
  exact List.mem_filterMap.mpr ⟨node, hnode, hdeclared⟩

end

/-- The layout of a regular tree with counts in words is the same under every policy for its own
pointer width. In a field every type is as large as it is in C, and a record whose fields have the
sizes of their types becomes the same struct under any two policies that keep it, but for the spelling
of types. -/
theorem layout_of_regular {t : Declarations} (regular : Regular t) (counts : CountsNamed t) :
    (∀ policy, Setting.bitness ⟨t, policy⟩ = t.bitness →
      ∀ name size, t.sizeOf name = .ok size → 0 < size →
        ∃ u, (typeUse ⟨t, policy⟩ name .field).result = .ok u ∧ u.size = size) ∧
    ∀ policy policy' b b', Setting.bitness ⟨t, policy⟩ = t.bitness →
      Setting.bitness ⟨t, policy'⟩ = t.bitness →
      (run ⟨t, policy⟩).bindings = .ok b → (run ⟨t, policy'⟩).bindings = .ok b' →
      ∀ node ∈ t.nodes, ∀ isUnion fields size align, node.body = .record isUnion fields size align →
        (∀ f ∈ fields, t.sizeOf f.type = .ok f.size ∧ 0 ≤ f.size) →
        policy.ignores node.name = false → policy.aliasFor? node.name = none →
        policy'.ignores node.name = false → policy'.aliasFor? node.name = none →
        ∃ d ∈ b.ofNodes, ∃ d' ∈ b'.ofNodes,
          d.origin = some node.name ∧ d'.origin = some node.name ∧
          ∃ mapped mapped', d.body = .struct mapped size align ∧
            d'.body = .struct mapped' size align ∧ mapped.map layout = mapped'.map layout := by
  constructor
  · intro policy hbitness name size hsize hpos
    exact yields_typeUse regular counts hbitness hsize hpos
  · intro policy policy' b b' hbitness hbitness' hrun hrun' node hnode isUnion fields size align hbody
      hsizes hignored halias hignored' halias'
    obtain ⟨d, hd, horigin, mapped, hstruct, hlayout⟩ :=
      exists_struct regular counts hbitness hrun hnode hbody hsizes hignored halias
    obtain ⟨d', hd', horigin', mapped', hstruct', hlayout'⟩ :=
      exists_struct regular counts hbitness' hrun' hnode hbody hsizes hignored' halias'
    exact ⟨d, hd, d', hd', horigin, horigin', mapped, mapped', hstruct, hstruct',
      hlayout.trans hlayout'.symm⟩

/-- A tree without references ahead, of no more nodes than the limit on links, is regular if its sizes
are. -/
theorem regular_of_ordered {t : Declarations} (hlength : t.names.length ≤ 64)
    (hclosed : t.danglingReferences = [])
    (hordered : ∀ node ∈ t.nodes, ∀ next ∈ spelledOver? node.body,
      t.names.idxOf next < t.names.idxOf node.name)
    (hpointers : ∀ node ∈ t.nodes, node.kind = .pointer ∨ node.kind = .functionPointer →
      node.body.statedSize = t.bitness / 8)
    (hplatform : ∀ node ∈ t.nodes, node.kind = .primitive →
      (platformPrimitives.lookup node.name).isSome →
      node.body.statedSize = 4 ∨ node.body.statedSize = 8) : Regular t where
  closed := hclosed
  acyclic := acyclic_of_rank hordered
  short _ _ _ h := (h.le_rank hordered).trans (List.idxOf_le_length.trans hlength)
  pointers := hpointers
  platform := hplatform

theorem regular_sample : Regular sample.tree :=
  regular_of_ordered (by decide +kernel) (by decide +kernel) (by decide +kernel) (by decide +kernel)
    (by decide +kernel)

theorem countsNamed_sample : CountsNamed sample.tree := countsNamed_of_counts (by decide +kernel)

/-- With one record ignored and another replaced, the record that holds both keeps its layout. -/
theorem layout_of_regular_sample :
    ∃ b b', (run sample).bindings = .ok b ∧
      (run ⟨sample.tree, ⟨"Plain", [], [], none⟩⟩).bindings = .ok b' ∧
      (∃ u, (typeUse sample "secret" .field).result = .ok u ∧ u.size = 4) ∧
      ∃ d ∈ b.ofNodes, ∃ d' ∈ b'.ofNodes, d.origin = some "panel" ∧ d'.origin = some "panel" ∧
        ∃ mapped mapped', d.body = .struct mapped 32 8 ∧ d'.body = .struct mapped' 32 8 ∧
          mapped.map layout = mapped'.map layout := by
  have huses := (layout_of_regular regular_sample countsNamed_sample).1 sample.policy rfl "secret" 4
    (by decide +kernel) (by decide)
  have hok : (run sample).bindings.isOk = true := by decide +kernel
  have hok' : (run ⟨sample.tree, ⟨"Plain", [], [], none⟩⟩).bindings.isOk = true := by decide +kernel
  cases hrun : (run sample).bindings with
  | error failure => rw [hrun] at hok; cases hok
  | ok b =>
    cases hrun' : (run ⟨sample.tree, ⟨"Plain", [], [], none⟩⟩).bindings with
    | error failure => rw [hrun'] at hok'; cases hok'
    | ok b' =>
      refine ⟨b, b', rfl, rfl, huses, ?_⟩
      exact (layout_of_regular regular_sample countsNamed_sample).2 sample.policy _ b b' rfl rfl hrun
        hrun' _ (List.getElem_mem (show 8 < sample.tree.nodes.length by decide)) _ _ _ _ rfl
        (by decide +kernel) (by decide +kernel) (by decide +kernel) rfl rfl

/-- A tree with an array whose count is too large for a name. -/
def oversized : Declarations := ⟨"oversized.h", 64, [
  ⟨"int", .primitive 4 4, none⟩,
  ⟨"int*", .pointer "int" 8, none⟩,
  ⟨"int*[]", .array "int*" (1000 ^ 102 : Nat) (8 * 1000 ^ 102 : Nat), none⟩]⟩

/-- A tree with a record that has a field of a negative size. -/
def undersized : Declarations := ⟨"undersized.h", 64, [
  ⟨"hole", .primitive (-4) 4, none⟩,
  ⟨"holder", .record false [⟨"first", "hole", 0, -4⟩] 8 4, none⟩]⟩

/-- Neither condition can be left out: an array whose count has no name has no use in a field, and a
field of a negative size has the size of a pointer when its type is ignored. -/
theorem regular_not_laid_out :
    (Regular oversized ∧ oversized.sizeOf "int*[]" = .ok (8 * 1000 ^ 102 : Nat) ∧
      (typeUse ⟨oversized, ⟨"Oversized", [], [], none⟩⟩ "int*[]" .field).result =
        .error (.failed (.fault .countTooLarge))) ∧
    Regular undersized ∧ undersized.sizeOf "hole" = .ok (-4) ∧
      (run ⟨undersized, ⟨"Kept", [], [], none⟩⟩).bindings.toOption.map
        (fun b => b.declarations.map (·.body)) =
          some [.struct [⟨"first", ⟨"IntPtr", -4, 4, none⟩, 0, 12⟩] 8 4] ∧
      (run ⟨undersized, ⟨"Ignored", [], ["hole"], none⟩⟩).bindings.toOption.map
        (fun b => b.declarations.map (·.body)) =
          some [.struct [⟨"first", ⟨"IntPtr", 8, 8, none⟩, 0, 12⟩] 8 4] := by
  refine ⟨⟨?_, ?_, ?_⟩, ?_, ?_, ?_, ?_⟩
  · exact regular_of_ordered (by decide +kernel) (by decide +kernel) (by decide +kernel)
      (by decide +kernel) (by decide +kernel)
  · decide +kernel
  · decide +kernel
  · exact regular_of_ordered (by decide +kernel) (by decide +kernel) (by decide +kernel)
      (by decide +kernel) (by decide +kernel)
  · decide +kernel
  · decide +kernel
  · decide +kernel

end CInterop.Mapping
