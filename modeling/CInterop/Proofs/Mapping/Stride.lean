import CInterop.Proofs.Mapping.HelperNames
import CInterop.Proofs.Mapping.Reports
import CInterop.Proofs.Mapping.Totality
import CInterop.Proofs.Success

/-!
# The stride of arrays

A buffer has as many elements as the array in C, and each has the width of the type it is spelled with.
So the buffer is as large as the array exactly if that is the size of the elements in C, which each way to
spell the elements has to see to: the tables of primitives, the platform's integers, and the
enumerations, of which only those as wide as their integer type stand in an array. The one exception is
a `long double`, which is narrowed and reported. A judgment on outcomes carries what is reported so far
through all rules.
-/

namespace CInterop

/-- The uses of types that a declaration lays out in memory. -/
def Binding.Body.stored : Binding.Body → List Binding.TypeUse
  | .struct fields _ _ => fields.map (·.type)
  | .aliasStruct type => [type]
  | .fixedBuffer element _ _ => [element]
  | _ => []

namespace Mapping

open Header
open Binding (TypeUse IntegerType escape)

variable {α β : Type}

/-! ## Widths and sizes -/

/-- The widths in bytes of the types that the elements of a buffer can have. -/
def widths : List (String × Int) :=
  [("bool", 1), ("byte", 1), ("sbyte", 1), ("char", 2), ("short", 2), ("ushort", 2), ("int", 4),
    ("uint", 4), ("float", 4), ("long", 8), ("ulong", 8), ("double", 8)]

def width? (name : String) : Option Int := widths.lookup name

/-- The sizes in bytes that the primitives of C have, those of one size first. -/
def primitiveSizes : List (String × List Int) :=
  [("bool", [1]), ("_Bool", [1]), ("char", [1]), ("signed char", [1]), ("unsigned char", [1]),
    ("int8_t", [1]), ("uint8_t", [1]), ("short", [2]), ("unsigned short", [2]), ("int16_t", [2]),
    ("uint16_t", [2]), ("int", [4]), ("unsigned int", [4]), ("int32_t", [4]), ("uint32_t", [4]),
    ("float", [4]), ("long long", [8]), ("unsigned long long", [8]), ("int64_t", [8]),
    ("uint64_t", [8]), ("double", [8]), ("__int128", [16]), ("unsigned __int128", [16]),
    ("long", [4, 8]), ("unsigned long", [4, 8]), ("size_t", [4, 8]), ("ssize_t", [4, 8]),
    ("ptrdiff_t", [4, 8]), ("intptr_t", [4, 8]), ("uintptr_t", [4, 8]), ("wchar_t", [2, 4])]

/-- An array is as large as its elements together, and a primitive as large as in C. -/
def SizeConsistent (t : Declarations) (node : Declaration) : Prop :=
  match node.body with
  | .array element count size => (t.sizeOf element).toOption.map (count * ·) = some size
  | .primitive size _ => ∀ sizes ∈ primitiveSizes.lookup node.name, size ∈ sizes
  | _ => True

instance (t : Declarations) (node : Declaration) : Decidable (SizeConsistent t node) := by
  unfold SizeConsistent
  split <;> infer_instance

/-- The sizes that a tree states are those of C. -/
structure LayoutConsistent (t : Declarations) : Prop where
  bitness : t.bitness = 32 ∨ t.bitness = 64
  sizes : ∀ node ∈ t.nodes, SizeConsistent t node

/-- The name leads through typedefs to an enumeration. -/
inductive LeadsToEnumeration (t : Declarations) : String → Prop where
  | enumeration {name : String} {node : Declaration} (hnode : t.node? name = some node)
      (hkind : node.kind = .enumeration) : LeadsToEnumeration t name
  | link {name underlying : String} {node : Declaration} (hnode : t.node? name = some node)
      (hbody : node.body = .typedef underlying) (h : LeadsToEnumeration t underlying) :
      LeadsToEnumeration t name

/-- The integer types of enumerations are not enumerations themselves. -/
def IntegersPlain (t : Declarations) : Prop :=
  ∀ node ∈ t.nodes, ∀ integerType values, node.body = .enumeration integerType values →
    ¬LeadsToEnumeration t integerType

section

variable {name : String} {w : Int}

theorem SizeConsistent.of_array {t : Declarations} {node : Declaration} {element : String}
    {count size : Int} (h : SizeConsistent t node) (hbody : node.body = .array element count size) :
    ∃ stride, t.sizeOf element = .ok stride ∧ size = count * stride := by
  rw [SizeConsistent, hbody] at h
  obtain ⟨stride, hstride, hsize⟩ := eq_ok_of_toOption_map h
  exact ⟨stride, hstride, hsize.symm⟩

theorem mem_bufferTypes_of_width? (h : width? name = some w) : name ∈ bufferTypes := by
  have hmem : ∀ p ∈ widths, p.1 ∈ bufferTypes := by decide
  exact hmem _ (mem_of_lookup h)

theorem exists_width? (h : name ∈ bufferTypes) : ∃ w, width? name = some w := by
  have hsome : ∀ name ∈ bufferTypes, (width? name).isSome := by decide
  exact Option.isSome_iff_exists.mp (hsome name h)

/-- No type that is declared is called like the elements of a buffer. -/
theorem width?_escape (name : String) : width? (escape name) = none := by
  have hkeywords : ∀ name ∈ bufferTypes, name ∈ Binding.keywords ∧ name.toList.head? ≠ some '@' := by
    decide
  rw [Option.eq_none_iff_forall_ne_some]
  intro w h
  obtain ⟨hkeyword, hhead⟩ := hkeywords _ (mem_bufferTypes_of_width? h)
  unfold escape at hkeyword hhead
  split at hkeyword
  · rename_i hreserved
    rw [if_pos hreserved] at hhead
    exact hhead (by simp)
  · rename_i hfree
    exact hfree (List.contains_iff_mem.mpr hkeyword)

theorem width?_star (text : String) : width? (text ++ "*") = none := by
  have hlast : ∀ name ∈ bufferTypes, name.toList.getLast? ≠ some '*' := by decide
  rw [Option.eq_none_iff_forall_ne_some]
  exact fun w h => hlast _ (mem_bufferTypes_of_width? h) (by simp)

theorem width?_helper (rest : String) : width? ("FixedBuffer_" ++ rest) = none := by
  have hhead : ∀ name ∈ bufferTypes, name.toList.head? ≠ some 'F' := by decide
  rw [Option.eq_none_iff_forall_ne_some]
  exact fun w h => hhead _ (mem_bufferTypes_of_width? h) (by simp)

end

/-! ## Uses that keep the stride -/

/-- The report that a `long double` is narrowed. -/
def narrowed : Event := .reportOnce "long double" ⟨.unmappable "long double" narrowing, none⟩

/-- A buffer is as large as its elements together, or of narrowed elements, as is reported. -/
def Strides (events : List Event) (u : TypeUse) : Prop :=
  ∀ count, u.count = some count → ∃ w, width? u.name = some w ∧
    (count * w = u.size ∨ u.name = "double" ∧ narrowed ∈ events)

/-- The use of a type strides, and what can be an element of a buffer is as wide as the type is large,
or narrowed. -/
structure Fits (t : Declarations) (name : String) (events : List Event) (u : TypeUse) : Prop where
  strides : Strides events u
  width : u.count = none → ∀ w, width? u.name = some w → ∀ links size, Measures t links name size →
    size = w ∨ u.name = "double" ∧ narrowed ∈ events

section

variable {t : Declarations} {name : String} {events events' : List Event} {u : TypeUse}

theorem Strides.of_count (h : u.count = none) : Strides events u :=
  fun count hcount => by rw [h] at hcount; cases hcount

theorem Strides.mono (h : Strides events u) (hevents : events ⊆ events') : Strides events' u := by
  intro count hcount
  obtain ⟨w, hw, hsize⟩ := h count hcount
  exact ⟨w, hw, hsize.imp_right fun hdouble => ⟨hdouble.1, hevents hdouble.2⟩⟩

theorem Fits.mono (h : Fits t name events u) (hevents : events ⊆ events') : Fits t name events' u where
  strides := h.strides.mono hevents
  width hcount w hw links size hmeasures :=
    (h.width hcount w hw links size hmeasures).imp_right fun hdouble => ⟨hdouble.1, hevents hdouble.2⟩

/-- What is neither a buffer nor an element of one fits. -/
theorem Fits.of_width?_eq_none (hcount : u.count = none) (h : width? u.name = none) :
    Fits t name events u where
  strides := .of_count hcount
  width _ w hw := by rw [h] at hw; cases hw

end

/-- All helpers on the way to a result stride, and so does the result, once the events before have
happened: a condition on the result holds of all events until then. -/
structure Strided (before : List Event) (x : Outcome α) (post : List Event → α → Prop) : Prop where
  helpers : ∀ d, .helper d ∈ x.events → ∀ u ∈ d.body.stored, Strides (before ++ x.events) u
  result : ∀ a, x.result = .ok a → post (before ++ x.events) a

namespace Strided

variable {before : List Event} {x : Outcome α} {post : List Event → α → Prop}

theorem pure {a : α} (h : post before a) : Strided before (pure a) post where
  helpers _ hd := by cases hd
  result _ ha := by
    cases ha
    exact (List.append_nil before).symm ▸ h

theorem stop {reason : Stop} : Strided before (Outcome.stop reason) post where
  helpers _ hd := by cases hd
  result _ ha := by cases ha

theorem bind_ofExcept {x : Except Stop β} {f : β → Outcome α}
    (h : ∀ b, x = .ok b → Strided before (f b) post) : Strided before (Outcome.ofExcept x >>= f) post := by
  cases x with
  | error reason => exact ⟨fun _ hd => (by cases hd), fun _ ha => by cases ha⟩
  | ok b => exact h b rfl

theorem emit {event : Event} (h : ∀ d, event = .helper d → ∀ u ∈ d.body.stored, Strides before u) :
    Strided before (Outcome.emit event) fun events _ => event ∈ events where
  helpers d hd u hu :=
    (h d (List.mem_singleton.mp hd).symm u hu).mono (List.subset_append_left _ _)
  result _ _ := List.mem_append_right _ (List.mem_singleton.mpr rfl)

theorem bind {f : α → Outcome β} {post' : List Event → β → Prop} (hx : Strided before x post)
    (hf : ∀ a events, before ⊆ events → x.result = .ok a → post events a → Strided events (f a) post') :
    Strided before (x >>= f) post' := by
  obtain ⟨done, result⟩ := x
  cases result with
  | error reason => exact ⟨hx.helpers, fun _ h => by cases h⟩
  | ok a =>
    have hrest := hf a _ (List.subset_append_left _ _) rfl (hx.result a rfl)
    refine ⟨fun d hd u hu => ?_, fun b hb => ?_⟩
    · show Strides (before ++ (done ++ (f a).events)) u
      rw [← List.append_assoc]
      rcases List.mem_append.mp hd with hd | hd
      · exact (hx.helpers d hd u hu).mono (List.subset_append_left _ _)
      · exact hrest.helpers d hd u hu
    · show post' (before ++ (done ++ (f a).events)) b
      rw [← List.append_assoc]
      exact hrest.result b hb

theorem mono {post' : List Event → α → Prop} (hx : Strided before x post)
    (h : ∀ events a, post events a → post' events a) : Strided before x post' :=
  ⟨hx.helpers, fun a ha => h _ a (hx.result a ha)⟩

end Strided

/-! ## The rules for types -/

section

variable {s : Setting} {before : List Event}

/-- A report is no helper. -/
theorem strided_reportOnce (name : String) (d : Diagnostic) :
    Strided before (Outcome.emit (.reportOnce name d)) fun events _ => .reportOnce name d ∈ events :=
  .emit fun _ h => by cases h

theorem strided_placeholder (name other : String) (position : Position) :
    Strided before (placeholder s name position) (Fits s.tree other) := by
  refine (strided_reportOnce _ _).bind fun _ _ _ _ _ => .bind_ofExcept fun size _ => .pure ?_
  split
  · refine ⟨fun count hcount => ⟨1, rfl, .inl ?_⟩, fun hcount => by cases hcount⟩
    cases hcount
    exact Int.mul_one size
  · exact .of_width?_eq_none rfl (show width? "IntPtr" = none by decide)

/-- A primitive is as wide as it is large in C, or narrowed. -/
theorem strided_primitive (hbitness : s.bitness = s.tree.bitness) {name : String} {size : Int}
    (align : Int) (hsizes : ∀ sizes ∈ primitiveSizes.lookup name, size ∈ sizes) :
    Strided before (primitive s name size align) fun events u => u.count = none ∧
      ∀ w, width? u.name = some w → size = w ∨ u.name = "double" ∧ narrowed ∈ events := by
  have hplatform : ∀ p ∈ platformPrimitives, primitiveSizes.lookup p.1 = some [4, 8] := by decide
  have hfixed : ∀ p ∈ fixedPrimitives, p = ("long double", "double") ∨ p.1 ≠ "long double" ∧
      ∀ w ∈ width? p.2, primitiveSizes.lookup p.1 = some [w] := by decide
  unfold primitive
  split
  · rename_i integer hinteger
    obtain ⟨isSigned, hlookup, rfl⟩ := Option.map_eq_some_iff.mp hinteger
    have hmem : size ∈ [4, 8] := hsizes _ (hplatform _ (mem_of_lookup hlookup))
    have hsize : size = 4 ∨ size = 8 := by simpa using hmem
    have hknown : (s.bitness = s.tree.bitness && (size = 4 || size = 8)) = true := by
      simp [hbitness, hsize]
    rw [if_pos hknown]
    refine .pure ⟨rfl, fun w hw => .inl ?_⟩
    -- the integer is spelled for the size
    rcases hsize with rfl | rfl <;> cases isSigned <;> cases hw <;> rfl
  · dsimp only
    split
    · rename_i type htype
      -- all types in the table are as wide as they are large, but for the one that is narrowed
      rcases hfixed _ (mem_of_lookup htype) with heq | ⟨hname, hwidth⟩
      · cases heq
        rw [if_pos rfl]
        exact (strided_reportOnce _ _).bind fun _ _ _ _ hnarrowed =>
          .pure ⟨rfl, fun _ _ => .inr ⟨rfl, hnarrowed⟩⟩
      · rw [if_neg hname]
        refine .pure ⟨rfl, fun w hw => .inl ?_⟩
        exact List.mem_singleton.mp (hsizes _ (hwidth w hw))
    · split
      · rename_i hname
        subst hname
        have hmem : size ∈ [2, 4] := hsizes _ rfl
        have hsize : size = 2 ∨ size = 4 := by simpa using hmem
        refine .pure ⟨rfl, fun w hw => .inl ?_⟩
        rcases hsize with rfl | rfl <;> cases hw <;> rfl
      · -- an unknown type is spelled for its size alone
        refine (strided_reportOnce _ _).bind fun _ _ _ _ _ => .pure ⟨rfl, fun w hw => .inl ?_⟩
        dsimp only [typeOfSize] at hw
        repeat' split at hw
        all_goals cases hw
        all_goals assumption

theorem aliasFor?_eq_none (haliases : s.policy.aliases = []) (name : String) :
    s.policy.aliasFor? name = none := by
  rw [Policy.aliasFor?, haliases]
  rfl

/-- A helper strides if its elements do. -/
theorem strided_arrayHelper (array : String) {element : TypeUse} (count size : Int)
    (h : Strides before element) :
    Strided before (arrayHelper array element count size) fun _ text => width? text = none := by
  unfold arrayHelper
  dsimp only
  split
  · exact .stop
  · rename_i name hname
    refine (Strided.emit fun d hd u hu => ?_).bind fun _ _ _ _ _ => .pure ?_
    · cases hd
      exact List.mem_singleton.mp hu ▸ h
    · obtain ⟨rest, rfl⟩ := fixedBufferName?_begins hname
      exact width?_helper rest

section

/- The rules keep to the judgment if the uses they ask for do. -/
variable {use : String → Position → Outcome TypeUse}

/-- What a use is for: in a field it fits its type. -/
abbrev FitsAt (t : Declarations) (name : String) (position : Position) (events : List Event)
    (u : TypeUse) : Prop := position = .field → Fits t name events u

variable (huse : ∀ before name position,
  Strided before (use name position) (FitsAt s.tree name position))
include huse

theorem strided_backing (integerType : String) (values : List (Enumerator String Int)) :
    Strided before (backing use integerType values) fun _ _ => True := by
  unfold backing
  split
  · exact (huse _ _ _).mono fun _ _ _ => trivial
  · exact .pure trivial

/-- The elements of an array fit, also if an enumeration gives way to its integer type. -/
theorem strided_elementUse (name : String) :
    Strided before (elementUse use s name) (Fits s.tree name) := by
  refine (huse _ _ _).bind fun element events _ _ helement => .bind_ofExcept fun node hnode => ?_
  have helement := helement rfl
  split
  · rename_i integerType values hbody
    split
    · refine (strided_backing huse _ _).bind fun narrow events' hevents _ _ => ?_
      split
      · -- what the enumeration leads to in C is what its integer type leads to
        refine (huse _ _ _).mono fun events'' u hu => ⟨(hu rfl).strides, ?_⟩
        intro hcount w hw links size hmeasures
        cases hmeasures with
        | stated hnode' hbody' =>
          rw [← Option.some.inj ((node_eq_ok hnode).symm.trans hnode'), hbody] at hbody'
          cases hbody'
        | link hnode' hbody' hmeasures =>
          rw [← Option.some.inj ((node_eq_ok hnode).symm.trans hnode'), hbody] at hbody'
          cases hbody'
          exact (hu rfl).width hcount w hw _ size hmeasures
      · exact .pure (helement.mono hevents)
    · exact .pure helement
  · exact .pure helement

/-- A primitive type, a pointer and an array fit. -/
theorem strided_structural? (consistent : LayoutConsistent s.tree)
    (hbitness : s.bitness = s.tree.bitness) (haliases : s.policy.aliases = []) {name : String}
    {node : Declaration} {position : Position} {outcome : Outcome TypeUse}
    (hnode : s.tree.node? name = some node) (h : structural? use s node position = some outcome) :
    Strided before outcome (FitsAt s.tree name position) := by
  have hconsistent := consistent.sizes node (node?_mem hnode)
  unfold structural? at h
  split at h
  · rename_i size align hbody
    rw [SizeConsistent, hbody] at hconsistent
    cases h
    split
    · exact (strided_placeholder _ _ _).mono fun _ _ h _ => h
    · rw [aliasFor?_eq_none haliases]
      refine (strided_primitive hbitness align hconsistent).mono fun events u hu _ => ?_
      have hmeasures : Measures s.tree 0 name size := measures_of_body hnode hbody rfl
      refine ⟨.of_count hu.1, fun _ w hw links size' hmeasures' => ?_⟩
      exact (hmeasures.unique hmeasures') ▸ hu.2 w hw
  · cases h
    split
    · exact (strided_placeholder _ name _).bind fun _ _ _ _ _ =>
        .pure fun _ => .of_width?_eq_none rfl (width?_star "void")
    · exact .bind_ofExcept fun _ _ => (huse _ _ _).bind fun inner _ _ _ _ =>
        .pure fun _ => .of_width?_eq_none rfl (width?_star inner.name)
  · rename_i element count size hbody
    obtain ⟨stride, hstride, rfl⟩ := hconsistent.of_array hbody
    obtain ⟨links, hmeasures⟩ := measures_of_sizeOf hstride
    cases h
    refine (strided_elementUse huse element).bind fun inner events _ _ hinner => ?_
    cases position with
    | value => exact .pure fun h => by cases h
    | field =>
      dsimp only
      split
      · rename_i hbuffer
        rw [Bool.and_eq_true, Bool.not_eq_true', List.contains_iff_mem] at hbuffer
        refine .pure fun _ => ⟨fun count' hcount' => ?_, fun hcount => by cases hcount⟩
        cases hcount'
        -- the elements are one of the types of buffers, and no buffer themselves
        obtain ⟨w, hw⟩ := exists_width? hbuffer.1
        have hcount : inner.count = none :=
          Option.not_isSome_iff_eq_none.mp (by simpa [TypeUse.isFixedBuffer] using hbuffer.2)
        exact ⟨w, hw, (hinner.width hcount w hw links stride hmeasures).imp_left fun hsize =>
          congrArg (count * ·) hsize.symm⟩
      · exact (strided_arrayHelper _ _ _ hinner.strides).bind fun helper _ _ _ hhelper =>
          .pure fun _ => .of_width?_eq_none rfl hhelper
  · cases h

/-- A type with a name of its own is no element of a buffer. -/
theorem strided_named (node : Declaration) (position : Position) :
    Strided before (named use s node position) (FitsAt s.tree node.name position) := by
  unfold named
  split
  · refine (huse _ _ _).bind fun inner _ _ _ hinner => ?_
    split
    · rename_i hvoid
      refine .pure fun hfield => ⟨(hinner hfield).strides, fun _ w hw => ?_⟩
      rw [hvoid] at hw
      cases hw
    · exact .pure fun _ => .of_width?_eq_none rfl (width?_escape _)
  · exact .pure fun _ => .of_width?_eq_none rfl (width?_escape _)
  · exact .bind_ofExcept fun _ _ => .pure fun _ => .of_width?_eq_none rfl (width?_escape _)
  · exact .pure fun _ => .of_width?_eq_none rfl (width?_escape _)
  · exact .pure fun _ => .of_width?_eq_none rfl (width?_escape _)
  · exact .stop

theorem strided_nodeUse (consistent : LayoutConsistent s.tree)
    (hbitness : s.bitness = s.tree.bitness) (haliases : s.policy.aliases = []) {name : String}
    {node : Declaration} (position : Position) (hnode : s.tree.node? name = some node) :
    Strided before (nodeUse use s node position) (FitsAt s.tree name position) := by
  obtain rfl := node?_name hnode
  unfold nodeUse
  split
  · exact strided_structural? huse consistent hbitness haliases hnode ‹_›
  · split
    · exact (strided_placeholder _ _ _).mono fun _ _ h _ => h
    · rw [aliasFor?_eq_none haliases]
      exact strided_named huse node position

end

/-! ## Types and declarations -/

section

variable (consistent : LayoutConsistent s.tree) (hbitness : s.bitness = s.tree.bitness)
  (haliases : s.policy.aliases = [])
include consistent hbitness haliases

theorem strided_useWithin (steps : Nat) (before : List Event) (name : String) (position : Position) :
    Strided before (useWithin s steps name position) (FitsAt s.tree name position) := by
  induction steps generalizing before name position with
  | zero => exact .stop
  | succ steps ih =>
    exact .bind_ofExcept fun node hnode =>
      strided_nodeUse ih consistent hbitness haliases position (node_eq_ok hnode)

theorem strided_typeUse (name : String) (position : Position) :
    Strided before (typeUse s name position) (FitsAt s.tree name position) :=
  strided_useWithin consistent hbitness haliases _ before name position

theorem strided_parametersFrom (index : Nat) (parameters : List (Parameter String)) :
    Strided before (parametersFrom s index parameters) fun _ _ => True := by
  induction parameters generalizing before index with
  | nil => exact .pure trivial
  | cons p rest ih =>
    exact (strided_typeUse consistent hbitness haliases _ _).bind fun _ _ _ _ _ =>
      (ih (index + 1)).bind fun _ _ _ _ _ => .pure trivial

theorem strided_fieldsOf (node : Declaration) (padding : Field String Int → Int)
    (fields : List (Field String Int)) :
    Strided before (fieldsOf s node padding fields) fun events mapped =>
      ∀ m ∈ mapped, Strides events m.type := by
  induction fields generalizing before with
  | nil => exact .pure (by simp)
  | cons f rest ih =>
    unfold fieldsOf
    split
    · exact (Strided.emit fun _ h => by cases h).bind fun _ _ _ _ _ => ih
    · refine (strided_typeUse consistent hbitness haliases _ _).bind fun type events _ _ htype =>
        ih.bind fun others events' hevents _ hothers => .pure ?_
      exact List.forall_mem_cons.mpr ⟨(htype rfl).strides.mono hevents, hothers⟩

/-- What is declared strides, once it is declared. -/
abbrev DeclaredStrides (events : List Event) (declaration : Option Binding.Declaration) : Prop :=
  ∀ d, declaration = some d → ∀ u ∈ d.body.stored, Strides events u

omit consistent hbitness haliases in
theorem declaredStrides_none (events : List Event) : DeclaredStrides events none :=
  fun _ h => by cases h

theorem strided_signature {result : String} {parameters : List (Parameter String)}
    {f : TypeUse → List Binding.Parameter → Binding.Declaration}
    (h : ∀ type others, (f type others).body.stored = []) :
    Strided before (do
      let type ← typeUse s result .value
      let others ← parametersFrom s 0 parameters
      return some (f type others)) DeclaredStrides :=
  (strided_typeUse consistent hbitness haliases _ _).bind fun type _ _ _ _ =>
    (strided_parametersFrom consistent hbitness haliases _ _).bind fun others _ _ _ _ =>
      .pure fun d hd u hu => by
        cases hd
        rw [h] at hu
        cases hu

omit consistent hbitness haliases in
theorem strided_constantOf (node : Declaration) (type value typeName : String) :
    Strided before
      (match constantTypes.contains typeName, Macro.Expr.ofText? value with
        | true, some e =>
          match e.renderConstant typeName with
          | .ok text => return some (fromNode node "MacroDefinition" (.constant typeName text))
          | .error _ => Outcome.stop (.failed (.fault .literal))
        | _, _ => do
          reportUnmappable node node.name
            s!"a constant of C type '{type}' has no C# constant form"
          return none) DeclaredStrides := by
  split
  · split
    · refine .pure fun d hd u hu => ?_
      cases hd
      cases hu
    · exact .stop
  · exact (Strided.emit fun _ h => by cases h).bind fun _ _ _ _ _ => .pure (declaredStrides_none _)

theorem strided_declaration? (node : Declaration) :
    Strided before (declaration? s node) DeclaredStrides := by
  have types {before name position} :
      Strided before (typeUse s name position) (FitsAt s.tree name position) :=
    strided_typeUse consistent hbitness haliases name position
  unfold declaration?
  split
  · exact .pure (declaredStrides_none _)
  · exact .pure (declaredStrides_none _)
  · exact .pure (declaredStrides_none _)
  · exact .pure (declaredStrides_none _)
  · split
    · exact (Strided.emit fun _ h => by cases h).bind fun _ _ _ _ _ => .pure (declaredStrides_none _)
    · exact strided_signature consistent hbitness haliases fun _ _ => rfl
  · exact strided_signature consistent hbitness haliases fun _ _ => rfl
  · refine (strided_fieldsOf consistent hbitness haliases _ _ _).bind fun mapped _ _ _ hmapped =>
      .pure fun d hd u hu => ?_
    cases hd
    obtain ⟨m, hm, rfl⟩ := List.mem_map.mp hu
    exact hmapped m hm
  · refine (strided_backing (fun _ _ _ => types) _ _).bind fun _ _ _ _ _ => .pure fun d hd u hu => ?_
    cases hd
    cases hu
  · refine .pure fun d hd u hu => ?_
    cases hd
    cases hu
  · refine types.bind fun type _ _ _ htype => .pure fun d hd u hu => ?_
    split at hd <;> cases hd
    exact List.mem_singleton.mp hu ▸ (htype rfl).strides
  · refine .bind_ofExcept fun _ _ => types.bind fun _ _ _ _ _ => .pure fun d hd u hu => ?_
    cases hd
    cases hu
  · refine .bind_ofExcept fun target _ => ?_
    split
    · exact strided_constantOf _ _ _ _
    · exact types.bind fun _ _ _ _ _ => strided_constantOf _ _ _ _

end

end

end Mapping
end CInterop
