import CInterop.Mapping

/-!
# What happens on the way to a result

Whatever a tree refers to, mapping a type or a declaration gives rise to four sorts of events only: a
part without a counterpart, an unusual primitive, the use of an ignored type, and a helper. None of
them is about a missing type, which is reported for a node as a whole, nor about two rules for one
node, which is reported when the node has its turn.
-/

namespace CInterop.Mapping

open Header
open Binding (TypeUse escape)

variable {α β : Type}

/-- A result of two steps in a row comes from a result of the first. -/
theorem Outcome.bind_eq_ok {x : Outcome α} {f : α → Outcome β} {b : β}
    (h : (x >>= f).result = .ok b) :
    ∃ a, x.result = .ok a ∧ (f a).result = .ok b ∧ (x >>= f).events = x.events ++ (f a).events := by
  obtain ⟨events, result⟩ := x
  cases result with
  | error reason => cases h
  | ok a => exact ⟨a, rfl, h, rfl⟩

theorem Outcome.result_bind_of_ok {x : Outcome α} {f : α → Outcome β} {a : α}
    (h : x.result = .ok a) : (x >>= f).result = (f a).result := by
  obtain ⟨events, result⟩ := x
  cases h
  rfl

/-- What is said of a node that an alias replaces and that is ignored. -/
def clash : String := "is both aliased and ignored; the ignore rule wins"

/-- What is said of a field without a size. -/
def sizeless : String := "zero sized field is covered by the struct size only"

/- The reasons that name a type are told from the others by how they begin. -/
theorem unknownPrimitive_ne (type : String) {other : String} (h : other.toList.head? ≠ some 'u') :
    s!"unknown primitive is mapped by its size to '{type}'" ≠ other := by
  rintro rfl
  refine h ?_
  show ("unknown primitive is mapped by its size to '" ++ type ++ "'").toList.head? = _
  simp

theorem noConstantForm_ne (type : String) {other : String} (h : other.toList.head? ≠ some 'a') :
    s!"a constant of C type '{type}' has no C# constant form" ≠ other := by
  rintro rfl
  refine h ?_
  show ("a constant of C type '" ++ type ++ "' has no C# constant form").toList.head? = _
  simp

/-- What is said of a primitive that is narrowed. -/
def narrowing : String := "is narrowed to 'double'"

/-- What is said of a primitive that has no counterpart of its own. -/
inductive Unusual : String → String → Prop where
  | narrowed : Unusual "long double" narrowing
  | unknown {name : String} (type : String) (h : fixedPrimitives.lookup name = none) :
      Unusual name s!"unknown primitive is mapped by its size to '{type}'"

theorem Unusual.ne {name reason other : String} (h : Unusual name reason)
    (hother : other.toList.head? ≠ some 'u' ∧ narrowing ≠ other) : reason ≠ other := by
  cases h with
  | narrowed => exact hother.2
  | unknown type => exact unknownPrimitive_ne type hother.1

/-- What is said about a declaration that is mapped, and of what: what has no counterpart. -/
inductive Unmappable (node : Declaration) : String → String → Prop where
  | variadic {result : String} {parameters : List (Parameter String)} {convention : String}
      (h : node.body = .function result parameters true convention) :
      Unmappable node node.name "variadic functions cannot be bound with a static signature"
  | sizeless {isUnion : Bool} {fields : List (Field String Int)} {size align : Int}
      {f : Field String Int} (h : node.body = .record isUnion fields size align) (hf : f ∈ fields)
      (hsize : f.size = 0) : Unmappable node (node.name ++ "." ++ f.name) sizeless
  | constant {type value : String} (h : node.body = .constant type value) :
      Unmappable node node.name s!"a constant of C type '{type}' has no C# constant form"

theorem Unmappable.ne_clash {node : Declaration} {name reason : String}
    (h : Unmappable node name reason) : reason ≠ clash := by
  cases h with
  | variadic => decide
  | sizeless => decide
  | @constant type => exact noConstantForm_ne type (by decide)

/-- The sorts of events. -/
inductive Event.Arises (s : Setting) : Event → Prop where
  /-- Something about a node has no counterpart. -/
  | unmappable (name reason : String) (place : Option String) (h : reason ≠ clash) :
      Arises s (.report ⟨.unmappable name reason, place⟩)
  /-- A primitive is narrowed, or known by its size only. -/
  | unusual (name reason : String) (h : reason ≠ clash) :
      Arises s (.reportOnce name ⟨.unmappable name reason, none⟩)
  /-- An ignored type is used. -/
  | ignored {name : String} (reason : String) (h : s.policy.ignores name = true) :
      Arises s (.reportOnce name ⟨.ignoredTypeUsed name reason, none⟩)
  /-- An array of the tree needs a helper. -/
  | helper {d : Binding.Declaration} {node : Declaration} (h : d.kind = .fixedBuffer)
      (hnode : node ∈ s.tree.nodes) (harray : node.kind = .array)
      (horigin : d.origin = some node.name) : Arises s (.helper d)

/-- All events of the outcome are of these sorts. -/
def Expected (s : Setting) (x : Outcome α) : Prop := ∀ event ∈ x.events, event.Arises s

/-- All events of the outcome meet the condition. -/
def Every (allowed : Event → Prop) (x : Outcome α) : Prop := ∀ event ∈ x.events, allowed event

namespace Every

variable {allowed : Event → Prop} {x : Outcome α}

theorem pure (a : α) : Every allowed (pure a : Outcome α) := fun _ h => absurd h List.not_mem_nil

theorem stop (reason : Stop) : Every allowed (Outcome.stop reason : Outcome α) :=
  fun _ h => absurd h List.not_mem_nil

theorem ofExcept (x : Except Stop α) : Every allowed (Outcome.ofExcept x) :=
  fun _ h => absurd h List.not_mem_nil

theorem emit {event : Event} (h : allowed event) : Every allowed (Outcome.emit event) :=
  List.forall_mem_singleton.mpr h

theorem bind {f : α → Outcome β} (hx : Every allowed x)
    (hf : ∀ a, x.result = .ok a → Every allowed (f a)) : Every allowed (x >>= f) := by
  obtain ⟨events, result⟩ := x
  cases result with
  | error reason => exact hx
  | ok a => exact List.forall_mem_append.mpr ⟨hx, hf a rfl⟩

end Every

/-- The condition is met by the reports that the rules for types make, and by the helpers they ask for
when `use` gives the uses of elements. -/
structure AdmitsTypes (s : Setting) (use : String → Position → Outcome TypeUse)
    (allowed : Event → Prop) : Prop where
  unusual : ∀ name reason, Unusual name reason → s.policy.ignores name = false →
    allowed (.reportOnce name ⟨.unmappable name reason, none⟩)
  ignored : ∀ name reason, s.policy.ignores name = true →
    allowed (.reportOnce name ⟨.ignoredTypeUsed name reason, none⟩)
  helper : ∀ node ∈ s.tree.nodes, ∀ element count size inner,
    node.body = .array element count size → (elementUse use s element).result = .ok inner →
    (bufferTypes.contains inner.name && !inner.isFixedBuffer) = false →
    Every allowed (arrayHelper node.name inner count size)

/-- Besides, it is met by the reports that mapping the node makes. -/
structure Admits (s : Setting) (node : Declaration) (use : String → Position → Outcome TypeUse)
    (allowed : Event → Prop) : Prop extends AdmitsTypes s use allowed where
  unmappable : ∀ name reason, Unmappable node name reason →
    allowed (.report ⟨.unmappable name reason, some node.place⟩)

section

variable {s : Setting} {allowed : Event → Prop}

/-! ## Types -/

section

/- The rules keep to the condition if the uses they ask for do. -/
variable {use : String → Position → Outcome TypeUse}

theorem every_backing (huse : ∀ name position, Every allowed (use name position))
    (integerType : String) (values : List (Enumerator String Int)) :
    Every allowed (backing use integerType values) := by
  unfold backing
  split
  · exact huse _ _
  · exact .pure _

theorem every_elementUse (huse : ∀ name position, Every allowed (use name position))
    (name : String) : Every allowed (elementUse use s name) := by
  refine (huse name .field).bind fun element _ => (Every.ofExcept _).bind fun node _ => ?_
  split
  · split
    · refine (every_backing huse _ _).bind fun narrow _ => ?_
      split
      · exact huse _ _
      · exact .pure _
    · exact .pure _
  · exact .pure _

theorem every_named (huse : ∀ name position, Every allowed (use name position))
    (node : Declaration) (position : Position) : Every allowed (named use s node position) := by
  unfold named
  split
  · refine (huse _ _).bind fun inner _ => ?_
    split
    · exact .pure _
    · exact .pure _
  · exact .pure _
  · exact (Every.ofExcept _).bind fun _ _ => .pure _
  · exact .pure _
  · exact .pure _
  · exact .stop _

variable (admits : AdmitsTypes s use allowed)
include admits

theorem every_placeholder {name : String} (position : Position)
    (h : s.policy.ignores name = true) : Every allowed (placeholder s name position) :=
  (Every.emit (admits.ignored _ _ h)).bind fun _ _ => (Every.ofExcept _).bind fun _ _ => .pure _

theorem every_primitive {name : String} (size align : Int) (hignored : s.policy.ignores name = false) :
    Every allowed (primitive s name size align) := by
  unfold primitive
  split
  · exact .pure _
  · dsimp only
    split
    · split
      · rename_i hname
        subst hname
        exact (Every.emit (admits.unusual _ _ .narrowed hignored)).bind fun _ _ => .pure _
      · exact .pure _
    · rename_i hlookup
      split
      · exact .pure _
      · exact (Every.emit (admits.unusual _ _ (.unknown _ hlookup) hignored)).bind fun _ _ => .pure _

theorem every_structural? (huse : ∀ name position, Every allowed (use name position))
    {node : Declaration} (hnode : node ∈ s.tree.nodes) {position : Position}
    {outcome : Outcome TypeUse} (h : structural? use s node position = some outcome) :
    Every allowed outcome := by
  unfold structural? at h
  split at h
  · cases h
    split
    · exact every_placeholder admits position ‹_›
    · rename_i hignored
      split
      · exact .pure _
      · exact every_primitive admits _ _ (Bool.not_eq_true _ ▸ hignored)
  · cases h
    split
    · exact (every_placeholder admits .value ‹_›).bind fun _ _ => .pure _
    · exact (Every.ofExcept _).bind fun _ _ => (huse _ _).bind fun _ _ => .pure _
  · rename_i hbody
    cases h
    refine (every_elementUse huse _).bind fun inner hinner => ?_
    cases position with
    | value => exact .pure _
    | field =>
      dsimp only
      split
      · exact .pure _
      · rename_i hbuffer
        rw [Bool.not_eq_true] at hbuffer
        exact (admits.helper node hnode _ _ _ inner hbody hinner hbuffer).bind fun _ _ => .pure _
  · cases h

theorem every_nodeUse (huse : ∀ name position, Every allowed (use name position))
    {node : Declaration} (hnode : node ∈ s.tree.nodes) (position : Position) :
    Every allowed (nodeUse use s node position) := by
  unfold nodeUse
  split
  · exact every_structural? admits huse hnode ‹_›
  · split
    · exact every_placeholder admits position ‹_›
    · split
      · exact (Every.ofExcept _).bind fun _ _ => .pure _
      · exact every_named huse node position

end

/-- A node that is found is the one of that name in the tree. -/
theorem node_eq_ok {name : String} {node : Declaration} (h : s.node name = .ok node) :
    s.tree.node? name = some node := by
  unfold Setting.node at h
  split at h
  · rename_i hfound
    cases h
    exact hfound
  · cases h

section

variable (admits : ∀ steps ≤ s.tree.nodes.length, AdmitsTypes s (useWithin s steps) allowed)
include admits

theorem every_useWithin (steps : Nat) (hsteps : steps ≤ s.tree.nodes.length + 1) (name : String)
    (position : Position) : Every allowed (useWithin s steps name position) := by
  induction steps generalizing name position with
  | zero => exact .stop _
  | succ steps ih =>
    have hbelow : steps ≤ s.tree.nodes.length := Nat.le_of_succ_le_succ hsteps
    exact (Every.ofExcept _).bind fun node hnode => every_nodeUse (admits steps hbelow)
      (ih (Nat.le_succ_of_le hbelow)) (List.mem_of_find?_eq_some (node_eq_ok hnode)) position

theorem every_typeUse (name : String) (position : Position) :
    Every allowed (typeUse s name position) :=
  every_useWithin admits _ (Nat.le_refl _) name position

theorem every_parametersFrom (index : Nat) (parameters : List (Parameter String)) :
    Every allowed (parametersFrom s index parameters) := by
  induction parameters generalizing index with
  | nil => exact .pure _
  | cons p rest ih =>
    exact (every_typeUse admits _ _).bind fun _ _ => (ih (index + 1)).bind fun _ _ => .pure _

end

/-! ## Declarations -/

section

variable {node : Declaration}
variable (admits : ∀ steps ≤ s.tree.nodes.length, Admits s node (useWithin s steps) allowed)
include admits

theorem types_of_admits :
    ∀ steps ≤ s.tree.nodes.length, AdmitsTypes s (useWithin s steps) allowed :=
  fun steps hsteps => (admits steps hsteps).toAdmitsTypes

theorem every_reportUnmappable {name reason : String} (h : Unmappable node name reason) :
    Every allowed (reportUnmappable node name reason) :=
  .emit ((admits 0 (Nat.zero_le _)).unmappable name reason h)

theorem every_fieldsOf (padding : Field String Int → Int) (fields : List (Field String Int))
    (h : ∀ f ∈ fields, f.size = 0 → Unmappable node (node.name ++ "." ++ f.name) sizeless) :
    Every allowed (fieldsOf s node padding fields) := by
  have types := types_of_admits admits
  induction fields with
  | nil => exact .pure _
  | cons f rest ih =>
    rw [List.forall_mem_cons] at h
    unfold fieldsOf
    split
    · exact (every_reportUnmappable admits (h.1 ‹_›)).bind fun _ _ => ih h.2
    · exact (every_typeUse types _ _).bind fun _ _ => (ih h.2).bind fun _ _ => .pure _

/-- A constant, once its type is known. -/
theorem every_constantOf {type value : String} (hbody : node.body = .constant type value)
    (typeName : String) :
    Every allowed
      (match constantTypes.contains typeName, Macro.Expr.ofText? value with
        | true, some e =>
          match e.renderConstant typeName with
          | .ok text => return some (fromNode node "MacroDefinition" (.constant typeName text))
          | .error _ => Outcome.stop (.failed (.fault .literal))
        | _, _ => do
          reportUnmappable node node.name
            s!"a constant of C type '{type}' has no C# constant form"
          return none) := by
  split
  · split
    · exact .pure _
    · exact .stop _
  · exact (every_reportUnmappable admits (.constant hbody)).bind fun _ _ => .pure _

theorem every_constant? {type value : String} (hbody : node.body = .constant type value) :
    Every allowed (constant? s node type value) := by
  have types := types_of_admits admits
  refine (Every.ofExcept _).bind fun target _ => ?_
  split
  · exact every_constantOf admits hbody _
  · exact (every_typeUse types _ _).bind fun _ _ => every_constantOf admits hbody _

/-- Mapping a node gives rise to such events only. -/
theorem every_declaration? : Every allowed (declaration? s node) := by
  have types := types_of_admits admits
  unfold declaration?
  split
  · exact .pure _
  · exact .pure _
  · exact .pure _
  · exact .pure _
  · rename_i hbody
    split
    · rename_i hvariadic
      subst hvariadic
      exact (every_reportUnmappable admits (.variadic hbody)).bind fun _ _ => .pure _
    · exact (every_typeUse types _ _).bind fun _ _ =>
        (every_parametersFrom types _ _).bind fun _ _ => .pure _
  · exact (every_typeUse types _ _).bind fun _ _ =>
      (every_parametersFrom types _ _).bind fun _ _ => .pure _
  · rename_i hbody
    exact (every_fieldsOf admits _ _ fun f hf hsize => .sizeless hbody hf hsize).bind
      fun _ _ => .pure _
  · exact (every_backing (every_typeUse types) _ _).bind fun _ _ => .pure _
  · exact .pure _
  · exact (every_typeUse types _ _).bind fun _ _ => .pure _
  · exact (Every.ofExcept _).bind fun _ _ => (every_typeUse types _ _).bind fun _ _ => .pure _
  · exact every_constant? admits ‹_›

end

/-- The helper that is asked for bears the name that is given for it. -/
theorem every_arrayHelper {array : String} {element : TypeUse} {count size : Int}
    (h : ∀ name, (arrayHelper array element count size).result = .ok name →
      allowed (.helper
        ⟨name, .fixedBuffer element count size, "FixedBuffer @ " ++ array, some array⟩)) :
    Every allowed (arrayHelper array element count size) := by
  unfold arrayHelper at h ⊢
  dsimp only at h ⊢
  split
  · exact .stop _
  · rename_i name hname
    refine (Every.emit (h name ?_)).bind fun _ _ => .pure _
    rw [hname]
    rfl

/-- The rules give rise to the four sorts of events, whatever the uses of elements are. -/
theorem admits_arises (s : Setting) (node : Declaration)
    (use : String → Position → Outcome TypeUse) : Admits s node use (Event.Arises s) where
  unmappable name reason h := .unmappable name reason _ h.ne_clash
  unusual name reason h _ := .unusual name reason (h.ne (by decide))
  ignored name reason h := .ignored reason h
  helper node hnode element count size inner hbody _ _ := by
    have harray : node.kind = .array := by rw [Node.kind, hbody, Body.kind]
    exact every_arrayHelper fun _ _ => .helper rfl hnode harray rfl

theorem expected_declaration? (node : Declaration) : Expected s (declaration? s node) :=
  every_declaration? fun _ _ => admits_arises s node _

end

end CInterop.Mapping
