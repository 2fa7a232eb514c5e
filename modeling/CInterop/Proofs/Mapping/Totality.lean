import CInterop.Proofs.Macro.Rendering
import CInterop.Proofs.Mapping.Accounting
import CInterop.Proofs.Mapping.Closure
import CInterop.Proofs.Mapping.Size

/-!
# Mapping comes to an end

In a tree whose references lead to types without a cycle, every type has a use at every place and every
node is mapped to something, under every policy. What ends a run before the last node is the value of a
macro alone: a number that is written like an octal one without being one.

That there is a result is stated by `Yields`, with a rule for each way in which outcomes are combined. The
induction is on a rank of the types, which falls with each reference that a spelling follows.
-/

namespace CInterop.Mapping

open Header
open Binding (TypeUse fixedBufferName?)
open Macro (Expr)

/-! ## Outcomes with a result -/

/-- There is a result, and it meets the condition. -/
def Yields {α : Type} (x : Outcome α) (post : α → Prop) : Prop := ∃ a, x.result = .ok a ∧ post a

namespace Yields

variable {α β : Type} {post : α → Prop}

theorem pure {a : α} (h : post a) : Yields (pure a : Outcome α) post := ⟨a, rfl, h⟩

theorem ofExcept {x : Except Stop α} {a : α} (hx : x = .ok a) (h : post a) :
    Yields (Outcome.ofExcept x) post := ⟨a, hx, h⟩

theorem emit (event : Event) : Yields (Outcome.emit event) fun _ => True := ⟨(), rfl, trivial⟩

theorem bind {x : Outcome α} {f : α → Outcome β} {post' : β → Prop} (hx : Yields x post)
    (hf : ∀ a, post a → Yields (f a) post') : Yields (x >>= f) post' := by
  obtain ⟨a, ha, hpost⟩ := hx
  obtain ⟨b, hb, hpost'⟩ := hf a hpost
  exact ⟨b, (Outcome.result_bind_of_ok ha).trans hb, hpost'⟩

theorem mono {x : Outcome α} {post' : α → Prop} (hx : Yields x post) (h : ∀ a, post a → post' a) :
    Yields x post' := by
  obtain ⟨a, ha, hpost⟩ := hx
  exact ⟨a, ha, h a hpost⟩

end Yields

/-- There is a result. -/
abbrev Ends {α : Type} (x : Outcome α) : Prop := Yields x fun _ => True

theorem Ends.ofExcept {α : Type} {x : Except Stop α} {a : α} (hx : x = .ok a) :
    Ends (Outcome.ofExcept x) := ⟨a, hx, trivial⟩

/-- The number of elements of every array has a name in words. -/
def CountsNamed (t : Declarations) : Prop :=
  ∀ node ∈ t.nodes, ∀ element count size, node.body = .array element count size →
    count.natAbs < 1000 ^ 102

/-- The number of elements of an array. -/
def elementCount? : Body String Int Bool → Option Int
  | .array _ count _ => some count
  | _ => none

theorem countsNamed_of_counts {t : Declarations}
    (h : ∀ node ∈ t.nodes, ∀ count ∈ elementCount? node.body, count.natAbs < 1000 ^ 102) :
    CountsNamed t :=
  fun node hnode element count size hbody => h node hnode count (by rw [hbody]; rfl)

/-! ## Sizes -/

section

variable {s : Setting} {name : String}

/-- With more steps than the rank of a type, its size is found. -/
theorem sizeWithin_ends (closed : Closed s.tree) {rank : String → Nat}
    (hrank : ∀ name next, Follows s.tree name next → rank next < rank name) (steps links : Nat)
    (htype : s.tree.hasType name = true) (hsteps : rank name < steps) :
    ∃ size, s.sizeWithin steps links name = .ok size := by
  induction steps generalizing links name with
  | zero => cases hsteps
  | succ steps ih =>
    obtain ⟨node, hok, hnode, -⟩ := node_of_hasType htype
    -- both sorts of links lead to a type of lower rank
    have hnext (next : String) (hover : spelledOver? node.body = some next) (links : Nat) :
        ∃ size, s.sizeWithin steps links next = .ok size := by
      have hlower := hrank name next ⟨node, hnode, hover⟩
      exact ih links (closed node (node?_mem hnode) next (mem_references_of_spelledOver? hover))
        (Nat.lt_of_lt_of_le hlower (Nat.le_of_lt_succ hsteps))
    unfold Setting.sizeWithin
    rw [hok]
    dsimp only [bind, Except.bind]
    split
    · rename_i hbody
      split
      · exact hnext _ (by rw [hbody]; rfl) _
      · exact ⟨0, rfl⟩
    · rename_i hbody
      exact hnext _ (by rw [hbody]; rfl) _
    · exact ⟨_, rfl⟩

theorem exists_sizeOf (closed : Closed s.tree) (acyclic : Acyclic s.tree)
    (htype : s.tree.hasType name = true) : ∃ size, s.sizeOf name = .ok size := by
  obtain ⟨rank, hle, hrank⟩ := exists_rank acyclic
  have hname := hle name
  exact sizeWithin_ends closed hrank _ 0 htype (by omega)

end

/-! ## Uses of types -/

section

variable {s : Setting} {name : String} {node : Declaration}

theorem ends_placeholder {size : Int} (position : Position) (hsize : s.sizeOf name = .ok size) :
    Ends (placeholder s name position) :=
  (Yields.emit _).bind fun _ _ => (Ends.ofExcept hsize).bind fun _ _ => .pure trivial

theorem ends_primitive (size align : Int) : Ends (primitive s name size align) := by
  unfold primitive
  split
  · exact .pure trivial
  · dsimp only
    split
    · split
      · exact (Yields.emit _).bind fun _ _ => .pure trivial
      · exact .pure trivial
    · split
      · exact .pure trivial
      · exact (Yields.emit _).bind fun _ _ => .pure trivial

/-- A helper has a name if the count is not too large. -/
theorem ends_arrayHelper (array : String) (element : TypeUse) {count : Int} (size : Int)
    (hcount : count.natAbs < 1000 ^ 102) : Ends (arrayHelper array element count size) := by
  have hlimit : count.natAbs < Nat.pow 1000 102 := hcount
  have hname (label : String) : ∃ name, fixedBufferName? label count = some name := by
    rw [fixedBufferName?, EnglishWords.cardinal?, if_pos hlimit]
    exact ⟨_, rfl⟩
  unfold arrayHelper
  dsimp only
  split
  · rename_i hnone
    obtain ⟨name, hsome⟩ := hname _
    exact absurd (hsome.symm.trans hnone) (Option.some_ne_none name)
  · exact (Yields.emit _).bind fun _ _ => .pure trivial

end

section

/- All uses below a bound on the rank are there. -/
variable {s : Setting} {use : String → Position → Outcome TypeUse} {rank : String → Nat} {bound : Nat}
  {name : String} {node : Declaration}

/-- Everything that the rules depend on. -/
structure Below (s : Setting) (use : String → Position → Outcome TypeUse) (rank : String → Nat)
    (bound : Nat) : Prop where
  closed : Closed s.tree
  acyclic : Acyclic s.tree
  counts : CountsNamed s.tree
  descends : ∀ name next, Follows s.tree name next → rank next < rank name
  uses : ∀ name position, s.tree.hasType name = true → rank name < bound → Ends (use name position)

/-- What a type is spelled over is a type of lower rank. -/
theorem Below.next {body : Body String Int Bool} {next : String} (below : Below s use rank bound)
    (hnode : s.tree.node? name = some node) (hbody : node.body = body) (hbound : rank name ≤ bound)
    (hnext : spelledOver? body = some next) : s.tree.hasType next = true ∧ rank next < bound := by
  subst hbody
  exact ⟨below.closed node (node?_mem hnode) next (mem_references_of_spelledOver? hnext),
    Nat.lt_of_lt_of_le (below.descends name next ⟨node, hnode, hnext⟩) hbound⟩

theorem ends_backing {integerType : String} (values : List (Enumerator String Int))
    (huse : Ends (use integerType .value)) : Ends (backing use integerType values) := by
  unfold backing
  split
  · exact huse
  · exact .pure trivial

theorem ends_elementUse (below : Below s use rank bound) (htype : s.tree.hasType name = true)
    (hbound : rank name < bound) : Ends (elementUse use s name) := by
  obtain ⟨node, hok, hnode, -⟩ := node_of_hasType htype
  refine (below.uses name .field htype hbound).bind fun element _ =>
    (Yields.ofExcept hok rfl).bind ?_
  rintro _ rfl
  split
  · rename_i integerType values hbody
    obtain ⟨hinteger, hlower⟩ := below.next hnode hbody hbound.le rfl
    split
    · refine (ends_backing values (below.uses _ _ hinteger hlower)).bind fun narrow _ => ?_
      split
      · exact below.uses _ _ hinteger hlower
      · exact .pure trivial
    · exact .pure trivial
  · exact .pure trivial

theorem ends_structural? (below : Below s use rank bound) {position : Position}
    {outcome : Outcome TypeUse} (hnode : s.tree.node? name = some node) (hbound : rank name ≤ bound)
    (h : structural? use s node position = some outcome) : Ends outcome := by
  unfold structural? at h
  split at h
  · rename_i size align hbody
    cases h
    split
    · have htype : s.tree.hasType name = true :=
        hasType_iff.mpr ⟨node, hnode, by rw [Node.kind, hbody]; rfl⟩
      obtain ⟨stated, hsize⟩ := exists_sizeOf below.closed below.acyclic htype
      rw [node?_name hnode]
      exact ends_placeholder position hsize
    · split
      · exact .pure trivial
      · exact ends_primitive size align
  · rename_i pointee size hbody
    obtain ⟨htype, hlower⟩ := below.next hnode hbody hbound rfl
    obtain ⟨target, hok, -, -⟩ := node_of_hasType htype
    cases h
    split
    · obtain ⟨stated, hsize⟩ := exists_sizeOf below.closed below.acyclic htype
      exact (ends_placeholder .value hsize).bind fun _ _ => .pure trivial
    · exact (Ends.ofExcept hok).bind fun _ _ => (below.uses _ _ htype hlower).bind fun _ _ =>
        .pure trivial
  · rename_i element count size hbody
    obtain ⟨htype, hlower⟩ := below.next hnode hbody hbound rfl
    have hcount := below.counts node (node?_mem hnode) _ _ _ hbody
    cases h
    refine (ends_elementUse below htype hlower).bind fun inner _ => ?_
    cases position with
    | value => exact .pure trivial
    | field =>
      dsimp only
      split
      · exact .pure trivial
      · exact (ends_arrayHelper _ inner size hcount).bind fun _ _ => .pure trivial
  · cases h

theorem ends_named (below : Below s use rank bound) (position : Position)
    (hnode : s.tree.node? name = some node) (hkind : node.kind.isType = true)
    (hstructural : structural? use s node position = none) (hbound : rank name ≤ bound) :
    Ends (named use s node position) := by
  unfold named
  split
  · rename_i underlying hbody
    obtain ⟨htype, hlower⟩ := below.next hnode hbody hbound rfl
    refine (below.uses underlying position htype hlower).bind fun inner _ => ?_
    split
    · exact .pure trivial
    · exact .pure trivial
  · exact .pure trivial
  · have htype : s.tree.hasType name = true := hasType_iff.mpr ⟨node, hnode, hkind⟩
    obtain ⟨size, hsize⟩ := exists_sizeOf below.closed below.acyclic htype
    rw [node?_name hnode]
    exact (Ends.ofExcept hsize).bind fun _ _ => .pure trivial
  · exact .pure trivial
  · exact .pure trivial
  · exfalso
    rw [Node.kind] at hkind
    unfold structural? at hstructural
    cases hbody : node.body <;> grind [Body.kind, Kind.isType]

theorem ends_nodeUse (below : Below s use rank bound) (position : Position)
    (hnode : s.tree.node? name = some node) (hkind : node.kind.isType = true)
    (hbound : rank name ≤ bound) : Ends (nodeUse use s node position) := by
  have htype : s.tree.hasType name = true := hasType_iff.mpr ⟨node, hnode, hkind⟩
  obtain ⟨size, hsize⟩ := exists_sizeOf below.closed below.acyclic htype
  unfold nodeUse
  split
  · exact ends_structural? below hnode hbound ‹_›
  · rename_i hstructural
    rw [node?_name hnode]
    split
    · exact ends_placeholder position hsize
    · split
      · exact (Ends.ofExcept hsize).bind fun _ _ => .pure trivial
      · exact ends_named below position hnode hkind hstructural hbound

end

section

variable {s : Setting} (closed : Closed s.tree) (acyclic : Acyclic s.tree) (counts : CountsNamed s.tree)
include closed acyclic counts

/-- With more steps than its rank, every type has a use. -/
theorem ends_useWithin {rank : String → Nat}
    (hrank : ∀ name next, Follows s.tree name next → rank next < rank name) (steps : Nat)
    (name : String) (position : Position) (htype : s.tree.hasType name = true)
    (hsteps : rank name < steps) : Ends (useWithin s steps name position) := by
  induction steps generalizing name position with
  | zero => cases hsteps
  | succ steps ih =>
    have below : Below s (useWithin s steps) rank steps :=
      ⟨closed, acyclic, counts, hrank, fun name position => ih name position⟩
    obtain ⟨node, hok, hnode, hkind⟩ := node_of_hasType htype
    refine (Yields.ofExcept hok rfl).bind ?_
    rintro _ rfl
    exact ends_nodeUse below position hnode hkind (Nat.le_of_lt_succ hsteps)

theorem ends_typeUse {name : String} (position : Position) (htype : s.tree.hasType name = true) :
    Ends (typeUse s name position) := by
  obtain ⟨rank, hle, hrank⟩ := exists_rank acyclic
  exact ends_useWithin closed acyclic counts hrank _ name position htype
    (Nat.lt_succ_of_le (hle name))

end

/-! ## Declarations -/

/-- Every number in the value of the macro, if the node is one, has a counterpart. -/
def ValueWritable (node : Declaration) : Prop :=
  ∀ type value e, node.body = .constant type value → Expr.ofText? value = some e → e.Writable

/-- There is a result, or the node is a macro whose value cannot be written. -/
def EndsAtLiteral {α : Type} (node : Declaration) (x : Outcome α) : Prop :=
  Ends x ∨ (x.result = .error (.failed (.fault .literal)) ∧ ¬ValueWritable node)

theorem EndsAtLiteral.bind {α β : Type} {node : Declaration} {x : Outcome α} {f : α → Outcome β}
    (hx : Ends x) (hf : ∀ a, EndsAtLiteral node (f a)) : EndsAtLiteral node (x >>= f) := by
  obtain ⟨a, ha, -⟩ := hx
  unfold EndsAtLiteral Ends Yields
  rw [Outcome.result_bind_of_ok ha]
  exact hf a

theorem endsAtLiteral_constantOf {node : Declaration} {type value : String} (typeName : String)
    (hbody : node.body = .constant type value) :
    EndsAtLiteral node
      (match constantTypes.contains typeName, Expr.ofText? value with
        | true, some e =>
          match e.renderConstant typeName with
          | .ok text => return some (fromNode node "MacroDefinition" (.constant typeName text))
          | .error _ => Outcome.stop (.failed (.fault .literal))
        | _, _ => do
          reportUnmappable node node.name
            s!"a constant of C type '{type}' has no C# constant form"
          return none) := by
  split
  · rename_i e _ hread
    split
    · exact .inl (.pure trivial)
    · rename_i error herror
      refine .inr ⟨rfl, fun hwritable => ?_⟩
      obtain ⟨text, hrender⟩ :=
        Expr.exists_renderConstant typeName (hwritable type value e hbody hread)
      rw [hrender] at herror
      cases herror
  · exact .inl ((Yields.emit _).bind fun _ _ => .pure trivial)

section

variable {s : Setting} (closed : Closed s.tree) (acyclic : Acyclic s.tree) (counts : CountsNamed s.tree)
include closed acyclic counts

theorem ends_parametersFrom (index : Nat) (parameters : List (Parameter String))
    (h : ∀ name ∈ parameters.map (·.type), s.tree.hasType name = true) :
    Ends (parametersFrom s index parameters) := by
  induction parameters generalizing index with
  | nil => exact .pure trivial
  | cons p rest ih =>
    rw [List.map_cons, List.forall_mem_cons] at h
    exact (ends_typeUse closed acyclic counts .value h.1).bind fun _ _ =>
      (ih (index + 1) h.2).bind fun _ _ => .pure trivial

theorem ends_fieldsOf (node : Declaration) (padding : Field String Int → Int)
    (fields : List (Field String Int))
    (h : ∀ name ∈ fields.map (·.type), s.tree.hasType name = true) :
    Ends (fieldsOf s node padding fields) := by
  induction fields with
  | nil => exact .pure trivial
  | cons f rest ih =>
    rw [List.map_cons, List.forall_mem_cons] at h
    unfold fieldsOf
    split
    · exact (Yields.emit _).bind fun _ _ => ih h.2
    · exact (ends_typeUse closed acyclic counts .field h.1).bind fun _ _ =>
        (ih h.2).bind fun _ _ => .pure trivial

theorem ends_signature {result : String} {parameters : List (Parameter String)} {α : Type}
    (f : TypeUse → List Binding.Parameter → α)
    (h : ∀ name ∈ result :: parameters.map (·.type), s.tree.hasType name = true) :
    Ends (do
      let type ← typeUse s result .value
      let others ← parametersFrom s 0 parameters
      return f type others) := by
  rw [List.forall_mem_cons] at h
  exact (ends_typeUse closed acyclic counts .value h.1).bind fun _ _ =>
    (ends_parametersFrom closed acyclic counts 0 parameters h.2).bind fun _ _ => .pure trivial

theorem endsAtLiteral_constant? {node : Declaration} {type value : String}
    (hbody : node.body = .constant type value) (htype : s.tree.hasType type = true) :
    EndsAtLiteral node (constant? s node type value) := by
  obtain ⟨target, hok, -, -⟩ := node_of_hasType htype
  refine .bind (Ends.ofExcept hok) fun _ => ?_
  split
  · exact endsAtLiteral_constantOf _ hbody
  · exact .bind (ends_typeUse closed acyclic counts .value htype) fun u =>
      endsAtLiteral_constantOf u.name hbody

/-- Mapping a node ends with a declaration or without one, unless the node is a macro whose value cannot
be written. -/
theorem endsAtLiteral_declaration? {node : Declaration} (hnode : node ∈ s.tree.nodes) :
    EndsAtLiteral node (declaration? s node) := by
  have hrefs := closed node hnode
  unfold declaration?
  cases hbody : node.body with
  | primitive | pointer | array | enumerator | incomplete => exact .inl (.pure trivial)
  | function result parameters isVariadic convention =>
    rw [hbody] at hrefs
    dsimp only
    split
    · exact .inl ((Yields.emit _).bind fun _ _ => .pure trivial)
    · exact .inl (ends_signature closed acyclic counts _ hrefs)
  | functionPointer result parameters size =>
    rw [hbody] at hrefs
    exact .inl (ends_signature closed acyclic counts _ hrefs)
  | record isUnion fields size align =>
    rw [hbody] at hrefs
    exact .inl ((ends_fieldsOf closed acyclic counts node _ fields hrefs).bind fun _ _ =>
      .pure trivial)
  | enumeration integerType values =>
    rw [hbody] at hrefs
    have htype := hrefs integerType (List.mem_singleton.mpr rfl)
    have hbacking := ends_backing values (ends_typeUse closed acyclic counts .value htype)
    exact .inl (hbacking.bind fun _ _ => .pure trivial)
  | typedef underlying =>
    rw [hbody] at hrefs
    have htype := hrefs underlying (List.mem_singleton.mpr rfl)
    exact .inl ((ends_typeUse closed acyclic counts .field htype).bind fun _ _ => .pure trivial)
  | global type =>
    rw [hbody] at hrefs
    have htype := hrefs type (List.mem_singleton.mpr rfl)
    obtain ⟨target, hok, htarget, -⟩ := node_of_hasType htype
    refine .inl ((Yields.ofExcept hok rfl).bind ?_)
    rintro _ rfl
    have hexposed := hasType_exposed closed htarget htype
    exact (ends_typeUse closed acyclic counts .value hexposed).bind fun _ _ => .pure trivial
  | constant type value =>
    rw [hbody] at hrefs
    exact endsAtLiteral_constant? closed acyclic counts hbody
      (hrefs type (List.mem_singleton.mpr rfl))

/-! ## One node after the other -/

/-- A step goes on to the next node, unless it comes to a macro whose value cannot be written. -/
theorem step_ends {node : Declaration} (hnode : node ∈ s.tree.nodes) (p : Progress) :
    (step s p node).2 = none ∨ ((step s p node).2 = some (.fault .literal) ∧
      isMapped s node = true ∧ ¬ValueWritable node) := by
  cases hmapped : isMapped s node with
  | false =>
    obtain ⟨next, hnext, -⟩ := step_of_not_mapped hmapped p
    rw [hnext]
    exact .inl rfl
  | true =>
    rw [step_of_mapped hmapped]
    rcases endsAtLiteral_declaration? closed acyclic counts hnode with
      ⟨declaration, hresult, -⟩ | ⟨hresult, hwritable⟩
    · rw [hresult]
      exact .inl rfl
    · rw [hresult]
      exact .inr ⟨rfl, rfl, hwritable⟩

theorem steps_end (nodes : List Declaration) (hnodes : nodes ⊆ s.tree.nodes) (p : Progress) :
    (steps s p nodes).2 = none ∨ ((steps s p nodes).2 = some (.fault .literal) ∧
      ∃ node ∈ nodes, isMapped s node = true ∧ ¬ValueWritable node) := by
  induction nodes generalizing p with
  | nil => exact .inl rfl
  | cons node rest ih =>
    rw [List.cons_subset] at hnodes
    have hstep := step_ends closed acyclic counts hnodes.1 p
    unfold steps
    generalize step s p node = reached at hstep ⊢
    obtain ⟨p', failure⟩ := reached
    rcases hstep with hnone | ⟨hfailed, hmapped, hwritable⟩
    · obtain rfl : failure = none := hnone
      refine (ih hnodes.2 p').imp_right ?_
      rintro ⟨hfailed, other, hother, hreason⟩
      exact ⟨hfailed, other, List.mem_cons_of_mem _ hother, hreason⟩
    · obtain rfl : failure = some (.fault .literal) := hfailed
      exact .inr ⟨rfl, node, List.mem_cons_self .., hmapped, hwritable⟩

/-- A run has a binding, or a macro has a value that cannot be written. -/
theorem run_ends : (∃ b, (run s).bindings = .ok b) ∨ ((run s).bindings = .error (.fault .literal) ∧
    ∃ node ∈ s.tree.nodes, isMapped s node = true ∧ ¬ValueWritable node) := by
  unfold run
  dsimp only
  generalize (if s.bitness ≠ s.tree.bitness then
    Progress.report {} ⟨.bitnessMismatch s.tree.bitness s.bitness, none⟩ else {}) = start
  have hsteps := steps_end closed acyclic counts s.tree.nodes (List.Subset.refl _) start
  generalize steps s start s.tree.nodes = reached at hsteps ⊢
  obtain ⟨p, failure⟩ := reached
  rcases hsteps with hnone | ⟨hfailed, hreason⟩
  · obtain rfl : failure = none := hnone
    exact .inl ⟨_, rfl⟩
  · obtain rfl : failure = some (.fault .literal) := hfailed
    exact .inr ⟨rfl, hreason⟩

/-- A node that is mapped is declared, names `void`, or is reported to have no counterpart: no type is
missing. -/
theorem declared_or_reported {b : Binding.Bindings} {node : Declaration}
    (hrun : (run s).bindings = .ok b) (hnode : node ∈ s.tree.nodes)
    (hmapped : isMapped s node = true) :
    (∃ d ∈ b.declarations, StandsFor d node) ∨ NamesVoid s node ∨
      ∃ d ∈ (run s).diagnostics, d.isUnmappable node.name = true := by
  rcases declared?_or_missing? hrun hnode hmapped with
    ⟨hsome, -⟩ | ⟨-, hsome⟩ | ⟨-, -, hvoid | ⟨-, hreported⟩⟩
  · obtain ⟨d, hd⟩ := Option.isSome_iff_exists.mp hsome
    have hmem : d ∈ b.ofNodes := by
      rw [ofNodes_run hrun]
      exact List.mem_filterMap.mpr ⟨node, hnode, hd⟩
    exact .inl ⟨d, List.mem_of_mem_filter hmem, standsFor_of_declared? hd⟩
  · -- the outcome has a result or stops at a literal
    rw [missing?, if_pos hmapped] at hsome
    rcases endsAtLiteral_declaration? closed acyclic counts hnode with ⟨_, hresult, -⟩ | ⟨hresult, -⟩ <;>
      rw [hresult] at hsome <;> cases hsome
  · exact .inr (.inl hvoid)
  · exact .inr (.inr hreported)

end

/-- No declaration ends a run. In a tree without dangling references and without a cycle whose counts have
names, there is a binding if every number in a macro has a counterpart, and every node that is neither
spelled where it is used, ignored nor replaced is declared, names `void` or is reported. Otherwise it is
such a number that ends the run, and nothing else. -/
theorem run_total {s : Setting} (hclosed : s.tree.danglingReferences = []) (acyclic : Acyclic s.tree)
    (counts : CountsNamed s.tree) :
    ((∀ node ∈ s.tree.nodes, isMapped s node = true → ValueWritable node) →
      ∃ b, (run s).bindings = .ok b ∧ ∀ node ∈ s.tree.nodes, isMapped s node = true →
        (∃ d ∈ b.declarations, StandsFor d node) ∨ NamesVoid s node ∨
          ∃ d ∈ (run s).diagnostics, d.isUnmappable node.name = true) ∧
    ∀ failure, (run s).bindings = .error failure → failure = .fault .literal := by
  have closed := closed_of_danglingReferences hclosed
  have hends := run_ends closed acyclic counts
  constructor
  · intro hwritable
    rcases hends with ⟨b, hrun⟩ | ⟨-, node, hnode, hmapped, hnot⟩
    · exact ⟨b, hrun, fun node hnode hmapped =>
        declared_or_reported closed acyclic counts hrun hnode hmapped⟩
    · exact absurd (hwritable node hnode hmapped) hnot
  · intro failure hfailure
    rcases hends with ⟨b, hrun⟩ | ⟨hfault, -⟩
    · rw [hrun] at hfailure
      cases hfailure
    · rw [hfault] at hfailure
      exact (Except.error.inj hfailure).symm

/-- A typedef at no place. -/
def typedefNode (name underlying : String) : Declaration where
  name := name
  body := .typedef underlying

/-- A tree of odd things: a primitive of three bytes, an array of pointers with a count below zero, an
enumeration that is ignored and one without values, a field without a size, a typedef of `void`, and macros
of which only one has a value that can be read. -/
def oddSample : Setting where
  tree := ⟨"odd.h", 32, [
    ⟨"int", .primitive 4 4, none⟩,
    ⟨"void", .primitive 0 0, none⟩,
    ⟨"triple", .primitive 3 0, none⟩,
    typedefNode "nothing" "void",
    ⟨"mode", .enumeration "int" [⟨"FAR", 18446744073709551616, none⟩], none⟩,
    ⟨"empty", .enumeration "triple" [], none⟩,
    ⟨"mode*", .pointer "mode" 8, none⟩,
    ⟨"mode*[]", .array "mode*" (-3) 0, none⟩,
    ⟨"bag", .record true [⟨"modes", "mode*[]", -4, 7⟩, ⟨"gap", "triple", 0, 0⟩, ⟨"kind", "empty", 0, 3⟩]
      (-1) 0, none⟩,
    ⟨"report", .function "nothing" [⟨"", "mode"⟩] true "cdecl", none⟩,
    ⟨"LIMIT", .constant "int" "-(017 + 0x9u)", none⟩,
    ⟨"CAST", .constant "int" "(char) 09", none⟩,
    ⟨"BAG", .constant "bag" "1", none⟩]⟩
  policy := ⟨"Odd", [⟨"triple", "Triple"⟩, ⟨"mode", "Mode"⟩], ["mode"], some 64⟩

theorem acyclic_oddSample : Acyclic oddSample.tree := by
  have hordered : ∀ node ∈ oddSample.tree.nodes, ∀ next ∈ spelledOver? node.body,
      oddSample.tree.names.idxOf next < oddSample.tree.names.idxOf node.name := by decide +kernel
  exact acyclic_of_rank hordered

theorem countsNamed_oddSample : CountsNamed oddSample.tree :=
  countsNamed_of_counts (by decide +kernel)

theorem valueWritable_oddSample : ∀ node ∈ oddSample.tree.nodes, ValueWritable node := by
  have hnumbers : oddSample.tree.nodes.all (fun node => match node.body with
      | .constant _ value => match Expr.ofText? value with
        | some e => e.leaves.all fun leaf =>
            leaf.kind ≠ .number || (Macro.Literal.convert leaf.text true).isOk
        | none => true
      | _ => true) = true := by
    decide +kernel
  intro node hnode type value e hbody hread number hnumber
  have hvalue := List.all_eq_true.mp hnumbers node hnode
  rw [hbody] at hvalue
  dsimp only at hvalue
  rw [hread] at hvalue
  have hleaf := List.all_eq_true.mp hvalue _ hnumber
  cases hconvert : Macro.Literal.convert number true with
  | ok form => exact ⟨form, rfl⟩
  | error error =>
    rw [hconvert] at hleaf
    cases hleaf

theorem run_total_oddSample :
    oddSample.tree.danglingReferences = [] ∧ Acyclic oddSample.tree ∧ CountsNamed oddSample.tree ∧
    (∀ node ∈ oddSample.tree.nodes, isMapped oddSample node = true → ValueWritable node) ∧
    ∃ b, (run oddSample).bindings = .ok b ∧
      b.declarations.map (·.name) = ["empty", "FixedBuffer_VoidPtr_minus_three", "bag", "LIMIT"] ∧
      ∀ node ∈ oddSample.tree.nodes, isMapped oddSample node = true →
        (∃ d ∈ b.declarations, StandsFor d node) ∨ NamesVoid oddSample node ∨
          ∃ d ∈ (run oddSample).diagnostics, d.isUnmappable node.name = true := by
  have hclosed : oddSample.tree.danglingReferences = [] := by decide +kernel
  have hwritable : ∀ node ∈ oddSample.tree.nodes, isMapped oddSample node = true → ValueWritable node :=
    fun node hnode _ => valueWritable_oddSample node hnode
  have hnames : (run oddSample).bindings.toOption.map (·.declarations.map (·.name)) =
      some ["empty", "FixedBuffer_VoidPtr_minus_three", "bag", "LIMIT"] := by decide +kernel
  obtain ⟨b, hrun, hreported⟩ := (run_total hclosed acyclic_oddSample countsNamed_oddSample).1 hwritable
  rw [hrun] at hnames
  exact ⟨hclosed, acyclic_oddSample, countsNamed_oddSample, hwritable, b, hrun, Option.some.inj hnames,
    hreported⟩

end CInterop.Mapping
