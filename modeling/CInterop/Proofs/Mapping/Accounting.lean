import Mathlib.Data.List.Forall2
import Mathlib.Data.List.Nodup
import CInterop.Proofs.Mapping.Events

/-!
# Every node is accounted for

A run declares its nodes one by one: apart from helpers, the binding lists what each node is mapped to,
in the order of the nodes, and the missing types reported are those that kept a node from being
mapped. So no node is lost, doubled or moved, and a node that is left out is reported.
-/

namespace CInterop

/-- Whether the diagnostic reports that a declaration refers to a missing type. -/
def Diagnostic.isDangling (d : Diagnostic) : Bool :=
  match d.cause with
  | .danglingType .. => true
  | _ => false

/-- Whether the diagnostic reports that the declaration of that name refers to a missing type. -/
def Diagnostic.isDanglingOf (name : String) (d : Diagnostic) : Bool :=
  match d.cause with
  | .danglingType _ declaration => declaration = name
  | _ => false

/-- Whether the diagnostic reports that the thing of that name has no counterpart. -/
def Diagnostic.isUnmappable (name : String) (d : Diagnostic) : Bool :=
  match d.cause with
  | .unmappable other _ => other = name
  | _ => false

/-- The declarations that stand for a node, which helpers do not. -/
def Binding.Bindings.ofNodes (b : Binding.Bindings) : List Binding.Declaration :=
  b.declarations.filter (·.kind ≠ .fixedBuffer)

namespace Mapping

open Header
open Binding (escape)

/-! ## What a node is mapped to -/

/-- Whether the node is mapped at all: it is not spelled where it is used, ignored or replaced. -/
def isMapped (s : Setting) (node : Declaration) : Bool :=
  !isInline node && !s.policy.ignores node.name && (s.policy.aliasFor? node.name).isNone

/-- The declaration for a node, if there is one. -/
def declared? (s : Setting) (node : Declaration) : Option Binding.Declaration :=
  if isMapped s node then (declaration? s node).result.toOption.join else none

/-- The report that a node refers to a missing type, if it does. -/
def missing? (s : Setting) (node : Declaration) : Option Diagnostic :=
  if isMapped s node then
    match (declaration? s node).result with
    | .error (.dangling type) => some ⟨.danglingType type node.name, some node.place⟩
    | _ => none
  else none

/-- The sort of declaration that a node of this kind has. -/
def bindingKind? : Header.Kind → Option Binding.Kind
  | .function => some .function
  | .functionPointer => some .functionPointer
  | .record => some .struct
  | .enumeration => some .enumeration
  | .incomplete => some .incomplete
  | .typedef => some .aliasStruct
  | .global => some .global
  | .constant => some .constant
  | .translationUnit | .primitive | .pointer | .array | .enumerator => none

/-- The declaration comes from the node, bears its name and is of the sort that belongs to it. -/
structure StandsFor (d : Binding.Declaration) (node : Declaration) : Prop where
  origin : d.origin = some node.name
  name : d.name = escape node.name
  kind : bindingKind? node.kind = some d.kind

theorem StandsFor.kind_ne {d : Binding.Declaration} {node : Declaration} (h : StandsFor d node) :
    d.kind ≠ .fixedBuffer := by
  intro hkind
  have hnode := h.kind
  rw [hkind] at hnode
  unfold bindingKind? at hnode
  split at hnode <;> cases hnode

/-! ## The result for one node -/

section

variable {s : Setting} {node : Declaration}

/-- The node is a typedef of a type that is spelled `void`. -/
def NamesVoid (s : Setting) (node : Declaration) : Prop :=
  ∃ underlying use, node.body = .typedef underlying ∧
    (typeUse s underlying .field).result = .ok use ∧ use.name = "void"

/-- The node is a function that takes any number of arguments. -/
def IsVariadic (node : Declaration) : Prop :=
  ∃ result parameters convention, node.body = .function result parameters true convention

/-- Whether a node of this body has a declaration, if its types are there and it does not name
`void`. -/
def isDeclarable (node : Declaration) : Bool :=
  match node.body with
  | .record .. | .enumeration .. | .incomplete | .functionPointer .. | .global _ | .typedef _ => true
  | .function _ _ isVariadic _ => !isVariadic
  | _ => false

theorem isInline_of_isDeclarable (h : isDeclarable node = true) : isInline node = false := by
  have hkind : node.kind = node.body.kind := rfl
  unfold isDeclarable at h
  unfold isInline
  cases hbody : node.body <;> rw [hbody] at h hkind <;> simp_all [Body.kind]

/-- It is reported that the node has no counterpart. -/
def IsReported (node : Declaration) (events : List Event) : Prop :=
  ∃ d, .report d ∈ events ∧ d.isUnmappable node.name = true

/-- What comes of a node, with the events before it: a declaration that stands for the node, or nothing
for a reason. -/
structure Explained (s : Setting) (node : Declaration) (declaration : Option Binding.Declaration)
    (events : List Event) : Prop where
  stands : ∀ d, declaration = some d → StandsFor d node
  omitted : declaration = none → isInline node = true ∨ NamesVoid s node ∨
    (isDeclarable node = false ∧ IsReported node events)

theorem Explained.none {events : List Event} (h : isInline node = true ∨ NamesVoid s node ∨
    (isDeclarable node = false ∧ IsReported node events)) : Explained s node none events where
  stands _ hd := by cases hd
  omitted _ := h

theorem Explained.append {declaration : Option Binding.Declaration} {events : List Event}
    (h : Explained s node declaration events) (before : List Event) :
    Explained s node declaration (before ++ events) := by
  refine ⟨h.stands, fun hnone => ?_⟩
  rcases h.omitted hnone with hinline | hvoid | ⟨hkind, d, hd, hname⟩
  · exact .inl hinline
  · exact .inr (.inl hvoid)
  · exact .inr (.inr ⟨hkind, d, List.mem_append_right _ hd, hname⟩)

/-- Whatever the outcome is, it is explained. -/
def Explains (s : Setting) (node : Declaration) (x : Outcome (Option Binding.Declaration)) : Prop :=
  ∀ declaration, x.result = .ok declaration → Explained s node declaration x.events

theorem Explains.bind {α : Type} {x : Outcome α} {f : α → Outcome (Option Binding.Declaration)}
    (h : ∀ a, x.result = .ok a → Explains s node (f a)) : Explains s node (x >>= f) := by
  intro declaration hresult
  obtain ⟨a, ha, hrest, hevents⟩ := Outcome.bind_eq_ok hresult
  rw [hevents]
  exact (h a ha declaration hrest).append x.events

theorem Explains.stop (reason : Stop) : Explains s node (Outcome.stop reason) :=
  fun _ hresult => by cases hresult

/-- The node is declared. -/
theorem explains_fromNode {sort : String} {body : Binding.Body}
    (h : bindingKind? node.kind = some body.kind) :
    Explains s node (pure (some (fromNode node sort body))) := by
  intro declaration hresult
  cases hresult
  refine ⟨fun d hd => ?_, fun hnone => by cases hnone⟩
  cases hd
  exact ⟨rfl, rfl, h⟩

/-- It is reported why the node is not declared. -/
theorem explains_reportUnmappable (reason : String) (h : isDeclarable node = false) :
    Explains s node (do reportUnmappable node node.name reason; return none) := by
  intro declaration hresult
  cases hresult
  exact .none (.inr (.inr ⟨h, _, List.mem_singleton.mpr rfl, decide_eq_true rfl⟩))

theorem explains_constantOf {type value : String} (typeName : String)
    (hbody : node.body = .constant type value) :
    Explains s node
      (match constantTypes.contains typeName, Macro.Expr.ofText? value with
        | true, some e =>
          match e.renderConstant typeName with
          | .ok text => return some (fromNode node "MacroDefinition" (.constant typeName text))
          | .error _ => Outcome.stop (.failed (.fault .literal))
        | _, _ => do
          reportUnmappable node node.name
            s!"a constant of C type '{type}' has no C# constant form"
          return none) := by
  split
  · split
    · exact explains_fromNode (by rw [Node.kind, hbody]; rfl)
    · exact .stop _
  · exact explains_reportUnmappable _ (by rw [isDeclarable, hbody])

theorem explains_constant? {type value : String} (hbody : node.body = .constant type value) :
    Explains s node (constant? s node type value) := by
  refine .bind fun target _ => ?_
  split
  · exact explains_constantOf _ hbody
  · exact .bind fun u _ => explains_constantOf u.name hbody

/-- Mapping a node gives a declaration that stands for it, or nothing for a reason. -/
theorem explains_declaration? : Explains s node (declaration? s node) := by
  have hkind : node.kind = node.body.kind := rfl
  have hinline (h : isInline node = true) : Explains s node (pure none) := by
    intro declaration hresult
    cases hresult
    exact .none (.inl h)
  unfold declaration?
  cases hbody : node.body <;> rw [hbody] at hkind
  case primitive | pointer | array | enumerator =>
    exact hinline (by rw [isInline, hkind]; rfl)
  case function result parameters isVariadic convention =>
    dsimp only
    split
    · rename_i hvariadic
      exact explains_reportUnmappable _ (by rw [isDeclarable, hbody, hvariadic]; rfl)
    · exact .bind fun _ _ => .bind fun _ _ => explains_fromNode (by rw [hkind]; rfl)
  case functionPointer =>
    exact .bind fun _ _ => .bind fun _ _ => explains_fromNode (by rw [hkind]; rfl)
  case record => exact .bind fun _ _ => explains_fromNode (by rw [hkind]; rfl)
  case enumeration => exact .bind fun _ _ => explains_fromNode (by rw [hkind]; rfl)
  case incomplete => exact explains_fromNode (by rw [hkind]; rfl)
  case typedef underlying =>
    refine .bind fun u hu => ?_
    intro declaration hresult
    cases hresult
    -- the only type without a declaration for a reason other than its kind
    split
    · rename_i hvoid
      exact .none (.inr (.inl ⟨underlying, u, hbody, hu, hvoid⟩))
    · exact explains_fromNode (by rw [hkind]; rfl) _ rfl
  case global => exact .bind fun _ _ => .bind fun _ _ => explains_fromNode (by rw [hkind]; rfl)
  case constant type value => exact explains_constant? hbody

/-- A variadic function has no declaration. -/
theorem result_of_isVariadic (h : IsVariadic node) : (declaration? s node).result = .ok none := by
  obtain ⟨result, parameters, convention, hbody⟩ := h
  rw [declaration?, hbody]
  rfl

end

section

variable {s : Setting} {node : Declaration} {d : Binding.Declaration}

theorem isMapped_of_declared? (h : declared? s node = some d) : isMapped s node = true := by
  rw [declared?] at h
  split at h
  · assumption
  · cases h

theorem declaration?_of_declared? (h : declared? s node = some d) :
    (declaration? s node).result = .ok (some d) := by
  rw [declared?, if_pos (isMapped_of_declared? h)] at h
  cases hresult : (declaration? s node).result with
  | error reason =>
    rw [hresult] at h
    cases h
  | ok declaration =>
    rw [hresult] at h
    exact congrArg Except.ok h

/-- What is declared for a node stands for it. -/
theorem standsFor_of_declared? (h : declared? s node = some d) : StandsFor d node :=
  (explains_declaration? _ (declaration?_of_declared? h)).stands d rfl

end

/-! ## One node after the other -/

namespace Progress

variable {s : Setting} {p : Progress}

/-- What is declared for nodes so far. -/
def standing (p : Progress) : List Binding.Declaration :=
  p.declarations.filter (·.kind ≠ .fixedBuffer)

/-- The missing types that are reported so far. -/
def missing (p : Progress) : List Diagnostic := p.diagnostics.filter (·.isDangling)

/-- Nothing is declared for a node, and no missing type is reported. -/
structure Incidental (p p' : Progress) : Prop where
  standing : p'.standing = p.standing
  missing : p'.missing = p.missing
  diagnostics : p.diagnostics ⊆ p'.diagnostics

theorem Incidental.refl (p : Progress) : Incidental p p := ⟨rfl, rfl, List.Subset.refl _⟩

theorem Incidental.trans {p p' p'' : Progress} (h : Incidental p p') (h' : Incidental p' p'') :
    Incidental p p'' :=
  ⟨h'.standing.trans h.standing, h'.missing.trans h.missing,
    List.Subset.trans h.diagnostics h'.diagnostics⟩

/-- Lines for the user do not count. -/
theorem Incidental.detail {p p' : Progress} (h : Incidental p p') (line : String) :
    Incidental p (p'.detail line) :=
  ⟨h.standing, h.missing, h.diagnostics⟩

theorem missing_report (d : Diagnostic) :
    (p.report d).missing = p.missing ++ if d.isDangling then [d] else [] := by
  simp [missing, report, List.filter_cons]

theorem incidental_report {d : Diagnostic} (h : d.isDangling = false) :
    Incidental p (p.report d) := by
  refine ⟨rfl, ?_, List.subset_append_left _ _⟩
  rw [missing_report, h]
  exact List.append_nil _

theorem standing_declare (d : Binding.Declaration) :
    (p.declare d).standing = p.standing ++ if d.kind ≠ .fixedBuffer then [d] else [] := by
  simp [standing, declare, List.filter_cons]

theorem incidental_apply {event : Event} (h : event.Arises s) : Incidental p (p.apply event) := by
  cases h with
  | unmappable name reason place hreason => exact incidental_report rfl
  | unusual name reason hreason =>
    unfold apply
    dsimp only
    split
    · exact .refl p
    · exact ⟨rfl, (incidental_report rfl).missing, List.subset_append_left _ _⟩
  | ignored reason hignored =>
    unfold apply
    dsimp only
    split
    · exact .refl p
    · exact ⟨rfl, (incidental_report rfl).missing, List.subset_append_left _ _⟩
  | @helper d node hkind hnode harray horigin =>
    unfold apply
    dsimp only
    split
    · exact .refl p
    · refine ⟨?_, rfl, List.Subset.refl _⟩
      rw [standing_declare, hkind]
      exact List.append_nil _

theorem incidental_applyAll {events : List Event} (h : ∀ event ∈ events, event.Arises s) :
    Incidental p (p.applyAll events) := by
  induction events generalizing p with
  | nil => exact .refl p
  | cons event rest ih =>
    rw [List.forall_mem_cons] at h
    exact (incidental_apply h.1).trans (ih h.2)

/-- A report among the events is among the diagnostics afterwards. -/
theorem mem_applyAll {events : List Event} (h : ∀ event ∈ events, event.Arises s)
    {d : Diagnostic} (hd : .report d ∈ events) : d ∈ (p.applyAll events).diagnostics := by
  induction events generalizing p with
  | nil => exact absurd hd List.not_mem_nil
  | cons event rest ih =>
    rw [List.forall_mem_cons] at h
    rcases List.mem_cons.mp hd with rfl | hd
    · have hfirst : d ∈ (p.apply (.report d)).diagnostics :=
        List.mem_append_right _ (List.mem_singleton.mpr rfl)
      exact (incidental_applyAll h.2).diagnostics hfirst
    · exact ih h.2 hd

end Progress

section

variable {s : Setting} {p p' : Progress} {node : Declaration}

/-- A node that is mapped is declared after its helpers, left out with them, or ends the run. -/
theorem step_of_mapped (hmapped : isMapped s node = true) (p : Progress) :
    step s p node =
      match (declaration? s node).result with
      | .ok declaration =>
        (declaration.elim (p.applyAll (declaration? s node).events)
          (p.applyAll (declaration? s node).events).declare, none)
      | .error (.dangling type) =>
        ({ p.applyAll (declaration? s node).events with declarations := p.declarations }.report
          ⟨.danglingType type node.name, some node.place⟩, none)
      | .error (.failed failure) => (p.applyAll (declaration? s node).events, some failure) := by
  rw [isMapped, Bool.and_eq_true, Bool.and_eq_true, Bool.not_eq_true', Bool.not_eq_true',
    Option.isNone_iff_eq_none] at hmapped
  obtain ⟨⟨hinline, hignored⟩, halias⟩ := hmapped
  simp only [step, hinline, hignored, halias, Bool.false_eq_true, if_false]
  cases (declaration? s node).result with
  | ok declaration => cases declaration <;> rfl
  | error reason => cases reason <;> rfl

/-- Any other node leaves reports and lines at most. -/
theorem step_of_not_mapped (hmapped : isMapped s node = false) (p : Progress) :
    ∃ p', step s p node = (p', none) ∧ p'.declarations = p.declarations ∧
      Progress.Incidental p p' := by
  unfold step
  split
  · exact ⟨p, rfl, rfl, .refl p⟩
  split
  · refine ⟨_, rfl, ?_, Progress.Incidental.detail ?_ _⟩
    · split <;> rfl
    · split
      · exact Progress.incidental_report rfl
      · exact .refl p
  split
  · exact ⟨_, rfl, rfl, (Progress.Incidental.refl p).detail _⟩
  · rename_i hinline hignored _ halias
    rw [Bool.not_eq_true] at hinline hignored
    rw [isMapped, hinline, hignored, halias] at hmapped
    cases hmapped

/-- What nodes add one after the other: what is declared for each, the report of each missing type,
and the reports made on the way. -/
structure Adds (s : Setting) (nodes : List Declaration) (p p' : Progress) : Prop where
  standing : p'.standing = p.standing ++ nodes.filterMap (declared? s)
  missing : p'.missing = p.missing ++ nodes.filterMap (missing? s)
  diagnostics : p.diagnostics ⊆ p'.diagnostics
  reported : ∀ node ∈ nodes, isMapped s node = true →
    ∀ d, .report d ∈ (declaration? s node).events → d ∈ p'.diagnostics
  /-- No node was a reason to give up. -/
  completed : ∀ node ∈ nodes, isMapped s node = true →
    ∀ failure, (declaration? s node).result ≠ .error (.failed failure)

theorem Adds.nil (s : Setting) (p : Progress) : Adds s [] p p :=
  ⟨(List.append_nil _).symm, (List.append_nil _).symm, List.Subset.refl _,
    fun _ hnode => absurd hnode List.not_mem_nil, fun _ hnode => absurd hnode List.not_mem_nil⟩

theorem Adds.append {first rest : List Declaration} {p'' : Progress} (h : Adds s first p p')
    (h' : Adds s rest p' p'') : Adds s (first ++ rest) p p'' where
  standing := by rw [h'.standing, h.standing, List.append_assoc, List.filterMap_append]
  missing := by rw [h'.missing, h.missing, List.append_assoc, List.filterMap_append]
  diagnostics := List.Subset.trans h.diagnostics h'.diagnostics
  reported := List.forall_mem_append.mpr
    ⟨fun node hnode hmapped d hd => h'.diagnostics (h.reported node hnode hmapped d hd), h'.reported⟩
  completed := List.forall_mem_append.mpr ⟨h.completed, h'.completed⟩

/-- A node that is not mapped adds nothing of the kind. -/
theorem adds_of_not_mapped (hmapped : isMapped s node = false) (h : Progress.Incidental p p') :
    Adds s [node] p p' := by
  have hdeclared : declared? s node = none := by rw [declared?, hmapped]; rfl
  have hmissing : missing? s node = none := by rw [missing?, hmapped]; rfl
  refine ⟨?_, ?_, h.diagnostics, ?_, ?_⟩
  · rw [h.standing, List.filterMap_cons_none hdeclared]
    exact (List.append_nil _).symm
  · rw [h.missing, List.filterMap_cons_none hmissing]
    exact (List.append_nil _).symm
  · exact List.forall_mem_singleton.mpr fun htrue => by rw [hmapped] at htrue; cases htrue
  · exact List.forall_mem_singleton.mpr fun htrue => by rw [hmapped] at htrue; cases htrue

/-- What a node adds that is mapped without a failure. -/
theorem adds_of_mapped (hmapped : isMapped s node = true)
    (hstanding : p'.standing = p.standing ++ (declaration? s node).result.toOption.join.toList)
    (hmissing : p'.missing = p.missing ++ (missing? s node).toList)
    (hdiagnostics : (p.applyAll (declaration? s node).events).diagnostics ⊆ p'.diagnostics)
    (hresult : ∀ failure, (declaration? s node).result ≠ .error (.failed failure)) :
    Adds s [node] p p' := by
  have hevents := expected_declaration? (s := s) node
  have hdeclared : declared? s node = (declaration? s node).result.toOption.join := if_pos hmapped
  refine ⟨?_, ?_, ?_, ?_, List.forall_mem_singleton.mpr fun _ => hresult⟩
  · rw [hstanding, ← hdeclared]
    cases h : declared? s node <;> simp [h]
  · rw [hmissing]
    cases h : missing? s node <;> simp [h]
  · exact List.Subset.trans (Progress.incidental_applyAll hevents).diagnostics hdiagnostics
  · exact List.forall_mem_singleton.mpr fun _ d hd =>
      hdiagnostics (Progress.mem_applyAll hevents hd)

theorem adds_declared {d : Binding.Declaration} (hmapped : isMapped s node = true)
    (hresult : (declaration? s node).result = .ok (some d)) :
    Adds s [node] p ((p.applyAll (declaration? s node).events).declare d) := by
  have hafter := Progress.incidental_applyAll (p := p) (expected_declaration? (s := s) node)
  refine adds_of_mapped hmapped ?_ ?_ (List.Subset.refl _) (by rw [hresult]; nofun)
  · have hkind := ((explains_declaration? _ hresult).stands d rfl).kind_ne
    rw [Progress.standing_declare, if_pos hkind, hafter.standing, hresult]
    rfl
  · show (p.applyAll _).missing = _
    rw [hafter.missing, missing?, if_pos hmapped, hresult]
    exact (List.append_nil _).symm

theorem adds_omitted (hmapped : isMapped s node = true)
    (hresult : (declaration? s node).result = .ok none) :
    Adds s [node] p (p.applyAll (declaration? s node).events) := by
  have hafter := Progress.incidental_applyAll (p := p) (expected_declaration? (s := s) node)
  refine adds_of_mapped hmapped ?_ ?_ (List.Subset.refl _) (by rw [hresult]; nofun)
  · rw [hafter.standing, hresult]
    exact (List.append_nil _).symm
  · rw [hafter.missing, missing?, if_pos hmapped, hresult]
    exact (List.append_nil _).symm

/-- Helpers that were declared on the way are taken back, reports stay. -/
theorem adds_dangling {type : String} (hmapped : isMapped s node = true)
    (hresult : (declaration? s node).result = .error (.dangling type)) :
    Adds s [node] p (({ p.applyAll (declaration? s node).events with
      declarations := p.declarations }).report ⟨.danglingType type node.name, some node.place⟩) := by
  have hafter := Progress.incidental_applyAll (p := p) (expected_declaration? (s := s) node)
  refine adds_of_mapped hmapped ?_ ?_ (List.subset_append_left _ _) (by rw [hresult]; nofun)
  · show p.standing = _
    rw [hresult]
    exact (List.append_nil _).symm
  · rw [Progress.missing_report, missing?, if_pos hmapped, hresult, ← hafter.missing]
    rfl

theorem adds_step (h : step s p node = (p', none)) : Adds s [node] p p' := by
  cases hmapped : isMapped s node with
  | false =>
    obtain ⟨next, hnext, -, hincidental⟩ := step_of_not_mapped hmapped p
    rw [hnext] at h
    cases h
    exact adds_of_not_mapped hmapped hincidental
  | true =>
    rw [step_of_mapped hmapped] at h
    split at h <;> rename_i hresult <;> cases h
    · rename_i declaration
      cases declaration with
      | none => exact adds_omitted hmapped hresult
      | some d => exact adds_declared hmapped hresult
    · exact adds_dangling hmapped hresult

theorem adds_steps {nodes : List Declaration} (h : steps s p nodes = (p', none)) :
    Adds s nodes p p' := by
  induction nodes generalizing p with
  | nil =>
    cases h
    exact .nil _ _
  | cons node rest ih =>
    unfold steps at h
    split at h
    · rename_i next hnext
      exact (adds_step hnext).append (ih h)
    · cases h

/-- A run that succeeds adds what the nodes of the tree add to an empty start. -/
theorem run_adds {b : Binding.Bindings} (h : (run s).bindings = .ok b) :
    ∃ start p, start.standing = [] ∧ start.missing = [] ∧ Adds s s.tree.nodes start p ∧
      b.ofNodes = p.standing ∧ (run s).diagnostics = p.diagnostics := by
  unfold run at h ⊢
  generalize hstart : (if s.bitness ≠ s.tree.bitness then
    Progress.report {} ⟨.bitnessMismatch s.tree.bitness s.bitness, none⟩ else {}) = start at h ⊢
  have hempty : start.standing = [] ∧ start.missing = [] := by
    subst hstart
    split <;> exact ⟨rfl, rfl⟩
  dsimp only at h ⊢
  cases hsteps : steps s start s.tree.nodes with
  | mk p failure =>
    rw [hsteps] at h
    cases failure with
    | some failure => cases h
    | none =>
      cases h
      exact ⟨start, p, hempty.1, hempty.2, adds_steps hsteps, rfl, rfl⟩

/-- The binding declares what each node is mapped to, node by node, besides the helpers. -/
theorem ofNodes_run {b : Binding.Bindings} (h : (run s).bindings = .ok b) :
    b.ofNodes = s.tree.nodes.filterMap (declared? s) := by
  obtain ⟨start, p, hstanding, -, hadds, hnodes, -⟩ := run_adds h
  rw [hnodes, hadds.standing, hstanding, List.nil_append]

theorem mem_ofNodes_iff {b : Binding.Bindings} (h : (run s).bindings = .ok b)
    {d : Binding.Declaration} :
    d ∈ b.ofNodes ↔ ∃ node ∈ s.tree.nodes, declared? s node = some d := by
  rw [ofNodes_run h, List.mem_filterMap]

/-- The missing types that are reported are those of the nodes. -/
theorem dangling_run {b : Binding.Bindings} (h : (run s).bindings = .ok b) :
    (run s).diagnostics.filter (·.isDangling) = s.tree.nodes.filterMap (missing? s) := by
  obtain ⟨start, p, -, hmissing, hadds, -, hdiagnostics⟩ := run_adds h
  rw [hdiagnostics]
  exact hadds.missing.trans (by rw [hmissing, List.nil_append])

end

/-! ## The whole tree -/

section

variable {s : Setting} {node : Declaration} {nodes : List Declaration}

/-- What is found for one node among what is found for nodes of distinct names. -/
theorem countP_filterMap {γ : Type} {f : Declaration → Option γ} {p : γ → Bool}
    (hp : ∀ other y, f other = some y → p y = decide (other.name = node.name))
    (hnames : (nodes.map (·.name)).Nodup) (hnode : node ∈ nodes) :
    (nodes.filterMap f).countP p = (f node).toList.length := by
  -- nothing is found where no node bears the name
  have hnone (rest : List Declaration) (habsent : node.name ∉ rest.map (·.name)) :
      (rest.filterMap f).countP p = 0 := by
    rw [List.countP_eq_zero]
    intro y hy
    obtain ⟨other, hother, hsome⟩ := List.mem_filterMap.mp hy
    rw [hp other y hsome, decide_eq_true_iff]
    exact fun hname => habsent (List.mem_map.mpr ⟨other, hother, hname⟩)
  induction nodes with
  | nil => exact absurd hnode List.not_mem_nil
  | cons first rest ih =>
    rw [List.map_cons, List.nodup_cons] at hnames
    rcases List.mem_cons.mp hnode with rfl | hrest
    · cases hfound : f node with
      | none => rw [List.filterMap_cons_none hfound, hnone rest hnames.1]; rfl
      | some y =>
        have hy : p y = true := (hp node y hfound).trans (decide_eq_true rfl)
        rw [List.filterMap_cons_some hfound, List.countP_cons_of_pos hy, hnone rest hnames.1]
        rfl
    · have hother : first.name ≠ node.name := fun hname =>
        hnames.1 (hname ▸ List.mem_map.mpr ⟨node, hrest, rfl⟩)
      cases hfound : f first with
      | none => rw [List.filterMap_cons_none hfound, ih hnames.2 hrest]
      | some y =>
        have hy : ¬p y = true := by
          rw [hp first y hfound, decide_eq_true_iff]
          exact hother
        rw [List.filterMap_cons_some hfound, List.countP_cons_of_neg hy, ih hnames.2 hrest]

/-- The declarations for nodes stand for nodes of the tree, in order. -/
theorem forall₂_declared? (nodes : List Declaration) :
    ∃ kept, kept.Sublist nodes ∧ List.Forall₂ StandsFor (nodes.filterMap (declared? s)) kept := by
  induction nodes with
  | nil => exact ⟨[], .refl _, .nil⟩
  | cons node rest ih =>
    obtain ⟨kept, hkept, hstands⟩ := ih
    cases hdeclared : declared? s node with
    | none => exact ⟨kept, hkept.cons node, by rwa [List.filterMap_cons_none hdeclared]⟩
    | some d =>
      refine ⟨node :: kept, hkept.cons_cons node, ?_⟩
      rw [List.filterMap_cons_some hdeclared]
      exact .cons (standsFor_of_declared? hdeclared) hstands

/-- How many of the declarations for nodes come from this one. -/
theorem countP_ofNodes {b : Binding.Bindings} (hnames : s.tree.names.Nodup)
    (hrun : (run s).bindings = .ok b) (hnode : node ∈ s.tree.nodes) :
    b.ofNodes.countP (·.origin = some node.name) = (declared? s node).toList.length := by
  rw [ofNodes_run hrun]
  refine countP_filterMap (fun other d hd => ?_) hnames hnode
  simp only [(standsFor_of_declared? hd).origin, Option.some.injEq]

/-- How many of the reports of missing types are about this node. -/
theorem countP_isDanglingOf {b : Binding.Bindings} (hnames : s.tree.names.Nodup)
    (hrun : (run s).bindings = .ok b) (hnode : node ∈ s.tree.nodes) :
    (run s).diagnostics.countP (·.isDanglingOf node.name) = (missing? s node).toList.length := by
  have hdangling : ∀ d : Diagnostic,
      (d.isDanglingOf node.name && d.isDangling) = d.isDanglingOf node.name := by
    rintro ⟨cause, place⟩
    cases cause <;> simp [Diagnostic.isDangling, Diagnostic.isDanglingOf]
  have hfilter : (run s).diagnostics.countP (·.isDanglingOf node.name) =
      ((run s).diagnostics.filter (·.isDangling)).countP (·.isDanglingOf node.name) := by
    rw [List.countP_filter]
    simp only [hdangling]
  rw [hfilter, dangling_run hrun]
  refine countP_filterMap (fun other d hd => ?_) hnames hnode
  rw [missing?] at hd
  split at hd
  · split at hd <;> cases hd
    rfl
  · cases hd

/-- A node has a declaration or a report that a type is missing, or neither, for a reason that is
reported unless it is that the node names `void`. -/
theorem declared?_or_missing? {b : Binding.Bindings} (hrun : (run s).bindings = .ok b)
    (hnode : node ∈ s.tree.nodes) (hmapped : isMapped s node = true) :
    ((declared? s node).isSome ∧ missing? s node = none) ∨
    (declared? s node = none ∧ (missing? s node).isSome) ∨
    (declared? s node = none ∧ missing? s node = none ∧ (NamesVoid s node ∨
      isDeclarable node = false ∧ ∃ d ∈ (run s).diagnostics, d.isUnmappable node.name = true)) := by
  obtain ⟨start, p, -, -, hadds, -, hdiagnostics⟩ := run_adds hrun
  rw [declared?, missing?, if_pos hmapped, if_pos hmapped]
  cases hresult : (declaration? s node).result with
  | error reason =>
    cases reason with
    | dangling type => exact .inr (.inl ⟨rfl, rfl⟩)
    | failed failure => exact absurd hresult (hadds.completed node hnode hmapped failure)
  | ok declaration =>
    cases declaration with
    | some d => exact .inl ⟨rfl, rfl⟩
    | none =>
      refine .inr (.inr ⟨rfl, rfl, ?_⟩)
      rcases (explains_declaration? _ hresult).omitted rfl with hinline | hvoid | ⟨hkind, d, hd, hname⟩
      · rw [isMapped, hinline] at hmapped
        cases hmapped
      · exact .inl hvoid
      · refine .inr ⟨hkind, d, ?_, hname⟩
        rw [hdiagnostics]
        exact hadds.reported node hnode hmapped d hd

/-- A node that is not declared is reported, unless it is a typedef. -/
theorem reported_of_not_declared {b : Binding.Bindings} (hnames : s.tree.names.Nodup)
    (hrun : (run s).bindings = .ok b) (hnode : node ∈ s.tree.nodes)
    (hmapped : isMapped s node = true) (hkind : node.kind ≠ .typedef)
    (hnone : declared? s node = none) :
    ∃ d ∈ (run s).diagnostics, d.isUnmappable node.name = true ∨ d.isDanglingOf node.name = true := by
  rcases declared?_or_missing? hrun hnode hmapped with
    ⟨hsome, -⟩ | ⟨-, hsome⟩ | ⟨-, -, hvoid | ⟨-, d, hd, hname⟩⟩
  · rw [hnone] at hsome
    cases hsome
  · have hcount := countP_isDanglingOf hnames hrun hnode
    have hpos : 0 < (run s).diagnostics.countP (·.isDanglingOf node.name) := by
      rw [hcount, Option.length_toList, if_pos hsome]
      exact Nat.one_pos
    obtain ⟨d, hd, hname⟩ := List.countP_pos_iff.mp hpos
    exact ⟨d, hd, .inr hname⟩
  · obtain ⟨underlying, u, hbody, -⟩ := hvoid
    exact absurd (by rw [Node.kind, hbody]; rfl) hkind
  · exact ⟨d, hd, .inl hname⟩

/-- Nothing is lost, doubled or moved. Apart from helpers, the declarations of the binding stand for
nodes of the tree, each for one of its own, in the order of the nodes. Of the nodes that are neither
ignored nor replaced, one that can be declared has either one declaration or one report of a missing
type, unless it names `void`, and any other is reported if it is not declared. -/
theorem run_accounts {s : Setting} {b : Binding.Bindings} (hnames : s.tree.names.Nodup)
    (hrun : (run s).bindings = .ok b) :
    (∃ kept, kept.Sublist s.tree.nodes ∧ kept.Nodup ∧ List.Forall₂ StandsFor b.ofNodes kept) ∧
    ∀ node ∈ s.tree.nodes, s.policy.ignores node.name = false →
      s.policy.aliasFor? node.name = none →
      (isDeclarable node = true → ¬NamesVoid s node →
        b.ofNodes.countP (·.origin = some node.name) = 1 ∧
          (run s).diagnostics.countP (·.isDanglingOf node.name) = 0 ∨
        b.ofNodes.countP (·.origin = some node.name) = 0 ∧
          (run s).diagnostics.countP (·.isDanglingOf node.name) = 1) ∧
      (IsVariadic node ∨ node.kind = .constant ∧ (∀ d ∈ b.ofNodes, d.origin ≠ some node.name) →
        ∃ d ∈ (run s).diagnostics,
          d.isUnmappable node.name = true ∨ d.isDanglingOf node.name = true) := by
  constructor
  · obtain ⟨kept, hkept, hstands⟩ := forall₂_declared? (s := s) s.tree.nodes
    exact ⟨kept, hkept, (List.Nodup.of_map _ hnames).sublist hkept, ofNodes_run hrun ▸ hstands⟩
  intro node hnode hignored halias
  have hcount := countP_ofNodes hnames hrun hnode
  have hreports := countP_isDanglingOf hnames hrun hnode
  have hmapped (hinline : isInline node = false) : isMapped s node = true := by
    rw [isMapped, hinline, hignored, halias]
    rfl
  constructor
  · intro hdeclarable hvoid
    rw [hcount, hreports, Option.length_toList, Option.length_toList]
    rcases declared?_or_missing? hrun hnode (hmapped (isInline_of_isDeclarable hdeclarable)) with
      ⟨hsome, hnone⟩ | ⟨hnone, hsome⟩ | ⟨-, -, hnamesVoid | ⟨hkind, -⟩⟩
    · rw [hsome, hnone]
      exact .inl ⟨rfl, rfl⟩
    · rw [hsome, hnone]
      exact .inr ⟨rfl, rfl⟩
    · exact absurd hnamesVoid hvoid
    · rw [hdeclarable] at hkind
      cases hkind
  · rintro (hvariadic | ⟨hkind, hnone⟩)
    · have hkind : node.kind = .function := by
        obtain ⟨result, parameters, convention, hbody⟩ := hvariadic
        rw [Node.kind, hbody]
        rfl
      have hnone : declared? s node = none := by
        rw [declared?, result_of_isVariadic hvariadic]
        exact ite_self _
      exact reported_of_not_declared hnames hrun hnode (hmapped (by rw [isInline, hkind]))
        (by rw [hkind]; decide) hnone
    · have hlength : (declared? s node).toList.length = 0 := by
        rw [← hcount, List.countP_eq_zero]
        exact fun d hd => by simpa using hnone d hd
      have hundeclared : declared? s node = none :=
        Option.toList_eq_nil_iff.mp (List.length_eq_zero_iff.mp hlength)
      exact reported_of_not_declared hnames hrun hnode (hmapped (by rw [isInline, hkind]))
        (by rw [hkind]; decide) hundeclared

/-- A tree in which a record needs a helper before it turns out to miss a type, which another record
needs as well, with a function of any number of arguments. -/
def untidySample : Setting where
  tree := ⟨"untidy.h", 64, [
    ⟨"int", .primitive 4 4, none⟩,
    ⟨"int*", .pointer "int" 8, none⟩,
    ⟨"int*[2]", .array "int*" 2 16, none⟩,
    ⟨"broken", .record false [⟨"ends", "int*[2]", 0, 16⟩, ⟨"next", "gone*", 16, 8⟩] 24 8, none⟩,
    ⟨"range", .record false [⟨"ends", "int*[2]", 0, 16⟩] 16 8, none⟩,
    ⟨"print", .function "int" [⟨"format", "int"⟩] true "cdecl", none⟩]⟩
  policy := ⟨"Untidy", [], [], none⟩

theorem run_accounts_untidySample :
    untidySample.tree.names.Nodup ∧
    ∃ b, (run untidySample).bindings = .ok b ∧
      b.declarations.map (·.name) = ["FixedBuffer_IntPtr_two", "range"] ∧
      (∃ kept, kept.Sublist untidySample.tree.nodes ∧ kept.Nodup ∧
        List.Forall₂ StandsFor b.ofNodes kept) ∧
      ∀ node ∈ untidySample.tree.nodes, untidySample.policy.ignores node.name = false →
        untidySample.policy.aliasFor? node.name = none →
        (isDeclarable node = true → ¬NamesVoid untidySample node →
          b.ofNodes.countP (·.origin = some node.name) = 1 ∧
            (run untidySample).diagnostics.countP (·.isDanglingOf node.name) = 0 ∨
          b.ofNodes.countP (·.origin = some node.name) = 0 ∧
            (run untidySample).diagnostics.countP (·.isDanglingOf node.name) = 1) ∧
        (IsVariadic node ∨ node.kind = .constant ∧ (∀ d ∈ b.ofNodes, d.origin ≠ some node.name) →
          ∃ d ∈ (run untidySample).diagnostics,
            d.isUnmappable node.name = true ∨ d.isDanglingOf node.name = true) := by
  have hdistinct : untidySample.tree.names.Nodup := by decide +kernel
  have hnames : (run untidySample).bindings.toOption.map (·.declarations.map (·.name)) =
      some ["FixedBuffer_IntPtr_two", "range"] := by decide +kernel
  refine ⟨hdistinct, ?_⟩
  cases hrun : (run untidySample).bindings with
  | error failure =>
    rw [hrun] at hnames
    cases hnames
  | ok b =>
    rw [hrun] at hnames
    exact ⟨b, rfl, Option.some.inj hnames, run_accounts hdistinct hrun⟩

end

end Mapping
end CInterop
