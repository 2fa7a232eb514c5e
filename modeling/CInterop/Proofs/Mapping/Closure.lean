import CInterop.Proofs.Mapping.TypeUse

/-!
# Bindings are closed

Two rules decide about a type apart from each other: which nodes are declared, and how a use of a
type is spelled. They agree: when the references of a tree are all to types, whatever a declaration
of the binding makes use of is a type of the language, the target of an alias or declared itself.
While the nodes are mapped, names are still owed by nodes to come; at the end none is.
-/

namespace CInterop.Mapping

open Header
open Binding (escape)

/-! ## One declaration -/

section

variable {s : Setting} {known : List String}

theorem meets_reportUnmappable (node : Declaration) (name reason : String) :
    Meets s known (reportUnmappable node name reason) fun _ _ => True :=
  meets_report rfl

theorem meets_parametersFrom (closed : Closed s.tree) (index : Nat)
    (parameters : List (Parameter String))
    (h : ∀ name ∈ parameters.map (·.type), s.tree.hasType name = true) :
    Meets s known (parametersFrom s index parameters) fun names others =>
      ∀ text ∈ others.map (·.type.name), Spelled s names text := by
  induction parameters generalizing index known with
  | nil => exact .pure nofun
  | cons p rest ih =>
    rw [List.map_cons, List.forall_mem_cons] at h
    unfold parametersFrom
    refine (meets_typeUse closed .value h.1).bind fun names type _ htype => ?_
    refine (ih (index + 1) h.2).bind fun names' others hnames hothers => .pure ?_
    rw [List.map_cons, List.forall_mem_cons]
    exact ⟨htype.1.mono hnames, hothers⟩

theorem meets_fieldsOf (closed : Closed s.tree) (node : Declaration)
    (padding : Field String Int → Int) (fields : List (Field String Int))
    (h : ∀ name ∈ fields.map (·.type), s.tree.hasType name = true) :
    Meets s known (fieldsOf s node padding fields) fun names others =>
      ∀ text ∈ others.map (·.type.name), Spelled s names text := by
  induction fields generalizing known with
  | nil => exact .pure nofun
  | cons f rest ih =>
    rw [List.map_cons, List.forall_mem_cons] at h
    unfold fieldsOf
    split
    · exact (meets_reportUnmappable node _ _).bind fun names _ _ _ => ih h.2
    · refine (meets_typeUse closed .field h.1).bind fun names type _ htype => ?_
      refine (ih h.2).bind fun names' others hnames hothers => .pure ?_
      rw [List.map_cons, List.forall_mem_cons]
      exact ⟨htype.1.mono hnames, hothers⟩

/-- What comes of a node: a declaration under its name that is spelled in order, if any, and one for
every type that is owed. -/
def DeclarationOf (s : Setting) (node : Declaration) (names : List String)
    (declaration : Option Binding.Declaration) : Prop :=
  (∀ d, declaration = some d →
    d.name = escape node.name ∧ ∀ text ∈ d.body.typeNames, Spelled s names text) ∧
  (Owed s node → declaration ≠ none)

theorem declarationOf_fromNode {node : Declaration} {sort : String} {body : Binding.Body}
    (h : ∀ text ∈ body.typeNames, Spelled s known text) :
    DeclarationOf s node known (some (fromNode node sort body)) := by
  refine ⟨fun d hd => ?_, fun _ => Option.some_ne_none _⟩
  cases hd
  exact ⟨rfl, h⟩

theorem declarationOf_none {node : Declaration} (h : ¬ Owed s node) :
    DeclarationOf s node known none := by
  refine ⟨fun d hd => ?_, fun howed => absurd howed h⟩
  cases hd

theorem not_owed_of_kind {node : Declaration} (h : node.kind.isType = false) : ¬ Owed s node :=
  fun howed => absurd howed.isType (by rw [h]; decide)

/-- What has a signature is declared over the types of the result and of the parameters. -/
theorem meets_signature (closed : Closed s.tree) {node : Declaration} (sort : String)
    {result : String} {parameters : List (Parameter String)}
    {body : Binding.TypeUse → List Binding.Parameter → Binding.Body}
    (hbody : ∀ type others, (body type others).typeNames = type.name :: others.map (·.type.name))
    (h : ∀ name ∈ result :: parameters.map (·.type), s.tree.hasType name = true) :
    Meets s known (do
        let type ← typeUse s result .value
        let others ← parametersFrom s 0 parameters
        return some (fromNode node sort (body type others)))
      (DeclarationOf s node) := by
  have hsignature := List.forall_mem_cons.mp h
  refine (meets_typeUse closed .value hsignature.1).bind fun names type _ htype => ?_
  refine (meets_parametersFrom closed 0 parameters hsignature.2).bind
    fun names' others hnames hothers => .pure (declarationOf_fromNode ?_)
  rw [hbody]
  exact List.forall_mem_cons.mpr ⟨htype.1.mono hnames, hothers⟩

/-- A constant is declared if its value can be written with its type. -/
theorem meets_constantOf {node : Declaration} (type value typeName : String)
    (hnot : ¬ Owed s node) :
    Meets s known
      (match constantTypes.contains typeName, Macro.Expr.ofText? value with
        | true, some e =>
          match e.renderConstant typeName with
          | .ok text => return some (fromNode node "MacroDefinition" (.constant typeName text))
          | .error _ => Outcome.stop (.failed (.fault .literal))
        | _, _ => do
          reportUnmappable node node.name
            s!"a constant of C type '{type}' has no C# constant form"
          return none)
      (DeclarationOf s node) := by
  split
  · split
    · exact .pure (declarationOf_fromNode fun _ htext => absurd htext List.not_mem_nil)
    · exact .failed
  · exact (meets_reportUnmappable node _ _).bind fun _ _ _ _ => .pure (declarationOf_none hnot)

theorem meets_constant? (closed : Closed s.tree) {node : Declaration} {type : String}
    (value : String) (hnot : ¬ Owed s node) (h : s.tree.hasType type = true) :
    Meets s known (constant? s node type value) (DeclarationOf s node) := by
  unfold constant?
  refine (meets_node h).bind fun names target _ _ => ?_
  split
  · exact meets_constantOf type value "string" hnot
  · exact (meets_typeUse closed .value h).bind fun _ u _ _ =>
      meets_constantOf type value u.name hnot

/-- An array is exposed through its first element, whose type the array refers to. -/
theorem hasType_exposed (closed : Closed s.tree) {type : String} {target : Declaration}
    (htarget : s.tree.node? type = some target) (htype : s.tree.hasType type = true) :
    s.tree.hasType (match target.body with
      | .array element .. => element
      | _ => type) = true := by
  split
  · rename_i element count size harray
    have helement := closed target (node?_mem htarget)
    rw [harray] at helement
    exact helement element (List.mem_singleton.mpr rfl)
  · exact htype

/-- Mapping a node that refers to types only has sound events and no dangling type. -/
theorem meets_declaration? (closed : Closed s.tree) {node : Declaration}
    (hnode : node ∈ s.tree.nodes) :
    Meets s known (declaration? s node) (DeclarationOf s node) := by
  have hrefs := closed node hnode
  unfold declaration?
  cases hbody : node.body with
  | primitive | pointer | array | enumerator =>
    exact .pure (declarationOf_none fun howed => by
      have hinline := howed.notInline
      simp [isInline, Node.kind, hbody, Body.kind] at hinline)
  | function result parameters isVariadic convention =>
    rw [hbody] at hrefs
    dsimp only
    split
    · exact (meets_reportUnmappable node _ _).bind fun _ _ _ _ =>
        .pure (declarationOf_none (not_owed_of_kind (by rw [Node.kind, hbody]; rfl)))
    · exact meets_signature closed "Function" (fun _ _ => rfl) hrefs
  | functionPointer result parameters size =>
    rw [hbody] at hrefs
    exact meets_signature closed "FunctionPointer" (fun _ _ => rfl) hrefs
  | record isUnion fields size align =>
    rw [hbody] at hrefs
    exact (meets_fieldsOf closed node _ fields hrefs).bind fun names others _ hothers =>
      .pure (declarationOf_fromNode hothers)
  | enumeration integerType values =>
    rw [hbody] at hrefs
    have htype := hrefs integerType (List.mem_singleton.mpr rfl)
    refine (meets_backing (fun position h => meets_typeUse closed position h) values htype).bind
      fun names type _ htype => .pure (declarationOf_fromNode ?_)
    exact List.forall_mem_singleton.mpr htype
  | incomplete =>
    exact .pure (declarationOf_fromNode fun _ htext => absurd htext List.not_mem_nil)
  | typedef underlying =>
    rw [hbody] at hrefs
    have hunderlying := hrefs underlying (List.mem_singleton.mpr rfl)
    refine (meets_typeUse closed .field hunderlying).bind fun names type _ htype => .pure ?_
    split
    · -- a typedef of `void` is not owed
      rename_i hvoid
      refine declarationOf_none fun howed => howed.notVoid ?_
      exact .typedef howed.found hbody howed.notIgnored howed.notAliased (htype.2.mp hvoid)
    · exact declarationOf_fromNode (List.forall_mem_singleton.mpr htype.1)
  | global type =>
    rw [hbody] at hrefs
    have htype := hrefs type (List.mem_singleton.mpr rfl)
    refine (meets_node htype).bind fun names target _ htarget => ?_
    have hexposed := hasType_exposed closed htarget.1 htype
    refine (meets_typeUse closed .value hexposed).bind fun names' u _ hu => .pure ?_
    exact declarationOf_fromNode (List.forall_mem_singleton.mpr hu.1)
  | constant type value =>
    rw [hbody] at hrefs
    exact meets_constant? closed value (not_owed_of_kind (by rw [Node.kind, hbody]; rfl))
      (hrefs type (List.mem_singleton.mpr rfl))

end

/-! ## One node -/

/-- The names of what is declared so far. -/
def Progress.names (p : Progress) : List String := p.declarations.map (·.name)

/-- What is declared is spelled over the given names, and no error was reported. -/
structure Progress.Sound (s : Setting) (names : List String) (p : Progress) : Prop where
  spelled : ∀ d ∈ p.declarations, ∀ text ∈ d.body.typeNames, Spelled s names text
  graceful : ∀ d ∈ p.diagnostics, d.severity ≠ .error

/-- What is declared is spelled over the names there are, and the nodes that had their turn owe none
any more. -/
structure Settled (s : Setting) (done : List Declaration) (p : Progress) : Prop where
  sound : p.Sound s p.names
  paid : ∀ node ∈ done, Owed s node → escape node.name ∈ p.names

namespace Progress

variable {s : Setting} {names : List String} {p : Progress}

theorem Sound.mono {names' : List String} (hsub : names ⊆ names') (h : p.Sound s names) :
    p.Sound s names' :=
  ⟨fun d hd text htext => (h.spelled d hd text htext).mono hsub, h.graceful⟩

theorem Sound.report {d : Diagnostic} (h : p.Sound s names) (hd : d.severity ≠ .error) :
    (p.report d).Sound s names :=
  ⟨h.spelled, List.forall_mem_append.mpr ⟨h.graceful, List.forall_mem_singleton.mpr hd⟩⟩

theorem Sound.declare {d : Binding.Declaration} (h : p.Sound s names)
    (hd : ∀ text ∈ d.body.typeNames, Spelled s names text) : (p.declare d).Sound s names :=
  ⟨List.forall_mem_append.mpr ⟨h.spelled, List.forall_mem_singleton.mpr hd⟩, h.graceful⟩

theorem Sound.apply {event : Event} (h : p.Sound s names) (hevent : event.Sound s names) :
    (p.apply event).Sound s names := by
  unfold Progress.apply
  split
  · exact h.report hevent
  · split
    · exact h
    · have hreport := h.report hevent
      exact ⟨hreport.spelled, hreport.graceful⟩
  · split
    · exact h
    · exact h.declare hevent.2

theorem Sound.applyAll {events : List Event} (h : p.Sound s names)
    (hevents : ∀ event ∈ events, event.Sound s names) : (p.applyAll events).Sound s names := by
  induction events generalizing p with
  | nil => exact h
  | cons event rest ih =>
    rw [List.forall_mem_cons] at hevents
    exact ih (h.apply hevents.1) hevents.2

theorem warning_ne_error : Severity.warning ≠ .error := by decide

theorem names_declare_eq (d : Binding.Declaration) : (p.declare d).names = p.names ++ [d.name] := by
  rw [names, declare, List.map_append]
  rfl

/-- An event takes no name away and leaves a helper of the name it asks for. -/
theorem names_apply (event : Event) :
    p.names ++ helperNames [event] ⊆ (p.apply event).names := by
  cases event with
  | report d => exact List.append_subset.mpr ⟨List.Subset.refl _, List.nil_subset _⟩
  | reportOnce name d =>
    refine List.append_subset.mpr ⟨?_, List.nil_subset _⟩
    unfold Progress.apply
    dsimp only
    split <;> exact List.Subset.refl _
  | helper d =>
    unfold Progress.apply
    dsimp only
    split
    · rename_i hhelper
      obtain ⟨d', hd', hname⟩ := List.any_eq_true.mp hhelper
      have hmem : d.name ∈ p.names := by
        rw [Bool.and_eq_true, decide_eq_true_eq, decide_eq_true_eq] at hname
        exact List.mem_map.mpr ⟨d', hd', hname.2⟩
      refine List.append_subset.mpr ⟨List.Subset.refl _, ?_⟩
      exact List.cons_subset.mpr ⟨hmem, List.nil_subset _⟩
    · rw [names_declare_eq]
      exact List.Subset.refl _

theorem names_applyAll (events : List Event) :
    p.names ++ helperNames events ⊆ (p.applyAll events).names := by
  induction events generalizing p with
  | nil => exact List.append_subset.mpr ⟨List.Subset.refl _, List.nil_subset _⟩
  | cons event rest ih =>
    have hstep := List.append_subset.mp (names_apply (p := p) event)
    have hrest := List.append_subset.mp (ih (p := p.apply event))
    have hhelpers : helperNames (event :: rest) = helperNames [event] ++ helperNames rest :=
      List.filterMap_append (l := [event])
    rw [hhelpers]
    refine List.append_subset.mpr ⟨List.Subset.trans hstep.1 hrest.1, ?_⟩
    exact List.append_subset.mpr ⟨List.Subset.trans hstep.2 hrest.1, hrest.2⟩

end Progress

/-! ## One node after the other -/

section

variable {s : Setting} {done : List Declaration} {p p' : Progress} {node : Declaration}

/-- A node that owes nothing changes nothing if only reports are made. -/
theorem Settled.skip (h : Settled s done p) (hnot : ¬ Owed s node) (hsound : p'.Sound s p.names)
    (hnames : p'.names = p.names) : Settled s (node :: done) p' := by
  refine ⟨hnames ▸ hsound, ?_⟩
  rw [hnames, List.forall_mem_cons]
  exact ⟨fun howed => absurd howed hnot, h.paid⟩

/-- What a node is mapped to settles what it owes. -/
theorem Settled.map (h : Settled s done p) {outcome : Outcome (Option Binding.Declaration)}
    {declaration : Option Binding.Declaration}
    (hmeets : Meets s p.names outcome (DeclarationOf s node))
    (hresult : outcome.result = .ok declaration) :
    Settled s (node :: done) (declaration.elim (p.applyAll outcome.events)
      (p.applyAll outcome.events).declare) := by
  have hsub := Progress.names_applyAll (p := p) outcome.events
  have hkept : p.names ⊆ (p.applyAll outcome.events).names := (List.append_subset.mp hsub).1
  have hafter : (p.applyAll outcome.events).Sound s (p.applyAll outcome.events).names :=
    (h.sound.mono hkept).applyAll fun event hevent => (hmeets.events event hevent).mono hsub
  obtain ⟨hdeclared, howes⟩ := hmeets.result declaration hresult
  cases declaration with
  | none =>
    refine ⟨hafter, List.forall_mem_cons.mpr ⟨fun howed => absurd rfl (howes howed), ?_⟩⟩
    exact fun other hother howed => hkept (h.paid other hother howed)
  | some d =>
    obtain ⟨hname, htext⟩ := hdeclared d rfl
    have hgrow : (p.applyAll outcome.events).names ⊆
        ((p.applyAll outcome.events).declare d).names := by
      rw [Progress.names_declare_eq]
      exact List.subset_append_left _ _
    refine ⟨(hafter.mono hgrow).declare fun text ht =>
      (htext text ht).mono (List.Subset.trans hsub hgrow), ?_⟩
    refine List.forall_mem_cons.mpr ⟨fun _ => ?_, fun other hother howed => ?_⟩
    · show escape node.name ∈ ((p.applyAll outcome.events).declare d).names
      rw [Progress.names_declare_eq, ← hname]
      exact List.mem_append_right _ (List.mem_singleton.mpr rfl)
    · exact hgrow (hkept (h.paid other hother howed))

/-- A step that does not fail keeps the state settled. -/
theorem settled_step (closed : Closed s.tree) (h : Settled s done p) (hnode : node ∈ s.tree.nodes)
    (hstep : step s p node = (p', none)) : Settled s (node :: done) p' := by
  unfold step at hstep
  split at hstep
  · rename_i hinline
    cases hstep
    exact h.skip (fun howed => by simp [howed.notInline] at hinline) h.sound rfl
  split at hstep
  · rename_i hignored
    have hnot : ¬ Owed s node := fun howed => by simp [howed.notIgnored] at hignored
    cases hstep
    split
    · have hreport := h.sound.report (d := ⟨.unmappable node.name
        "is both aliased and ignored; the ignore rule wins", some node.place⟩) Progress.warning_ne_error
      exact h.skip hnot ⟨hreport.spelled, hreport.graceful⟩ rfl
    · exact h.skip hnot ⟨h.sound.spelled, h.sound.graceful⟩ rfl
  split at hstep
  · rename_i target halias
    cases hstep
    exact h.skip (fun howed => by simp [howed.notAliased] at halias)
      ⟨h.sound.spelled, h.sound.graceful⟩ rfl
  · have hmeets : Meets s p.names (declaration? s node) (DeclarationOf s node) :=
      meets_declaration? closed hnode
    dsimp only at hstep
    split at hstep
    · rename_i d hresult
      cases hstep
      exact h.map hmeets hresult
    · rename_i hresult
      cases hstep
      exact h.map hmeets hresult
    · rename_i type hresult
      -- the tree is closed, so no type is missing
      exact absurd hresult (hmeets.found type)
    · cases hstep

/-- So does a run over any nodes of the tree. -/
theorem settled_steps (closed : Closed s.tree) (nodes : List Declaration)
    (hnodes : nodes ⊆ s.tree.nodes) (h : Settled s done p)
    (hsteps : steps s p nodes = (p', none)) : Settled s (nodes.reverse ++ done) p' := by
  induction nodes generalizing p done with
  | nil =>
    cases hsteps
    exact h
  | cons node rest ih =>
    unfold steps at hsteps
    rw [List.cons_subset] at hnodes
    split at hsteps
    · rename_i next hnext
      have hsettled := settled_step closed h hnodes.1 hnext
      rw [List.reverse_cons, List.append_assoc]
      exact ih hnodes.2 hsettled hsteps
    · cases hsteps

/-- Once every node had its turn, what is declared is spelled over declared names alone. -/
theorem Settled.closed (h : Settled s done p) (hdone : s.tree.nodes ⊆ done)
    {d : Binding.Declaration} (hd : d ∈ p.declarations) {text : String}
    (htext : text ∈ d.body.typeNames) :
    SpelledOver s.policy (fun base => ∃ other ∈ p.declarations, other.name = base) text := by
  refine SpelledOver.mono ?_ (h.sound.spelled d hd text htext)
  rintro base (hname | ⟨node, howed, rfl⟩)
  · exact List.mem_map.mp hname
  · exact List.mem_map.mp (h.paid node (hdone (node?_mem howed.found)) howed)

end

/-! ## The whole tree -/

/-- A tree without dangling references is mapped without errors, and the binding is closed: every
type a declaration makes use of is a type of the language, the target of an alias or declared in
the binding, with stars behind it. -/
theorem run_closed {s : Setting} {b : Binding.Bindings} (h : s.tree.danglingReferences = [])
    (hrun : (run s).bindings = .ok b) :
    (∀ d ∈ (run s).diagnostics, d.severity ≠ .error) ∧
    ∀ d ∈ b.declarations, ∀ text ∈ d.body.typeNames,
      SpelledOver s.policy (fun base => ∃ other ∈ b.declarations, other.name = base) text := by
  have closed := closed_of_danglingReferences h
  have hempty : Settled s [] {} :=
    ⟨⟨fun d hd => absurd hd List.not_mem_nil, fun d hd => absurd hd List.not_mem_nil⟩,
      fun node hnode => absurd hnode List.not_mem_nil⟩
  unfold run at hrun ⊢
  generalize hstart : (if s.bitness ≠ s.tree.bitness then
    Progress.report {} ⟨.bitnessMismatch s.tree.bitness s.bitness, none⟩ else {}) = start
    at hrun ⊢
  have hsettled : Settled s [] start := by
    subst hstart
    split
    · exact ⟨hempty.sound.report Progress.warning_ne_error, hempty.paid⟩
    · exact hempty
  dsimp only at hrun ⊢
  cases hsteps : steps s start s.tree.nodes with
  | mk p failure =>
    rw [hsteps] at hrun
    cases failure with
    | some failure => cases hrun
    | none =>
      cases hrun
      -- after the last step every node had its turn
      have hend := settled_steps closed s.tree.nodes (List.Subset.refl _) hsettled hsteps
      have hall : s.tree.nodes ⊆ s.tree.nodes.reverse ++ [] := by
        rw [List.append_nil]
        exact fun node hnode => List.mem_reverse.mpr hnode
      exact ⟨hend.sound.graceful, fun d hd text htext => hend.closed hall hd htext⟩

/-- A tree in which a record uses an array of enumerations, a typedef of `void`, an ignored record
and one that is replaced. -/
def sample : Setting where
  tree := ⟨"sample.h", 64, [
    ⟨"int", .primitive 4 4, none⟩,
    ⟨"void", .primitive 0 0, none⟩,
    ⟨"handle", .typedef ("void"), none⟩,
    ⟨"handle*", .pointer "handle" 8, none⟩,
    ⟨"mode", .enumeration "int" [⟨"OFF", 0, none⟩, ⟨"ON", 100000, none⟩], none⟩,
    ⟨"mode[3]", .array "mode" 3 12, none⟩,
    ⟨"secret", .record false [⟨"key", "int", 0, 4⟩] 4 4, none⟩,
    ⟨"color", .record false [⟨"rgb", "int", 0, 4⟩] 4 4, none⟩,
    ⟨"panel", .record false [⟨"owner", "handle*", 0, 8⟩, ⟨"modes", "mode[3]", 8, 12⟩,
      ⟨"hidden", "secret", 20, 4⟩, ⟨"back", "color", 24, 4⟩] 32 8, none⟩,
    ⟨"panel*", .pointer "panel" 8, none⟩,
    ⟨"draw", .function "handle" [⟨"", "panel*"⟩] false "cdecl", none⟩]⟩
  policy := ⟨"Sample", [⟨"color", "System.Drawing.Color"⟩], ["secret"], none⟩

theorem run_closed_sample :
    sample.tree.danglingReferences = [] ∧
    ∃ b, (run sample).bindings = .ok b ∧
      b.declarations.map (·.name) = ["mode", "FixedBuffer_Mode_three", "panel", "draw"] ∧
      (∀ d ∈ (run sample).diagnostics, d.severity ≠ .error) ∧
      ∀ d ∈ b.declarations, ∀ text ∈ d.body.typeNames,
        SpelledOver sample.policy (fun base => ∃ other ∈ b.declarations, other.name = base) text := by
  have hclosed : sample.tree.danglingReferences = [] := by decide +kernel
  have hnames : (run sample).bindings.toOption.map (·.declarations.map (·.name)) =
      some ["mode", "FixedBuffer_Mode_three", "panel", "draw"] := by decide +kernel
  refine ⟨hclosed, ?_⟩
  cases hrun : (run sample).bindings with
  | error failure =>
    rw [hrun] at hnames
    cases hnames
  | ok b =>
    rw [hrun] at hnames
    exact ⟨b, rfl, Option.some.inj hnames, run_closed hclosed hrun⟩

end CInterop.Mapping
