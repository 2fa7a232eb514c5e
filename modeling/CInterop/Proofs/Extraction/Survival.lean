import CInterop.Proofs.Extraction.Provenance
import CInterop.Proofs.Extraction.Settling

/-!
# What becomes of a declaration until the end

A declaration that is visited has a node of its own kind afterwards, or it is reported why it has none,
or something else had its name before. Later declarations leave the node as it is, and only a macro
that becomes a constant may replace it in the end. So a declaration is lost without a word only to
something else of the same name: a function or a variable to a constant, a typedef or a tag also to a
macro or a type that had the name before.
-/

namespace CInterop.Extraction

open FrontEnd Header
open Macro (Candidate)

/-! ## Settling macros -/

/-- What was told stands, and every node is left as it is, or replaced by a constant if its name is
one of these. -/
structure Replaces (M : String → Prop) (s s' : State) : Prop where
  wellFormed : s.registry.WellFormed → s'.registry.WellFormed
  diagnostics : s.diagnostics ⊆ s'.diagnostics
  replaced : ∀ name node, s.registry.node? name = some node →
    ∃ node', s'.registry.node? name = some node' ∧
      (node' = node ∨ (M name ∧ node'.kind = .constant))

namespace Build

variable {α β : Type} {c : Setting} {e : Entity} {s : State} {M : String → Prop}

/-- Settling all macros replaces nodes under their names only, and by constants only. -/
theorem replaces_settleMacros {s' : State} (hs : Pending s) (hM : ∀ m ∈ s.candidates, M m.name)
    (h : settleMacros c s = .ok () s') : Replaces M s s' := by
  obtain ⟨accepted, excluded, hsettlement⟩ := settleMacros_eq_ok hs h
  refine ⟨fun _ => hsettlement.wellFormed, hsettlement.excludes.subset, fun name node hnode => ?_⟩
  rcases hsettlement.kept name node hnode with hkept | ⟨constant, hconstant, rfl, hreplaced⟩
  · exact ⟨node, hkept, .inl rfl⟩
  · obtain ⟨m, hm, hname⟩ := hsettlement.name_of_mem hconstant
    exact ⟨constant, hreplaced, .inr ⟨hname ▸ hM m hm, hsettlement.kind_of_mem hconstant⟩⟩

/-! ## What a typedef and a tag leave -/

/-- The typedef gives a tag the name that the tag has anyway. -/
def NamesItsTag (c : Setting) (s : State) (e : Entity) : Prop :=
  ∃ tag s', c.translation.tag? e.underlying = some tag ∧ tagName c tag s = .ok e.spelling s'

/-- A node of one of the kinds stands under the name. -/
def Stands (s : State) (name : String) (kinds : List Kind) : Prop :=
  ∃ node, s.registry.node? name = some node ∧ node.kind ∈ kinds

section

variable {name : String} {s' : State}

/-- A name that is declared last stands. -/
theorem stands_of_declare {node : Declaration} {kinds : List Kind} (h : node.kind ∈ kinds)
    {given : String} (hresult : (do declare node; return given) s = .ok name s') :
    Stands s' node.name kinds := by
  cases hresult
  refine ⟨node, ?_, h⟩
  show (s.declare node).registry.node? node.name = some node
  rw [State.registry_declare, Registry.node?_declare, if_pos rfl]

theorem isReserved_eq_ok {reserved : Bool} (h : isReserved name s = .ok reserved s') :
    s' = s ∧ (reserved = true ↔ name ∈ s.registry.names) := by
  cases h
  exact ⟨rfl, Registry.has_iff_mem⟩

theorem namesItsTag_eq_ok (h : namesItsTag c e s = .ok true s') : NamesItsTag c s e := by
  unfold namesItsTag at h
  cases htag : c.translation.tag? e.underlying with
  | none =>
    rw [htag] at h
    cases h
  | some tag =>
    rw [htag] at h
    obtain ⟨name, s₁, hname, hsame⟩ := Steps.bind_eq_ok h
    have heq : decide (name = e.spelling) = true := (EStateM.Result.ok.inj hsame).1
    exact ⟨tag, s₁, htag, of_decide_eq_true heq ▸ hname⟩

/-- A typedef that is resolved is declared, unless its name was reserved before or is that of its
tag. -/
theorem typedef_stands (hplatform : platformTypedefs.contains e.spelling = false)
    (h : typedef c (resolve c) e s = .ok name s') :
    e.spelling ∈ s.registry.names ∨ NamesItsTag c s e ∨ Stands s' e.spelling [.typedef] := by
  unfold typedef at h
  rw [if_neg (by rw [hplatform]; decide)] at h
  obtain ⟨reserved, s₁, hreserved, hrest⟩ := Steps.bind_eq_ok h
  obtain ⟨rfl, hmem⟩ := isReserved_eq_ok hreserved
  split at hrest
  · exact .inl (hmem.mp ‹_›)
  obtain ⟨named, s₂, hnamed, hrest⟩ := Steps.bind_eq_ok hrest
  split at hrest
  · rename_i htrue
    exact .inr (.inl (namesItsTag_eq_ok (htrue ▸ hnamed)))
  · obtain ⟨_, _, -, hrest⟩ := Steps.bind_eq_ok hrest
    obtain ⟨_, _, -, hrest⟩ := Steps.bind_eq_ok hrest
    obtain ⟨underlying, _, -, hrest⟩ := Steps.bind_eq_ok hrest
    obtain ⟨_, _, -, hrest⟩ := Steps.bind_eq_ok hrest
    exact .inr (.inr (stands_of_declare (List.mem_singleton.mpr rfl) hrest))

/-- A tag whose name was not reserved before is declared by the steps that follow. -/
theorem rest_of_tagName {f : String → Build String} {given : String} {s₁ : State}
    (hname : tagName c e s = .ok name s₁)
    (h : (do
      let name ← tagName c e
      if ← isReserved name then return name
      f name) s = .ok given s') : name ∈ s.registry.names ∨ f name s₁ = .ok given s' := by
  have hquiet := quiet_of_ok (leads_tagName c e) hname
  obtain ⟨_, _, hname', hafter⟩ := Steps.bind_eq_ok h
  obtain ⟨rfl, rfl⟩ := EStateM.Result.ok.inj (hname.symm.trans hname')
  obtain ⟨reserved, s₂, hreserved, hrest⟩ := Steps.bind_eq_ok hafter
  obtain ⟨rfl, hmem⟩ := isReserved_eq_ok hreserved
  rw [hquiet.registry] at hmem
  clear hafter
  split at hrest
  · exact .inl (hmem.mp ‹_›)
  · exact .inr hrest

section

variable {t : TypeRef} {resolve : TypeRef → Build String} {given : String} {s₁ : State}

/-- A record that is resolved is declared, unless its name was reserved before. -/
theorem record_stands
    (hname : tagName c (c.entity (c.translation.definitionOf (c.type t).declaration)) s = .ok name s₁)
    (h : record c resolve t s = .ok given s') :
    name ∈ s.registry.names ∨ Stands s' name [.record, .incomplete] := by
  unfold record at h
  refine (rest_of_tagName hname h).imp_right fun hrest => ?_
  obtain ⟨_, _, -, hrest⟩ := Steps.bind_eq_ok hrest
  dsimp only at hrest
  split at hrest
  · obtain ⟨_, _, -, hrest⟩ := Steps.bind_eq_ok hrest
    exact stands_of_declare (List.mem_cons_of_mem _ (List.mem_singleton.mpr rfl)) hrest
  · obtain ⟨_, _, -, hrest⟩ := Steps.bind_eq_ok hrest
    obtain ⟨_, _, -, hrest⟩ := Steps.bind_eq_ok hrest
    obtain ⟨_, _, -, hrest⟩ := Steps.bind_eq_ok hrest
    exact stands_of_declare (List.mem_cons_self ..) hrest

theorem enumeration_stands
    (hname : tagName c (c.entity (c.translation.definitionOf (c.type t).declaration)) s = .ok name s₁)
    (h : enumeration c resolve t s = .ok given s') :
    name ∈ s.registry.names ∨ Stands s' name [.enumeration] := by
  unfold enumeration at h
  refine (rest_of_tagName hname h).imp_right fun hrest => ?_
  obtain ⟨_, _, -, hrest⟩ := Steps.bind_eq_ok hrest
  obtain ⟨_, _, -, hrest⟩ := Steps.bind_eq_ok hrest
  obtain ⟨_, _, -, hrest⟩ := Steps.bind_eq_ok hrest
  obtain ⟨_, _, -, hrest⟩ := Steps.bind_eq_ok hrest
  exact stands_of_declare (List.mem_singleton.mpr rfl) hrest

/-- Resolving a type applies the rule for the type that it stands for. -/
theorem resolveStep_of_resolveWithin {n steps : Nat}
    (hkind : (c.type (c.translation.unwrapWithin n t)).kind ≠ .elaborated)
    (h : resolveWithin c steps t s = .ok given s') :
    ∃ steps' left resolved, resolveStep c (resolveWithin c steps') (c.translation.unwrapWithin n t) s =
      .ok given left ∧ s' = { left with resolved } := by
  induction n generalizing steps t s' with
  | zero =>
    cases steps with
    | zero => cases h
    | succ steps =>
      obtain ⟨_, left, hstep, hnote⟩ := Steps.bind_eq_ok h
      cases hnote
      exact ⟨steps, left, _, hstep, rfl⟩
  | succ n ih =>
    cases steps with
    | zero => cases h
    | succ steps =>
      obtain ⟨_, left, hstep, hnote⟩ := Steps.bind_eq_ok h
      cases hnote
      unfold Translation.unwrapWithin at hkind ⊢
      split at hkind
      · rename_i helaborated
        rw [if_pos helaborated]
        unfold resolveStep at hstep
        change (c.type t).kind = .elaborated at helaborated
        rw [helaborated] at hstep
        obtain ⟨steps', left', _, hrule, rfl⟩ := ih hkind hstep
        exact ⟨steps', left', _, hrule, rfl⟩
      · rename_i helaborated
        rw [if_neg helaborated]
        exact ⟨steps, left, _, hstep, rfl⟩

end

end

/-! ## What becomes of a declaration -/

/-- What the tree is to hold of a declaration that is come to in a state: its name there, and the kinds
that its node may have. -/
inductive Declares (c : Setting) (s : State) (e : Entity) : String → List Kind → Prop where
  | function (hkind : e.kind = .function) (hstatic : e.isStatic = false) :
      Declares c s e e.spelling [.function]
  | global (hkind : e.kind = .global) (hstatic : e.isStatic = false) :
      Declares c s e e.spelling [.global]
  | typedef (hkind : e.kind = .typedef)
      (hplatform : platformTypedefs.contains e.spelling = false) (hown : ¬NamesItsTag c s e) :
      Declares c s e e.spelling [.typedef]
  | record {tag : Entity} {name : String} {s' : State} (hkind : e.kind.isRecord = true)
      (hnamed : isAnonymous e = false) (htag : c.translation.tag? e.type = some tag)
      (htype : (c.type (c.translation.unwrap e.type)).kind = .record)
      (hname : tagName c tag s = .ok name s') : Declares c s e name [.record, .incomplete]
  | enumeration {tag : Entity} {name : String} {s' : State} (hkind : e.kind = .enumeration)
      (htag : c.translation.tag? e.type = some tag)
      (htype : (c.type (c.translation.unwrap e.type)).kind = .enumeration)
      (hname : tagName c tag s = .ok name s') : Declares c s e name [.enumeration]

/-- Whether the declaration is reported when its name is taken. -/
def ReportsTaken (e : Entity) : Prop := e.kind = .function ∨ e.kind = .global

/-- What a visit leaves of a declaration: its node or a report of it, unless the declaration does not
report that its name is taken and the name was reserved. -/
def Found (c : Setting) (e : Entity) (s s' : State) (name : String) (kinds : List Kind) : Prop :=
  Stands s' name kinds ∨ (∃ d ∈ s'.diagnostics, IsReport c e d) ∨
    (¬ReportsTaken e ∧ name ∈ s.registry.names)

section

variable {s' : State} {name : String} {kinds : List Kind}

theorem Declares.constant_notMem (h : Declares c s e name kinds) : Kind.constant ∉ kinds := by
  cases h <;> decide

theorem Found.of_accounted {kind : Kind} (h : Accounted c e kind s') :
    Found c e s s' e.spelling [kind] := by
  rcases h with ⟨node, hnode, hkind⟩ | hreport
  · exact .inl ⟨node, hnode, List.mem_singleton.mpr hkind⟩
  · exact .inr (.inl hreport)

theorem Found.of_stands (hsilent : ¬ReportsTaken e)
    (h : name ∈ s.registry.names ∨ Stands s' name kinds) : Found c e s s' name kinds := by
  rcases h with hreserved | hstands
  · exact .inr (.inr ⟨hsilent, hreserved⟩)
  · exact .inl hstands

/-- A declaration that goes on was resolved or is reported. -/
theorem Found.of_declaration {body : Build α} (hs : Pending s) (hbody : Handles c e body)
    (h : declaration c e body s = .ok () s')
    (hresolved : ∀ a, body s = .ok a s' → Found c e s s' name kinds) :
    Found c e s s' name kinds := by
  rcases declaration_eq_ok h with ⟨a, hresult⟩ | ⟨spelling, left, hstrict, hresult⟩
  · exact hresolved a hresult
  · obtain ⟨undone, hdeclaration, -, -, -, hdiagnostics⟩ :=
      declaration_unresolved hs hbody hstrict hresult
    cases hdeclaration.symm.trans h
    refine .inr (.inl ⟨⟨.unresolvedType spelling e.spelling, some (c.placeText e)⟩, ?_, rfl,
      .inr ⟨spelling, rfl⟩⟩)
    rw [hdiagnostics]
    exact List.mem_append_right _ (List.mem_singleton.mpr rfl)

/-- Visiting an entity of the header goes on to the declaration. -/
theorem visitKind_of_visit (hfile : e.file.isSome = true) (hsystem : e.isInSystemHeader = false)
    (hignored : c.ignores e = false) : visit c e = visitKind c e := by
  unfold visit
  rw [if_neg (by rw [hsystem, Option.isNone_eq_false_iff.mpr hfile]; decide),
    if_neg (by rw [hignored]; decide)]

/-- A struct or a union with a name of its own is not passed over. -/
theorem declaration_of_visitKind (hkind : e.kind.isRecord = true) (hnamed : isAnonymous e = false)
    (h : visitKind c e s = .ok () s') : declaration c e (resolve c e.type) s = .ok () s' := by
  unfold visitKind at h
  cases heq : e.kind <;> rw [heq] at hkind h <;> cases hkind
  all_goals
    obtain ⟨_, _, hget, hrest⟩ := Steps.bind_eq_ok h
    cases hget
    rw [hnamed] at hrest
    exact hrest

/-- Resolving a type that names a tag applies the rule for the tag. -/
theorem rule_of_tag {t : TypeRef} {steps : Nat} {tag : Entity} {given : String}
    (htag : c.translation.tag? t = some tag) (h : resolveWithin c steps t s = .ok given s') :
    ∃ t' below left resolved, (c.type t').kind = (c.type (c.translation.unwrap t)).kind ∧
      tag = c.entity (c.translation.definitionOf (c.type t').declaration) ∧
      resolveStep c (resolveWithin c below) t' s = .ok given left ∧ s' = { left with resolved } := by
  have hkind : (c.type (c.translation.unwrap t)).kind ≠ .elaborated := by
    intro helaborated
    rcases kind_of_tag? htag with h | h <;> rw [helaborated] at h <;> cases h
  obtain ⟨below, left, resolved, hrule, hleft⟩ := resolveStep_of_resolveWithin hkind h
  refine ⟨c.translation.unwrap t, below, left, resolved, rfl, ?_, hrule, hleft⟩
  unfold Translation.tag? at htag
  dsimp only at htag
  split at htag
  case h_3 => cases htag
  all_goals
    cases htag
    rfl

theorem Stands.of_registry (h : Stands s name kinds) (hregistry : s'.registry = s.registry) :
    Stands s' name kinds := by
  unfold Stands
  rwa [hregistry]

theorem visit_found (hs : Pending s) (hfile : e.file.isSome = true)
    (hsystem : e.isInSystemHeader = false) (hignored : c.ignores e = false)
    (hdeclares : Declares c s e name kinds) (h : visit c e s = .ok () s') :
    Found c e s s' name kinds := by
  rw [visitKind_of_visit hfile hsystem hignored] at h
  unfold visitKind at h
  cases hdeclares with
  | function hkind hstatic =>
    rw [hkind] at h
    refine .of_declaration hs (.function hkind) h fun _ hresult => ?_
    have hdone := leads_ok leads_function_completes hresult
    exact .of_accounted (hdone.2 hstatic)
  | global hkind hstatic =>
    rw [hkind] at h
    refine .of_declaration hs (.global hkind) h fun _ hresult => ?_
    have hdone := leads_ok leads_global_completes hresult
    exact .of_accounted (hdone.2 hstatic)
  | typedef hkind hplatform hown =>
    have hsilent : ¬ReportsTaken e := by
      rintro (heq | heq) <;> rw [hkind] at heq <;> cases heq
    rw [hkind] at h
    refine .of_declaration hs (.typedef hkind) h fun _ hresult => .of_stands hsilent ?_
    exact (typedef_stands hplatform hresult).imp_right fun hnames => hnames.resolve_left hown
  | record hkind hnamed htag htype hname =>
    have hsilent : ¬ReportsTaken e := by
      rintro (heq | heq) <;> rw [heq] at hkind <;> cases hkind
    have hdeclaration := declaration_of_visitKind hkind hnamed h
    refine .of_declaration hs (.tag (.inl hkind)) hdeclaration fun _ hresult => ?_
    obtain ⟨t, below, left, _, hrecord, rfl, hrule, rfl⟩ := rule_of_tag htag hresult
    unfold resolveStep at hrule
    rw [hrecord, htype] at hrule
    exact .of_stands hsilent
      ((record_stands hname hrule).imp_right fun hstands => hstands.of_registry rfl)
  | enumeration hkind htag htype hname =>
    have hsilent : ¬ReportsTaken e := by
      rintro (heq | heq) <;> rw [hkind] at heq <;> cases heq
    rw [hkind] at h
    refine .of_declaration hs (.tag (.inr hkind)) h fun _ hresult => ?_
    obtain ⟨t, below, left, _, henumeration, rfl, hrule, rfl⟩ := rule_of_tag htag hresult
    unfold resolveStep at hrule
    rw [henumeration, htype] at hrule
    exact .of_stands hsilent
      ((enumeration_stands hname hrule).imp_right fun hstands => hstands.of_registry rfl)

theorem proceeds_forM {es : List Entity} (hs : Pending s) (h : es.forM (visit c) s = .ok () s') :
    Proceeds es s s' := by
  induction es generalizing s with
  | nil =>
    cases h
    exact .refl hs
  | cons e rest ih =>
    obtain ⟨_, s₁, hvisit, hrest⟩ := Steps.bind_eq_ok h
    have hfirst := proceeds_visit hs hvisit
    exact hfirst.append (ih hfirst.pending hrest)

/-- The three parts of a run, with the nodes that stand in the end. -/
theorem tree_eq_ok {t : Declarations} (h : tree c s = .ok t s') :
    ∃ named visited, nameTagsByTypedefs c s = .ok () named ∧
      c.translation.topLevel.forM (visit c) named = .ok () visited ∧
      settleMacros c visited = .ok () s' ∧ t.nodes = s'.registry.nodes := by
  unfold tree at h
  obtain ⟨_, named, hnames, hrest⟩ := Steps.bind_eq_ok h
  obtain ⟨_, visited, hvisits, hrest⟩ := Steps.bind_eq_ok hrest
  obtain ⟨_, settled, hsettles, hrest⟩ := Steps.bind_eq_ok hrest
  obtain ⟨_, _, hget, hreturn⟩ := Steps.bind_eq_ok hrest
  cases hget
  obtain ⟨htree, hstate⟩ := EStateM.Result.ok.inj hreturn
  subst hstate
  exact ⟨named, visited, hnames, hvisits, hsettles, by rw [← htree]⟩

end

/-- What stands after the visits stands in the tree, or a constant does. -/
theorem mem_nodes_of_replaces {visited s : State} {t : Declarations} {name : String}
    {node : Declaration} (hpending : Pending visited) (h : Replaces M visited s)
    (hnodes : t.nodes = s.registry.nodes) (hnode : visited.registry.node? name = some node) :
    ∃ node' ∈ t.nodes, node'.name = name ∧
      (node' = node ∨ (M name ∧ node'.kind = .constant)) := by
  obtain ⟨node', hnode', hreplaced⟩ := h.replaced name node hnode
  have hwell := h.wellFormed hpending.wellFormed
  obtain rfl := hwell.named name node' hnode'
  rw [hnodes]
  exact ⟨node', (Registry.mem_nodes_iff hwell).mpr hnode', rfl, hreplaced⟩

/-- The name is that of a macro among the entities. -/
def NamesMacro (es : List Entity) (name : String) : Prop :=
  ∃ m ∈ es, m.kind = .constant ∧ m.spelling = name

/-- The macros that were collected are among the entities that were visited. -/
theorem macro_of_candidate {es : List Entity} {named visited : State}
    (hcandidates : named.candidates = []) (h : Proceeds es named visited)
    {m : Candidate} (hm : m ∈ visited.candidates) : NamesMacro es m.name := by
  refine (h.candidates m hm).resolve_left fun hold => ?_
  rw [hcandidates] at hold
  exact List.not_mem_nil hold

/-- The visit of an entity, between those of the entities before and after it. -/
theorem visits_eq_ok {before after : List Entity} (htop : c.translation.topLevel = before ++ e :: after)
    (h : c.translation.topLevel.forM (visit c) s = .ok () s') :
    ∃ s₁ s₂, before.forM (visit c) s = .ok () s₁ ∧ visit c e s₁ = .ok () s₂ ∧
      after.forM (visit c) s₂ = .ok () s' := by
  have hsplit : c.translation.topLevel.forM (visit c) =
      (do before.forM (visit c); (e :: after).forM (visit c)) := by
    rw [htop]
    exact List.forM_append
  rw [hsplit] at h
  obtain ⟨_, s₁, hbefore, hrest⟩ := Steps.bind_eq_ok h
  obtain ⟨_, s₂, hvisit, hafter⟩ := Steps.bind_eq_ok hrest
  exact ⟨s₁, s₂, hbefore, hvisit, hafter⟩

/-- An entity in the run over a header: what comes before it, its own visit, and what the rest of the run
leaves of that. -/
structure Passes (c : Setting) (before : List Entity) (e : Entity) (s₀ s₁ s₂ s : State)
    (t : Declarations) : Prop where
  prior : (do nameTagsByTypedefs c; before.forM (visit c)) s₀ = .ok () s₁
  pending : Pending s₁
  collected : ∀ m ∈ s₁.candidates, NamesMacro before m.name
  visit : visit c e s₁ = .ok () s₂
  stands : ∀ name node, s₂.registry.node? name = some node → ∃ node' ∈ t.nodes, node'.name = name ∧
    (node' = node ∨ (NamesMacro c.translation.topLevel name ∧ node'.kind = .constant))
  diagnostics : s₂.diagnostics ⊆ s.diagnostics

theorem exists_passes {before after : List Entity} {s₀ s : State} {t : Declarations}
    (hregistry : s₀.registry = {}) (hcandidates : s₀.candidates = [])
    (htop : c.translation.topLevel = before ++ e :: after) (htree : tree c s₀ = .ok t s) :
    ∃ s₁ s₂, Passes c before e s₀ s₁ s₂ s t := by
  obtain ⟨named, visited, hnames, hvisits, hsettles, hnodes⟩ := tree_eq_ok htree
  obtain ⟨s₁, s₂, hbefore, hvisit, hafter⟩ := visits_eq_ok htop hvisits
  have hquiet := quiet_of_ok leads_nameTagsByTypedefs hnames
  have hnone : named.candidates = [] := hquiet.candidates.trans hcandidates
  have hnamed := pending_of_between (.start hregistry hcandidates hnames)
  -- nothing that stood before is changed by the visits, and in the end only macros replace nodes
  have hfirst := proceeds_forM hnamed hbefore
  have hown := proceeds_visit hfirst.pending hvisit
  have hlater := proceeds_forM hown.pending hafter
  have hall : Proceeds c.translation.topLevel named visited := by
    rw [htop]
    exact hfirst.append (hown.append hlater)
  have hsettled := replaces_settleMacros (M := NamesMacro c.translation.topLevel) hlater.pending
    (fun m hm => macro_of_candidate hnone hall hm) hsettles
  refine ⟨s₁, s₂, ?_, hfirst.pending, fun m hm => macro_of_candidate hnone hfirst hm, hvisit,
    fun name node hnode => ?_, List.Subset.trans hlater.diagnostics hsettled.diagnostics⟩
  · show EStateM.bind _ _ s₀ = _
    rw [EStateM.bind, hnames]
    exact hbefore
  · exact mem_nodes_of_replaces hlater.pending hsettled hnodes (hlater.kept name node hnode)

/-- Where a declaration of the header is to be found in the end, if it is come to after others: the
tree has a node of its kind under its name, or it is reported, or a macro of the same name became a
constant. A typedef or a tag may also have been given up without a word, for a macro of the same name
that was defined before or for another type with that name. -/
theorem tree_accounts {before after : List Entity} {s₀ s : State} {t : Declarations}
    (hregistry : s₀.registry = {}) (hcandidates : s₀.candidates = [])
    (htop : c.translation.topLevel = before ++ e :: after) (hfile : e.file.isSome = true)
    (hsystem : e.isInSystemHeader = false) (hignored : c.ignores e = false)
    (htree : tree c s₀ = .ok t s) :
    ∃ s₁, (do nameTagsByTypedefs c; before.forM (visit c)) s₀ = .ok () s₁ ∧
      ∀ name kinds, Declares c s₁ e name kinds →
        (∃ node ∈ t.nodes, node.name = name ∧ node.kind ∈ kinds) ∨
        (∃ d ∈ s.diagnostics, IsReport c e d) ∨
        (NamesMacro c.translation.topLevel name ∧
          ∃ node ∈ t.nodes, node.name = name ∧ node.kind = .constant) ∨
        (¬ReportsTaken e ∧ (NamesMacro before name ∨
          ∃ node ∈ t.nodes, node.name = name ∧ node.kind ∉ kinds)) := by
  obtain ⟨s₁, s₂, hpasses⟩ := exists_passes hregistry hcandidates htop htree
  refine ⟨s₁, hpasses.prior, fun name kinds hdeclares => ?_⟩
  have hstands (h : Stands s₂ name kinds) :
      (∃ node ∈ t.nodes, node.name = name ∧ node.kind ∈ kinds) ∨
      (NamesMacro c.translation.topLevel name ∧
        ∃ node ∈ t.nodes, node.name = name ∧ node.kind = .constant) := by
    obtain ⟨node, hnode, hkind⟩ := h
    obtain ⟨node', hmem, hname, rfl | ⟨hdefined, hconstant⟩⟩ := hpasses.stands name node hnode
    · exact .inl ⟨node', hmem, hname, hkind⟩
    · exact .inr ⟨hdefined, node', hmem, hname, hconstant⟩
  rcases visit_found hpasses.pending hfile hsystem hignored hdeclares hpasses.visit with
    hfound | ⟨d, hd, hreport⟩ | ⟨hsilent, hreserved⟩
  · rcases hstands hfound with hown | hdefined
    · exact .inl hown
    · exact .inr (.inr (.inl hdefined))
  · exact .inr (.inl ⟨d, hpasses.diagnostics hd, hreport⟩)
  · cases hnode : s₁.registry.node? name with
    | none =>
      obtain ⟨m, hm, rfl⟩ := hpasses.pending.waiting name hreserved hnode
      exact .inr (.inr (.inr ⟨hsilent, .inl (hpasses.collected m hm)⟩))
    | some node =>
      have hkept := (proceeds_visit hpasses.pending hpasses.visit).kept name node hnode
      by_cases hkind : node.kind ∈ kinds
      · rcases hstands ⟨node, hkept, hkind⟩ with hown | hdefined
        · exact .inl hown
        · exact .inr (.inr (.inl hdefined))
      · obtain ⟨node', hmem, hname, hreplaced⟩ := hpasses.stands name node hkept
        refine .inr (.inr (.inr ⟨hsilent, .inr ⟨node', hmem, hname, ?_⟩⟩))
        rcases hreplaced with rfl | ⟨-, hconstant⟩
        · exact hkind
        · rw [hconstant]
          exact hdeclares.constant_notMem

/-- A header that defines a type and a macro of the same name. The front end gives macros first. -/
def statusHeader : Translation where
  types := #[{ kind := .scalar .int, spelling := "int", size := 4, align := 4 }]
  entities := #[
    { kind := .constant, spelling := "status", file := some "/work/test.h", line := 2
      tokens := [⟨"status", 28, 34⟩, ⟨"3", 35, 36⟩] },
    { kind := .typedef, spelling := "status", file := some "/work/test.h", line := 1
      underlying := ⟨some 0⟩ },
    { kind := .global, spelling := "__sharpbindgen_status", type := ⟨some 0⟩ }]
  header := { top := [⟨some 0⟩, ⟨some 1⟩] }
  typing := { top := [⟨some 2⟩] }

def statusSetting : Setting where
  translation := statusHeader
  header := "/work/test.h"
  directory := "/work"
  bitness := 64
  arguments := []
  rules := ⟨[]⟩
  isStrict := false
  isVerbose := false

/-- The typedef of that header is lost to the macro, and nothing is told about it. -/
theorem tree_accounts_statusSetting :
    ∃ t s s₁, tree statusSetting {} = .ok t s ∧
      t.nodes.map (fun node => (node.name, node.kind)) =
        [("status", .constant), ("int", .primitive)] ∧
      s.diagnostics = [] ∧
      Declares statusSetting s₁ (statusHeader.entity ⟨some 1⟩) "status" [.typedef] ∧
      ((NamesMacro statusHeader.topLevel "status" ∧
          ∃ node ∈ t.nodes, node.name = "status" ∧ node.kind = .constant) ∨
        NamesMacro [statusHeader.entity ⟨some 0⟩] "status" ∨
        ∃ node ∈ t.nodes, node.name = "status" ∧ node.kind ∉ [Kind.typedef]) := by
  have hresult : hasResult (tree statusSetting) {} (fun t s =>
      decide (t.nodes.map (fun node => (node.name, node.kind)) =
        [("status", .constant), ("int", .primitive)]) && s.diagnostics.isEmpty) = true := by
    decide +kernel
  obtain ⟨t, s, htree, htest⟩ := eq_ok_of_hasResult hresult
  simp only [Bool.and_eq_true, decide_eq_true_eq, List.isEmpty_iff] at htest
  obtain ⟨hnodes, hdiagnostics⟩ := htest
  have htop : statusSetting.translation.topLevel =
      [statusHeader.entity ⟨some 0⟩] ++ statusHeader.entity ⟨some 1⟩ :: [] := rfl
  obtain ⟨s₁, -, haccounts⟩ :=
    tree_accounts rfl rfl htop rfl rfl (by decide +kernel) htree
  have hdeclares :
      Declares statusSetting s₁ (statusHeader.entity ⟨some 1⟩) "status" [.typedef] := by
    refine .typedef rfl (by decide) ?_
    rintro ⟨tag, _, htag, -⟩
    cases htag
  refine ⟨t, s, s₁, htree, hnodes, hdiagnostics, hdeclares, ?_⟩
  rcases haccounts _ _ hdeclares with ⟨node, hnode, -, hkind⟩ | ⟨d, hd, -⟩ | hdefined | ⟨-, hother⟩
  · have hmem : (node.name, node.kind) ∈ [("status", Kind.constant), ("int", .primitive)] :=
      hnodes ▸ List.mem_map_of_mem hnode
    rw [List.mem_singleton.mp hkind] at hmem
    simp at hmem
  · rw [hdiagnostics] at hd
    cases hd
  · exact .inl hdefined
  · exact .inr hother

end Build
end CInterop.Extraction
