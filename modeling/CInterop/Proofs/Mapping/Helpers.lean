import Mathlib.Data.Finset.Card
import CInterop.Proofs.Mapping.Shadowed
import CInterop.Proofs.Mapping.Spelling
import CInterop.Proofs.Success

/-!
# Helpers are declared once and before use

Whether a helper is declared already can be looked up in a register of names that is kept beside the
declarations. Both are put back together when a node is left out, so between two nodes the register holds
the names of the helpers, and no name twice. Every declaration that is kept comes after the helpers that it
was made with, also where such a helper was declared before for a node that was left out.
-/

namespace CInterop.Mapping

open Header
open Binding (TypeUse)

/-! ## A register of helpers -/

/-- The names of the helpers among declarations. -/
def helpersIn (declarations : List Binding.Declaration) : List String :=
  (declarations.filter (·.kind = .fixedBuffer)).map (·.name)

/-- The progress with a register of the names of its helpers. -/
structure Register where
  progress : Progress := {}
  names : Finset String := ∅

namespace Register

/-- What an event adds, where a helper is looked up in the register only. -/
def apply (r : Register) : Event → Register
  | .helper d => if d.name ∈ r.names then r else ⟨r.progress.declare d, insert d.name r.names⟩
  | event => ⟨r.progress.apply event, r.names⟩

/-- What a list of events adds. -/
def applyAll (r : Register) (events : List Event) : Register := events.foldl apply r

/-- Takes back what was declared behind the mark, with the names in the register. -/
def rollBack (r : Register) (mark : Nat) : Register where
  progress := { r.progress with declarations := r.progress.declarations.take mark }
  names := r.names \ ((r.progress.declarations.drop mark).map (·.name)).toFinset

/-- One more node; a failure ends the run. -/
def step (s : Setting) (r : Register) (node : Declaration) : Register × Option Failure :=
  if isMapped s node then
    let after := r.applyAll (declaration? s node).events
    match (declaration? s node).result with
    | .ok declaration =>
      ({ after with progress := declaration.elim after.progress after.progress.declare }, none)
    | .error (.dangling type) =>
      let before := after.rollBack r.progress.declarations.length
      (⟨before.progress.report ⟨.danglingType type node.name, some node.place⟩, before.names⟩, none)
    | .error (.failed failure) => (after, some failure)
  else ({ r with progress := (Mapping.step s r.progress node).1 }, none)

/-- All nodes, up to a failure. -/
def steps (s : Setting) (r : Register) : List Declaration → Register × Option Failure
  | [] => (r, none)
  | node :: rest =>
    match step s r node with
    | (r, none) => steps s r rest
    | (r, some failure) => (r, some failure)

/-- The register holds the names of the helpers that are declared, each of which is declared once. -/
structure InStep (r : Register) : Prop where
  names : r.names = (helpersIn r.progress.declarations).toFinset
  nodup : (helpersIn r.progress.declarations).Nodup

end Register

section

variable {s : Setting} {p : Progress} {d : Binding.Declaration} {declarations : List Binding.Declaration}

theorem helpersIn_append (declarations more : List Binding.Declaration) :
    helpersIn (declarations ++ more) = helpersIn declarations ++ helpersIn more := by
  rw [helpersIn, List.filter_append, List.map_append]
  rfl

theorem helpersIn_singleton (h : d.kind = .fixedBuffer) : helpersIn [d] = [d.name] := by
  rw [helpersIn, List.filter_cons_of_pos (by simpa using h)]
  rfl

theorem helpersIn_singleton_of_ne (h : d.kind ≠ .fixedBuffer) : helpersIn [d] = [] := by
  rw [helpersIn, List.filter_cons_of_neg (by simpa using h)]
  rfl

/-- Where there are helpers only, they are all that is there. -/
theorem helpersIn_eq_map (h : ∀ d ∈ declarations, d.kind = .fixedBuffer) :
    helpersIn declarations = declarations.map (·.name) := by
  rw [helpersIn, List.filter_eq_self.mpr fun d hd => by simpa using h d hd]

theorem mem_helpersIn {name : String} :
    name ∈ helpersIn declarations ↔ ∃ d ∈ declarations, d.kind = .fixedBuffer ∧ d.name = name := by
  simp [helpersIn, and_assoc]

theorem hasHelper_iff {name : String} :
    p.hasHelper name = true ↔ name ∈ helpersIn p.declarations := by
  simp [Progress.hasHelper, mem_helpersIn]

/-! ## What events declare -/

/-- An event declares at most the helper it asks for. -/
theorem declarations_apply {event : Event} (h : event.Arises s) :
    ∃ more, (p.apply event).declarations = p.declarations ++ more ∧
      ∀ d ∈ more, d.kind = .fixedBuffer := by
  cases h with
  | unmappable => exact ⟨[], (List.append_nil _).symm, List.forall_mem_nil _⟩
  | unusual | ignored =>
    refine ⟨[], ?_, List.forall_mem_nil _⟩
    unfold Progress.apply
    dsimp only
    split <;> exact (List.append_nil _).symm
  | @helper d _ hkind =>
    unfold Progress.apply
    dsimp only
    split
    · exact ⟨[], (List.append_nil _).symm, List.forall_mem_nil _⟩
    · exact ⟨[d], rfl, List.forall_mem_singleton.mpr hkind⟩

theorem declarations_applyAll {events : List Event} (h : ∀ event ∈ events, event.Arises s) :
    ∃ more, (p.applyAll events).declarations = p.declarations ++ more ∧
      ∀ d ∈ more, d.kind = .fixedBuffer := by
  induction events generalizing p with
  | nil => exact ⟨[], (List.append_nil _).symm, List.forall_mem_nil _⟩
  | cons event rest ih =>
    rw [List.forall_mem_cons] at h
    obtain ⟨first, hfirst, hkinds⟩ := declarations_apply (p := p) h.1
    obtain ⟨more, hmore, hkinds'⟩ := ih (p := p.apply event) h.2
    refine ⟨first ++ more, ?_, List.forall_mem_append.mpr ⟨hkinds, hkinds'⟩⟩
    rw [← List.append_assoc, ← hfirst]
    exact hmore

theorem helpersIn_subset_of_append {declarations' more : List Binding.Declaration}
    (h : declarations' = declarations ++ more) : helpersIn declarations ⊆ helpersIn declarations' := by
  rw [h, helpersIn_append]
  exact List.subset_append_left _ _

/-- Once an event had its turn, there is the helper it asks for. -/
theorem helperNames_apply {event : Event} (h : event.Arises s) :
    helperNames [event] ⊆ helpersIn (p.apply event).declarations := by
  cases h with
  | unmappable | unusual | ignored => exact List.nil_subset _
  | @helper d _ hkind =>
    refine List.cons_subset.mpr ⟨?_, List.nil_subset _⟩
    unfold Progress.apply
    dsimp only
    split
    · exact hasHelper_iff.mp ‹_›
    · exact mem_helpersIn.mpr ⟨d, List.mem_append_right _ (List.mem_singleton.mpr rfl), hkind, rfl⟩

theorem helperNames_applyAll {events : List Event} (h : ∀ event ∈ events, event.Arises s) :
    helperNames events ⊆ helpersIn (p.applyAll events).declarations := by
  induction events generalizing p with
  | nil => exact List.nil_subset _
  | cons event rest ih =>
    rw [List.forall_mem_cons] at h
    obtain ⟨more, hmore, -⟩ := declarations_applyAll (p := p.apply event) h.2
    have hfirst := List.Subset.trans (helperNames_apply (p := p) h.1) (helpersIn_subset_of_append hmore)
    have hnames : helperNames (event :: rest) = helperNames [event] ++ helperNames rest :=
      List.filterMap_append (l := [event])
    rw [hnames]
    exact List.append_subset.mpr ⟨hfirst, ih h.2⟩

end

/-! ## The register stays in step -/

namespace Register

variable {s : Setting} {r : Register}

theorem InStep.apply {event : Event} (h : r.InStep) (hevent : event.Arises s) :
    (r.apply event).InStep ∧ (r.apply event).progress = r.progress.apply event := by
  cases hevent with
  | unmappable => exact ⟨⟨h.names, h.nodup⟩, rfl⟩
  | unusual | ignored =>
    refine ⟨?_, rfl⟩
    unfold Register.apply Progress.apply
    dsimp only
    split <;> exact ⟨h.names, h.nodup⟩
  | @helper d _ hkind =>
    have hlookup : r.progress.hasHelper d.name = true ↔ d.name ∈ r.names := by
      rw [hasHelper_iff, h.names, List.mem_toFinset]
    by_cases hmem : d.name ∈ r.names
    · have hsame : r.apply (.helper d) = r := if_pos hmem
      rw [hsame]
      exact ⟨h, (if_pos (hlookup.mpr hmem)).symm⟩
    · have hnew : r.apply (.helper d) = ⟨r.progress.declare d, insert d.name r.names⟩ := if_neg hmem
      have hhelpers : helpersIn (r.progress.declare d).declarations =
          helpersIn r.progress.declarations ++ [d.name] := by
        rw [← helpersIn_singleton hkind]
        exact helpersIn_append _ _
      rw [hnew]
      refine ⟨⟨?_, ?_⟩, (if_neg (mt hlookup.mp hmem)).symm⟩
      · rw [hhelpers, List.toFinset_append, ← h.names, Finset.union_comm]
        rfl
      · rw [hhelpers, List.nodup_append]
        rw [h.names, List.mem_toFinset] at hmem
        exact ⟨h.nodup, List.nodup_singleton _, fun a ha b hb hab => hmem
          (List.mem_singleton.mp hb ▸ hab ▸ ha)⟩

theorem InStep.applyAll {events : List Event} (h : r.InStep)
    (hevents : ∀ event ∈ events, event.Arises s) :
    (r.applyAll events).InStep ∧ (r.applyAll events).progress = r.progress.applyAll events := by
  induction events generalizing r with
  | nil => exact ⟨h, rfl⟩
  | cons event rest ih =>
    rw [List.forall_mem_cons] at hevents
    obtain ⟨hfirst, hprogress⟩ := h.apply hevents.1
    obtain ⟨hrest, hall⟩ := ih hfirst hevents.2
    refine ⟨hrest, hall.trans ?_⟩
    rw [hprogress]
    rfl

/-- Taking the helpers back restores the register. -/
theorem InStep.rollBack {events : List Event} (h : r.InStep)
    (hevents : ∀ event ∈ events, event.Arises s) :
    (r.applyAll events).rollBack r.progress.declarations.length =
      ⟨{ r.progress.applyAll events with declarations := r.progress.declarations }, r.names⟩ := by
  obtain ⟨hafter, hprogress⟩ := h.applyAll hevents
  obtain ⟨more, hmore, hkinds⟩ := declarations_applyAll (p := r.progress) hevents
  have hnodup := hafter.nodup
  rw [hprogress, hmore, helpersIn_append, helpersIn_eq_map hkinds, List.nodup_append] at hnodup
  have hnames : (r.applyAll events).names = r.names ∪ (more.map (·.name)).toFinset := by
    rw [hafter.names, hprogress, hmore, helpersIn_append, helpersIn_eq_map hkinds,
      List.toFinset_append, ← h.names]
  have hdisjoint : Disjoint r.names (more.map (·.name)).toFinset := by
    rw [h.names, Finset.disjoint_left]
    intro name hname hmem
    exact hnodup.2.2 name (List.mem_toFinset.mp hname) name (List.mem_toFinset.mp hmem) rfl
  rw [Register.rollBack, hnames, hprogress, hmore, List.take_left, List.drop_left,
    Finset.union_sdiff_right, Finset.sdiff_eq_self_of_disjoint hdisjoint]

/-- After any node the register is in step again, and made no difference. -/
theorem InStep.step (s : Setting) (node : Declaration) (h : r.InStep) :
    (Register.step s r node).1.InStep ∧
      (Register.step s r node).1.progress = (Mapping.step s r.progress node).1 ∧
      (Register.step s r node).2 = (Mapping.step s r.progress node).2 := by
  have hevents := expected_declaration? (s := s) node
  unfold Register.step
  cases hmapped : isMapped s node with
  | false =>
    obtain ⟨next, hnext, hdeclarations, -⟩ := step_of_not_mapped hmapped r.progress
    rw [if_neg Bool.false_ne_true, hnext]
    exact ⟨⟨by rw [hdeclarations]; exact h.names, by rw [hdeclarations]; exact h.nodup⟩, rfl, rfl⟩
  | true =>
    obtain ⟨hafter, hprogress⟩ := h.applyAll hevents
    rw [if_pos rfl, step_of_mapped hmapped]
    dsimp only
    cases hresult : (declaration? s node).result with
    | ok declaration =>
      cases declaration with
      | none => exact ⟨hafter, hprogress, rfl⟩
      | some d =>
        have hkind := ((explains_declaration? _ hresult).stands d rfl).kind_ne
        have hhelpers : helpersIn ((r.applyAll _).progress.declare d).declarations =
            helpersIn (r.applyAll (declaration? s node).events).progress.declarations :=
          (helpersIn_append _ _).trans (by rw [helpersIn_singleton_of_ne hkind, List.append_nil])
        refine ⟨⟨?_, ?_⟩, ?_, rfl⟩
        · exact hafter.names.trans (congrArg _ hhelpers.symm)
        · exact hhelpers ▸ hafter.nodup
        · exact congrArg (Progress.declare · d) hprogress
    | error reason =>
      cases reason with
      | dangling type =>
        dsimp only
        rw [h.rollBack hevents]
        exact ⟨⟨h.names, h.nodup⟩, rfl, rfl⟩
      | failed failure => exact ⟨hafter, hprogress, rfl⟩

theorem InStep.steps (s : Setting) (nodes : List Declaration) (h : r.InStep) :
    (Register.steps s r nodes).1.InStep ∧
      (Register.steps s r nodes).1.progress = (Mapping.steps s r.progress nodes).1 ∧
      (Register.steps s r nodes).2 = (Mapping.steps s r.progress nodes).2 := by
  induction nodes generalizing r with
  | nil => exact ⟨h, rfl, rfl⟩
  | cons node rest ih =>
    obtain ⟨hnext, hprogress, hfailure⟩ := h.step s node
    unfold Register.steps Mapping.steps
    generalize Register.step s r node = reached at hnext hprogress hfailure ⊢
    generalize Mapping.step s r.progress node = reached' at hprogress hfailure ⊢
    obtain ⟨next, failure⟩ := reached
    obtain ⟨next', failure'⟩ := reached'
    obtain rfl : failure = failure' := hfailure
    obtain rfl : next.progress = next' := hprogress
    cases failure with
    | none => exact ih hnext
    | some failure => exact ⟨hnext, rfl, rfl⟩

theorem inStep_initial (s : Setting) : InStep ⟨initial s, ∅⟩ := by
  unfold initial
  split <;> exact ⟨rfl, List.nodup_nil⟩

end Register

/-! ## Before use -/

/-- The node is mapped, with a declaration or without one. -/
def Survives (s : Setting) (node : Declaration) : Prop :=
  isMapped s node = true ∧ ∃ declaration, (declaration? s node).result = .ok declaration

/-- The declaration is what the node is mapped to, or a helper on the way there, with those events before
it. -/
inductive MadeAfter (s : Setting) (node : Declaration) : List Event → Binding.Declaration → Prop where
  | node {d : Binding.Declaration} (h : (declaration? s node).result = .ok (some d)) :
      MadeAfter s node (declaration? s node).events d
  | helper {before after : List Event} {d : Binding.Declaration}
      (h : (declaration? s node).events = before ++ .helper d :: after) : MadeAfter s node before d

/-- The declaration was made for a node that is mapped, and all helpers that were asked for until then are
declared. -/
def ComesAfter (s : Setting) (before : List Binding.Declaration) (d : Binding.Declaration) : Prop :=
  ∃ node ∈ s.tree.nodes, Survives s node ∧ ∃ events, MadeAfter s node events d ∧
    helperNames events ⊆ helpersIn before

/-- Every declaration comes after its helpers. -/
def Progress.Ordered (s : Setting) (p : Progress) : Prop :=
  ∀ before d after, p.declarations = before ++ d :: after → ComesAfter s before d

namespace Progress

variable {s : Setting} {p : Progress}

theorem Ordered.declare {d : Binding.Declaration} (h : p.Ordered s)
    (hd : ComesAfter s p.declarations d) : (p.declare d).Ordered s := by
  intro before other after hsplit
  have hsplit : p.declarations ++ [d] = before ++ other :: after := hsplit
  rcases List.eq_nil_or_concat after with rfl | ⟨after, last, rfl⟩
  · obtain ⟨rfl, hlast⟩ := List.append_inj' hsplit rfl
    cases hlast
    exact hd
  · rw [List.concat_eq_append, ← List.cons_append, ← List.append_assoc] at hsplit
    exact h before other after (List.append_inj' hsplit rfl).1

/-- A helper that an event declares comes after those asked for before. -/
theorem Ordered.apply {node : Declaration} {done rest : List Event} {event : Event}
    (h : p.Ordered s) (hnode : node ∈ s.tree.nodes) (hsurvives : Survives s node)
    (hevents : (declaration? s node).events = done ++ event :: rest)
    (hdone : helperNames done ⊆ helpersIn p.declarations) : (p.apply event).Ordered s := by
  cases event with
  | report d => exact h
  | reportOnce name d =>
    unfold Progress.apply
    dsimp only
    split <;> exact h
  | helper d =>
    unfold Progress.apply
    dsimp only
    split
    · exact h
    · exact h.declare ⟨node, hnode, hsurvives, done, .helper hevents, hdone⟩

theorem Ordered.applyAll {node : Declaration} {rest : List Event} (done : List Event) (h : p.Ordered s)
    (hnode : node ∈ s.tree.nodes) (hsurvives : Survives s node)
    (hevents : (declaration? s node).events = done ++ rest)
    (hdone : helperNames done ⊆ helpersIn p.declarations) : (p.applyAll rest).Ordered s := by
  induction rest generalizing p done with
  | nil => exact h
  | cons event rest ih =>
    have harises : event.Arises s := expected_declaration? node event
      (by rw [hevents]; exact List.mem_append_right _ (List.mem_cons_self ..))
    obtain ⟨more, hmore, -⟩ := declarations_apply (p := p) harises
    have hnames : helperNames (done ++ [event]) ⊆ helpersIn (p.apply event).declarations := by
      rw [helperNames, List.filterMap_append]
      exact List.append_subset.mpr
        ⟨List.Subset.trans hdone (helpersIn_subset_of_append hmore), helperNames_apply harises⟩
    have hmoved : (declaration? s node).events = (done ++ [event]) ++ rest := by
      rw [hevents, List.append_assoc]
      rfl
    exact ih (done ++ [event]) (h.apply hnode hsurvives hevents hdone) hmoved hnames

end Progress

section

variable {s : Setting} {p p' : Progress}

/-- What is left out takes its helpers along, so that they are declared again when they are next asked
for. -/
theorem ordered_step {node : Declaration} (h : p.Ordered s) (hnode : node ∈ s.tree.nodes)
    (hstep : step s p node = (p', none)) : p'.Ordered s := by
  cases hmapped : isMapped s node with
  | false =>
    obtain ⟨next, hnext, hdeclarations, -⟩ := step_of_not_mapped hmapped p
    rw [hnext] at hstep
    cases hstep
    rw [Progress.Ordered, hdeclarations]
    exact h
  | true =>
    rw [step_of_mapped hmapped] at hstep
    split at hstep <;> rename_i hresult <;> cases hstep
    · rename_i declaration
      have hsurvives : Survives s node := ⟨hmapped, declaration, hresult⟩
      have hafter := h.applyAll [] hnode hsurvives rfl (List.nil_subset _)
      have hnames := helperNames_applyAll (p := p) (expected_declaration? (s := s) node)
      cases declaration with
      | none => exact hafter
      | some d => exact hafter.declare ⟨node, hnode, hsurvives, _, .node hresult, hnames⟩
    · exact h

theorem ordered_steps {nodes : List Declaration} (h : p.Ordered s) (hnodes : nodes ⊆ s.tree.nodes)
    (hsteps : steps s p nodes = (p', none)) : p'.Ordered s := by
  induction nodes generalizing p with
  | nil =>
    cases hsteps
    exact h
  | cons node rest ih =>
    rw [List.cons_subset] at hnodes
    unfold steps at hsteps
    split at hsteps
    · rename_i next hnext
      exact ih (ordered_step h hnodes.1 hnext) hnodes.2 hsteps
    · cases hsteps

/-- A step takes no helper away. -/
theorem helpersIn_step (s : Setting) (p : Progress) (node : Declaration) :
    helpersIn p.declarations ⊆ helpersIn (step s p node).1.declarations := by
  cases hmapped : isMapped s node with
  | false =>
    obtain ⟨next, hnext, hdeclarations, -⟩ := step_of_not_mapped hmapped p
    rw [hnext, hdeclarations]
    exact List.Subset.refl _
  | true =>
    obtain ⟨more, hmore, -⟩ := declarations_applyAll (p := p) (expected_declaration? (s := s) node)
    have hafter := helpersIn_subset_of_append hmore
    rw [step_of_mapped hmapped]
    split
    · rename_i declaration _
      cases declaration with
      | none => exact hafter
      | some d => exact List.Subset.trans hafter (helpersIn_subset_of_append rfl)
    · exact List.Subset.refl _
    · exact hafter

/-- A node that is mapped leaves all its helpers. -/
theorem helperNames_step {node : Declaration} (hsurvives : Survives s node) :
    helperNames (declaration? s node).events ⊆ helpersIn (step s p node).1.declarations := by
  obtain ⟨hmapped, declaration, hresult⟩ := hsurvives
  have hafter := helperNames_applyAll (p := p) (expected_declaration? (s := s) node)
  rw [step_of_mapped hmapped, hresult]
  cases declaration with
  | none => exact hafter
  | some d => exact List.Subset.trans hafter (helpersIn_subset_of_append rfl)

theorem helperNames_steps {nodes : List Declaration} (hsteps : steps s p nodes = (p', none)) :
    helpersIn p.declarations ⊆ helpersIn p'.declarations ∧
      ∀ node ∈ nodes, Survives s node →
        helperNames (declaration? s node).events ⊆ helpersIn p'.declarations := by
  induction nodes generalizing p with
  | nil =>
    cases hsteps
    exact ⟨List.Subset.refl _, List.forall_mem_nil _⟩
  | cons node rest ih =>
    have hkept := helpersIn_step s p node
    unfold steps at hsteps
    split at hsteps
    · rename_i next hnext
      rw [hnext] at hkept
      obtain ⟨hrest, hnames⟩ := ih hsteps
      refine ⟨List.Subset.trans hkept hrest, List.forall_mem_cons.mpr ⟨fun hsurvives => ?_, hnames⟩⟩
      have hfirst := helperNames_step (p := p) hsurvives
      rw [hnext] at hfirst
      exact List.Subset.trans hfirst hrest
    · cases hsteps

theorem helperNames_run {b : Binding.Bindings} (h : (run s).bindings = .ok b) {node : Declaration}
    (hnode : node ∈ s.tree.nodes) (hsurvives : Survives s node) :
    helperNames (declaration? s node).events ⊆ helpersIn b.declarations := by
  obtain ⟨p, hsteps, hdeclarations⟩ := steps_of_run h
  rw [hdeclarations]
  exact (helperNames_steps hsteps).2 node hnode hsurvives

/-- In a binding every declaration comes after its helpers. -/
theorem ordered_run {b : Binding.Bindings} (h : (run s).bindings = .ok b) :
    ∀ before d after, b.declarations = before ++ d :: after → ComesAfter s before d := by
  obtain ⟨p, hsteps, hdeclarations⟩ := steps_of_run h
  have hinitial : (initial s).Ordered s := by
    have hnone : (initial s).declarations = [] := by
      unfold initial
      split <;> rfl
    intro before d after hsplit
    rw [hnone] at hsplit
    cases before <;> cases hsplit
  rw [hdeclarations]
  exact ordered_steps hinitial (List.Subset.refl _) hsteps

/-- No helper is declared twice. -/
theorem nodup_helpersIn_run {b : Binding.Bindings} (h : (run s).bindings = .ok b) :
    (helpersIn b.declarations).Nodup := by
  obtain ⟨p, hsteps, hdeclarations⟩ := steps_of_run h
  obtain ⟨hinStep, hprogress, -⟩ :=
    (Register.inStep_initial s).steps s s.tree.nodes
  have hnodup := hinStep.nodup
  rw [hprogress, hsteps, ← hdeclarations] at hnodup
  exact hnodup

end

/-- The helper for an array is asked for under the name that the array is used by. -/
theorem helperNames_arrayHelper {array text : String} {element : TypeUse} {count size : Int}
    (h : (arrayHelper array element count size).result = .ok text) :
    helperNames (arrayHelper array element count size).events = [text] := by
  unfold arrayHelper at h ⊢
  dsimp only at h ⊢
  split at h
  · cases h
  · cases h
    rfl

/-- Helpers are declared once and before use. A run with a register of helpers makes the same progress as
one without, and between any two nodes the register holds the names of the helpers that are declared then,
no two of which are the same. In the binding, each helper that a mapped node asks for, under the name that
an array is used by, is declared exactly once, and every declaration is made for such a node after all
helpers that were asked for until then. -/
theorem helpers_before_use (s : Setting) :
    (∀ done rest, s.tree.nodes = done ++ rest →
      (Register.steps s ⟨initial s, ∅⟩ done).2 = (steps s (initial s) done).2 ∧
      (Register.steps s ⟨initial s, ∅⟩ done).1.progress = (steps s (initial s) done).1 ∧
      (Register.steps s ⟨initial s, ∅⟩ done).1.names =
        (helpersIn (steps s (initial s) done).1.declarations).toFinset ∧
      (helpersIn (steps s (initial s) done).1.declarations).Nodup) ∧
    (∀ array element count size text, (arrayHelper array element count size).result = .ok text →
      helperNames (arrayHelper array element count size).events = [text]) ∧
    ∀ b, (run s).bindings = .ok b →
      (∀ node ∈ s.tree.nodes, Survives s node → ∀ name ∈ helperNames (declaration? s node).events,
        (helpersIn b.declarations).count name = 1) ∧
      ∀ before d after, b.declarations = before ++ d :: after →
        ∃ node ∈ s.tree.nodes, Survives s node ∧ ∃ events, MadeAfter s node events d ∧
          ∀ name ∈ helperNames events,
            name ∈ helpersIn before ∧ (helpersIn b.declarations).count name = 1 := by
  refine ⟨?_, ?_, fun b hrun => ⟨?_, ?_⟩⟩
  · intro done rest _
    obtain ⟨hinStep, hprogress, hfailure⟩ :=
      (Register.inStep_initial s).steps s done
    refine ⟨hfailure, hprogress, ?_, ?_⟩
    · rw [hinStep.names, hprogress]
    · rw [← hprogress]
      exact hinStep.nodup
  · exact fun array element count size text h => helperNames_arrayHelper h
  · intro node hnode hsurvives name hname
    exact List.count_eq_one_of_mem (nodup_helpersIn_run hrun)
      (helperNames_run hrun hnode hsurvives hname)
  · intro before d after hsplit
    obtain ⟨node, hnode, hsurvives, events, hmade, hnames⟩ := ordered_run hrun before d after hsplit
    refine ⟨node, hnode, hsurvives, events, hmade, fun name hname => ⟨hnames hname, ?_⟩⟩
    exact List.count_eq_one_of_mem (nodup_helpersIn_run hrun)
      (helpersIn_subset_of_append hsplit (hnames hname))

/-- In the tree with a record that misses a type, the helper that was declared for it is taken back and
declared again for the next record. -/
theorem helpers_before_use_untidySample :
    (Register.steps untidySample ⟨initial untidySample, ∅⟩ (untidySample.tree.nodes.take 4)).1.names =
      ∅ ∧
    (Register.steps untidySample ⟨initial untidySample, ∅⟩ (untidySample.tree.nodes.take 5)).1.names =
      {"FixedBuffer_IntPtr_two"} ∧
    helperNames (arrayHelper "int*[2]" ⟨"int*", 8, 8, none⟩ 2 16).events =
      ["FixedBuffer_IntPtr_two"] ∧
    ∃ b, (run untidySample).bindings = .ok b ∧
      b.declarations.map (·.name) = ["FixedBuffer_IntPtr_two", "range"] ∧
      (∀ node ∈ untidySample.tree.nodes, Survives untidySample node →
        ∀ name ∈ helperNames (declaration? untidySample node).events,
          (helpersIn b.declarations).count name = 1) ∧
      ∀ before d after, b.declarations = before ++ d :: after →
        ∃ node ∈ untidySample.tree.nodes, Survives untidySample node ∧
          ∃ events, MadeAfter untidySample node events d ∧ ∀ name ∈ helperNames events,
            name ∈ helpersIn before ∧ (helpersIn b.declarations).count name = 1 := by
  obtain ⟨hregister, harray, hbinding⟩ := helpers_before_use untidySample
  have hnames (n : Nat) := (hregister (untidySample.tree.nodes.take n)
    (untidySample.tree.nodes.drop n) (List.take_append_drop n _).symm).2.2.1
  have hbroken : helpersIn (steps untidySample (initial untidySample)
      (untidySample.tree.nodes.take 4)).1.declarations = [] := by decide +kernel
  have hrange : helpersIn (steps untidySample (initial untidySample)
      (untidySample.tree.nodes.take 5)).1.declarations = ["FixedBuffer_IntPtr_two"] := by
    decide +kernel
  have hdeclared : (run untidySample).bindings.toOption.map (·.declarations.map (·.name)) =
      some ["FixedBuffer_IntPtr_two", "range"] := by decide +kernel
  refine ⟨?_, ?_, harray _ _ _ _ _ (by decide +kernel), ?_⟩
  · rw [hnames, hbroken]
    rfl
  · rw [hnames, hrange]
    rfl
  · obtain ⟨b, hrun, hnamed⟩ := eq_ok_of_toOption_map hdeclared
    exact ⟨b, hrun, hnamed, hbinding b hrun⟩

end CInterop.Mapping
