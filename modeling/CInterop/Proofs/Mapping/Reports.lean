import CInterop.Proofs.Mapping.Shadowed

/-!
# What a run reports

The diagnostics of a run come from the events on the way to its declarations, but for those about a node
as a whole. What is reported each time is there as often as it happens, in the order of the nodes. What is
reported once for a name is there if it happens at all, with one of the events as its reason.
-/

namespace CInterop.Mapping

open Header

/-- The diagnostic that an event reports each time. -/
def Event.report? : Event → Option Diagnostic
  | .report d => some d
  | .reportOnce .. | .helper _ => none

/-! ## What one node reports -/

section

variable {α β : Type} {x : Outcome α}

/-- The diagnostics that are reported each time. -/
def Outcome.reports (x : Outcome α) : List Diagnostic := x.events.filterMap Event.report?

theorem Outcome.reports_bind_of_ok {f : α → Outcome β} {a : α} (h : x.result = .ok a) :
    (x >>= f).reports = x.reports ++ (f a).reports := by
  obtain ⟨events, result⟩ := x
  cases h
  exact List.filterMap_append

theorem Outcome.reports_bind_of_error {f : α → Outcome β} {reason : Stop}
    (h : x.result = .error reason) : (x >>= f).reports = x.reports := by
  obtain ⟨events, result⟩ := x
  cases h
  rfl

end

/-- What an event on the way to the declaration for a node can report. -/
def Event.Reports (s : Setting) (node : Declaration) : Event → Prop
  | .report d => ∃ name reason, Unmappable node name reason ∧
      d = ⟨.unmappable name reason, some node.place⟩
  | .reportOnce name d =>
    (s.policy.ignores name = false ∧ ∃ reason, Unusual name reason ∧
      d = ⟨.unmappable name reason, none⟩) ∨
    s.policy.ignores name = true ∧ ∃ reason, d = ⟨.ignoredTypeUsed name reason, none⟩
  | .helper _ => True

theorem admits_reports (s : Setting) (node : Declaration)
    (use : String → Position → Outcome Binding.TypeUse) : Admits s node use (Event.Reports s node) where
  unmappable name reason h := ⟨name, reason, h, rfl⟩
  unusual _ reason h hignored := .inl ⟨hignored, reason, h, rfl⟩
  ignored _ reason h := .inr ⟨h, reason, rfl⟩
  helper _ _ _ _ _ _ _ _ _ := every_arrayHelper fun _ _ => trivial

theorem reports_declaration? (s : Setting) (node : Declaration) :
    Every (Event.Reports s node) (declaration? s node) :=
  every_declaration? fun _ _ => admits_reports s node _

/-- Nothing is reported each time that a type is used. -/
theorem reports_typeUse (s : Setting) (name : String) (position : Position) :
    (typeUse s name position).reports = [] := by
  have admits (use) : AdmitsTypes s use fun event => event.report? = none :=
    ⟨fun _ _ _ _ => rfl, fun _ _ _ => rfl,
      fun _ _ _ _ _ _ _ _ _ => every_arrayHelper fun _ _ => rfl⟩
  exact List.filterMap_eq_nil_iff.mpr (every_typeUse (fun _ _ => admits _) name position)

/-! ## What a run reports -/

/-- What happens when a node has its turn. -/
def eventsOf (s : Setting) (node : Declaration) : List Event :=
  if isMapped s node then (declaration? s node).events else []

/-- The test passes none of the diagnostics that are made once for a name, and none about a node as a
whole. -/
structure PassesReports (s : Setting) (test : Diagnostic → Bool) : Prop where
  once : ∀ node name d, .reportOnce name d ∈ (declaration? s node).events → test d = false
  bitness : ∀ made wanted, test ⟨.bitnessMismatch made wanted, none⟩ = false
  clash : ∀ name place, test ⟨.unmappable name clash, place⟩ = false
  dangling : ∀ type name place, test ⟨.danglingType type name, place⟩ = false

theorem passesReports_nothing (s : Setting) : PassesReports s fun _ => false :=
  ⟨fun _ _ _ _ => rfl, fun _ _ => rfl, fun _ _ => rfl, fun _ _ _ => rfl⟩

namespace Progress

variable {s : Setting} {test : Diagnostic → Bool} {done : List Event} {p : Progress}

/-- The diagnostics that pass the test are those of the events so far, and the names noted are those for
which something was reported once. -/
structure Told (test : Diagnostic → Bool) (done : List Event) (p : Progress) : Prop where
  each : p.diagnostics.filter test = (done.filterMap Event.report?).filter test
  noted : ∀ name d, .reportOnce name d ∈ done → name ∈ p.reported
  once : ∀ name ∈ p.reported, ∃ d ∈ p.diagnostics, .reportOnce name d ∈ done

/-- What is declared, and the lines for the user, do not count. -/
theorem Told.of_eq {p' : Progress} (h : p.Told test done) (hdiagnostics : p'.diagnostics = p.diagnostics)
    (hreported : p'.reported = p.reported) : p'.Told test done where
  each := hdiagnostics ▸ h.each
  noted := hreported ▸ h.noted
  once := by
    rw [hdiagnostics, hreported]
    exact h.once

/-- Nor does what is reported about a node as a whole. -/
theorem Told.report {d : Diagnostic} (h : p.Told test done) (hd : test d = false) :
    (p.report d).Told test done where
  each := by
    show (p.diagnostics ++ [d]).filter test = _
    rw [List.filter_append, h.each, List.filter_cons_of_neg (by rw [hd]; exact Bool.false_ne_true)]
    exact List.append_nil _
  noted := h.noted
  once name hname := by
    obtain ⟨other, hother, hevent⟩ := h.once name hname
    exact ⟨other, List.mem_append_left _ hother, hevent⟩

/-- An event that reports nothing new. -/
theorem Told.silent {event : Event} (h : p.Told test done) (hreport : event.report? = none)
    (hnoted : ∀ name d, event = .reportOnce name d → name ∈ p.reported) :
    p.Told test (done ++ [event]) where
  each := by
    rw [List.filterMap_append, List.filterMap_cons_none hreport]
    exact (h.each.trans (by rw [List.filterMap_nil, List.append_nil]))
  noted name d hevent := by
    rcases List.mem_append.mp hevent with hold | hnew
    · exact h.noted name d hold
    · exact hnoted name d (List.mem_singleton.mp hnew).symm
  once name hname := by
    obtain ⟨d, hd, hevent⟩ := h.once name hname
    exact ⟨d, hd, List.mem_append_left _ hevent⟩

theorem Told.apply {event : Event} (h : p.Told test done)
    (honce : ∀ name d, event = .reportOnce name d → test d = false) :
    (p.apply event).Told test (done ++ [event]) := by
  cases event with
  | report d =>
    refine ⟨?_, fun name other hevent => ?_, fun name hname => ?_⟩
    · show (p.diagnostics ++ [d]).filter test = _
      rw [List.filter_append, List.filterMap_append, List.filter_append, h.each]
      rfl
    · rcases List.mem_append.mp hevent with hold | hnew
      · exact h.noted name other hold
      · cases List.mem_singleton.mp hnew
    · obtain ⟨other, hother, hevent⟩ := h.once name hname
      exact ⟨other, List.mem_append_left _ hother, List.mem_append_left _ hevent⟩
  | reportOnce name d =>
    unfold Progress.apply
    dsimp only
    split
    · rename_i hnoted
      refine h.silent rfl fun other _ hevent => ?_
      cases hevent
      exact List.mem_of_elem_eq_true hnoted
    · refine ⟨?_, fun other _ hevent => ?_, List.forall_mem_cons.mpr ⟨?_, fun other hother => ?_⟩⟩
      · show ((p.report d).diagnostics).filter test = _
        rw [(h.report (honce name d rfl)).each, List.filterMap_append]
        exact congrArg _ (List.append_nil _).symm
      · rcases List.mem_append.mp hevent with hold | hnew
        · exact List.mem_cons_of_mem _ (h.noted other _ hold)
        · cases List.mem_singleton.mp hnew
          exact List.mem_cons_self
      · exact ⟨d, List.mem_append_right _ (List.mem_singleton_self d),
          List.mem_append_right _ (List.mem_singleton_self _)⟩
      · obtain ⟨e, he, hevent⟩ := h.once other hother
        exact ⟨e, List.mem_append_left _ he, List.mem_append_left _ hevent⟩
  | helper d =>
    have hsilent : p.Told test (done ++ [.helper d]) := h.silent rfl nofun
    unfold Progress.apply
    dsimp only
    split
    · exact hsilent
    · exact hsilent.of_eq rfl rfl

theorem Told.applyAll {events : List Event} (h : p.Told test done)
    (honce : ∀ name d, .reportOnce name d ∈ events → test d = false) :
    (p.applyAll events).Told test (done ++ events) := by
  induction events generalizing p done with
  | nil =>
    rw [List.append_nil]
    exact h
  | cons event rest ih =>
    have hfirst : (p.apply event).Told test (done ++ [event]) :=
      h.apply fun name d hevent => honce name d (hevent ▸ List.mem_cons_self)
    have hrest := ih hfirst fun name d hevent => honce name d (List.mem_cons_of_mem _ hevent)
    rwa [List.append_assoc] at hrest

end Progress

section

variable {s : Setting} {test : Diagnostic → Bool} {done : List Event} {p p' : Progress}

/-- A node adds what happens when it has its turn. -/
theorem told_step {node : Declaration} (htest : PassesReports s test) (h : p.Told test done) :
    (step s p node).1.Told test (done ++ eventsOf s node) := by
  cases hmapped : isMapped s node with
  | true =>
    rw [eventsOf, if_pos hmapped, step_of_mapped hmapped]
    have hafter := h.applyAll (htest.once node)
    split
    · rename_i declaration _
      cases declaration with
      | none => exact hafter
      | some d => exact hafter.of_eq rfl rfl
    · exact (hafter.report (htest.dangling _ _ _)).of_eq rfl rfl
    · exact hafter
  | false =>
    rw [eventsOf, hmapped, if_neg Bool.false_ne_true, List.append_nil]
    unfold step
    split
    · exact h
    split
    · dsimp only
      split
      · exact (h.report (htest.clash _ _)).of_eq rfl rfl
      · exact h.of_eq rfl rfl
    split
    · exact h.of_eq rfl rfl
    · rename_i hinline hignored _ halias
      rw [Bool.not_eq_true] at hinline hignored
      rw [isMapped, hinline, hignored, halias] at hmapped
      cases hmapped

theorem told_steps {nodes : List Declaration} (htest : PassesReports s test) (h : p.Told test done)
    (hsteps : steps s p nodes = (p', none)) : p'.Told test (done ++ nodes.flatMap (eventsOf s)) := by
  induction nodes generalizing p done with
  | nil =>
    cases hsteps
    rw [List.flatMap_nil, List.append_nil]
    exact h
  | cons node rest ih =>
    have hfirst : (step s p node).1.Told test (done ++ eventsOf s node) := told_step htest h
    unfold steps at hsteps
    split at hsteps
    · rename_i next hnext
      rw [hnext] at hfirst
      have hrest := ih hfirst hsteps
      rwa [List.append_assoc] at hrest
    · cases hsteps

theorem told_initial (htest : PassesReports s test) : (initial s).Told test [] := by
  have hempty : Progress.Told test [] {} := ⟨rfl, nofun, nofun⟩
  unfold initial
  split
  · exact hempty.report (htest.bitness _ _)
  · exact hempty

theorem told_run {b : Binding.Bindings} (htest : PassesReports s test)
    (hrun : (run s).bindings = .ok b) :
    ∃ p : Progress, (run s).diagnostics = p.diagnostics ∧
      p.Told test (s.tree.nodes.flatMap (eventsOf s)) := by
  obtain ⟨p, hsteps, -⟩ := steps_of_run hrun
  refine ⟨p, ?_, told_steps htest (told_initial htest) hsteps⟩
  rw [run_eq, hsteps]
  rfl

/-- What is reported each time is there as often as it happens, in the order of the nodes. -/
theorem filter_diagnostics_run {b : Binding.Bindings} (htest : PassesReports s test)
    (hrun : (run s).bindings = .ok b) :
    (run s).diagnostics.filter test =
      s.tree.nodes.flatMap fun node => ((eventsOf s node).filterMap Event.report?).filter test := by
  obtain ⟨p, hdiagnostics, htold⟩ := told_run htest hrun
  rw [hdiagnostics, htold.each, List.filterMap_flatMap, List.filter_flatMap]

/-- What is reported once for a name is there if it happens. -/
theorem exists_reportedOnce_run {b : Binding.Bindings} (hrun : (run s).bindings = .ok b)
    {node : Declaration} (hnode : node ∈ s.tree.nodes) {name : String} {d : Diagnostic}
    (hevent : .reportOnce name d ∈ eventsOf s node) :
    ∃ other ∈ s.tree.nodes, ∃ d' ∈ (run s).diagnostics, .reportOnce name d' ∈ eventsOf s other := by
  obtain ⟨p, hdiagnostics, htold⟩ := told_run (passesReports_nothing s) hrun
  have hnoted := htold.noted name d (List.mem_flatMap.mpr ⟨node, hnode, hevent⟩)
  obtain ⟨d', hd', hevent'⟩ := htold.once name hnoted
  obtain ⟨other, hother, hevent'⟩ := List.mem_flatMap.mp hevent'
  exact ⟨other, hother, d', hdiagnostics ▸ hd', hevent'⟩

end

end CInterop.Mapping
