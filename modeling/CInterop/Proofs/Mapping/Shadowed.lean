import CInterop.Proofs.Mapping.Accounting

/-!
# Aliases of ignored types

An alias for an ignored type has no effect: every rule that looks for an alias has asked before whether
the type is ignored. Two settings that differ in such aliases only therefore map everything alike, and
the one difference between their runs is the report that two rules are about one node.
-/

namespace CInterop

open Mapping (clash)

/-- Whether the diagnostic reports that a node is both ignored and replaced. -/
def Diagnostic.isClash (d : Diagnostic) : Bool :=
  match d.cause with
  | .unmappable _ reason => reason = clash
  | _ => false

/-- The policy without the aliases of ignored types. -/
def Policy.withoutShadowed (p : Policy) : Policy :=
  { p with aliases := p.aliases.filter fun a => !p.ignores a.source }

theorem Policy.aliasFor?_withoutShadowed {p : Policy} {name : String} :
    p.withoutShadowed.aliasFor? name = if p.ignores name then none else p.aliasFor? name := by
  unfold Policy.aliasFor? Policy.withoutShadowed
  rw [List.find?_filter]
  split
  · rename_i hignored
    rw [Option.map_eq_none_iff, List.find?_eq_none]
    intro a _ h
    rw [decide_eq_true_eq, decide_eq_true_eq, Bool.not_eq_true'] at h
    rw [h.2, hignored] at h
    exact Bool.noConfusion h.1
  · rename_i hignored
    congr 2
    funext a
    by_cases hname : a.source = name
    · simp [hname, hignored]
    · simp [hname]

namespace Mapping

open Header
open Binding (TypeUse escape fixedBufferName?)

/-! ## Settings that differ in the aliases of ignored types -/

/-- The same setting, except for what replaces an ignored type. -/
structure Setting.Agrees (s s' : Setting) : Prop where
  tree : s'.tree = s.tree
  width : s'.policy.bitness = s.policy.bitness
  ignores : ∀ name, s'.policy.ignores name = s.policy.ignores name
  aliases : ∀ name, s.policy.ignores name = false →
    s'.policy.aliasFor? name = s.policy.aliasFor? name

/-- The setting without the aliases of ignored types. -/
def Setting.withoutShadowed (s : Setting) : Setting := { s with policy := s.policy.withoutShadowed }

theorem Setting.agrees_withoutShadowed (s : Setting) : s.Agrees s.withoutShadowed where
  tree := rfl
  width := rfl
  ignores _ := rfl
  aliases name h := by
    show s.policy.withoutShadowed.aliasFor? name = _
    rw [Policy.aliasFor?_withoutShadowed, h]
    rfl

namespace Setting.Agrees

variable {s s' : Setting} (h : s.Agrees s')
include h

theorem bitness : s'.bitness = s.bitness := by
  rw [Setting.bitness, Setting.bitness, h.width, h.tree]

theorem node : s'.node = s.node := by
  funext name
  rw [Setting.node, Setting.node, h.tree]

theorem sizeWithin (steps links : Nat) (name : String) :
    s'.sizeWithin steps links name = s.sizeWithin steps links name := by
  induction steps generalizing links name with
  | zero => rfl
  | succ steps ih => simp only [Setting.sizeWithin, h.node, ih]

theorem sizeOf : s'.sizeOf = s.sizeOf := by
  funext name
  rw [Setting.sizeOf, Setting.sizeOf, h.tree, h.sizeWithin]

theorem pointerUse : pointerUse s' = pointerUse s := by
  funext name
  rw [Mapping.pointerUse, Mapping.pointerUse, Setting.pointerSize, Setting.pointerSize, h.bitness]

theorem placeholder : placeholder s' = placeholder s := by
  funext name position
  simp only [Mapping.placeholder, h.sizeOf, h.pointerUse]

theorem primitive : primitive s' = primitive s := by
  funext name size align
  simp only [Mapping.primitive, platformInteger?, Setting.pointerSize, h.bitness, h.tree]

theorem elementUse (use : String → Position → Outcome TypeUse) :
    elementUse use s' = elementUse use s := by
  funext name
  simp only [Mapping.elementUse, h.node]

/-- Wherever an alias is looked for, the type is not ignored. -/
theorem aliasFor? {name : String} (hignored : ¬ s.policy.ignores name = true) :
    s'.policy.aliasFor? name = s.policy.aliasFor? name :=
  h.aliases name (Bool.not_eq_true _ ▸ hignored)

theorem structural? (use : String → Position → Outcome TypeUse) (node : Declaration)
    (position : Position) : structural? use s' node position = structural? use s node position := by
  unfold Mapping.structural?
  cases node.body with
  | primitive size align =>
    rw [h.placeholder, h.primitive, h.ignores]
    refine congrArg some ?_
    split
    · rfl
    · rw [h.aliasFor? ‹_›]
  | pointer pointee size => simp only [h.ignores, h.placeholder, h.node, h.pointerUse]
  | array element count size => simp only [h.elementUse, h.pointerUse]
  | _ => rfl

theorem named (use : String → Position → Outcome TypeUse) (node : Declaration)
    (position : Position) : named use s' node position = named use s node position := by
  simp only [Mapping.named, h.sizeOf, h.pointerUse]

theorem nodeUse (use : String → Position → Outcome TypeUse) (node : Declaration)
    (position : Position) : nodeUse use s' node position = nodeUse use s node position := by
  unfold Mapping.nodeUse
  rw [h.structural?, h.placeholder, h.sizeOf, h.named]
  split
  · rfl
  · rw [h.ignores]
    split
    · rfl
    · rw [h.aliasFor? ‹_›]

theorem useWithin (steps : Nat) : useWithin s' steps = useWithin s steps := by
  induction steps with
  | zero => rfl
  | succ steps ih =>
    funext name position
    simp only [Mapping.useWithin, h.node, ih, h.nodeUse]

theorem typeUse : typeUse s' = typeUse s := by
  funext name position
  rw [Mapping.typeUse, Mapping.typeUse, h.tree, h.useWithin]

theorem parametersFrom (index : Nat) (parameters : List (Parameter String)) :
    parametersFrom s' index parameters = parametersFrom s index parameters := by
  induction parameters generalizing index with
  | nil => rfl
  | cons p rest ih => simp only [Mapping.parametersFrom, h.typeUse, ih]

theorem fieldsOf (node : Declaration) (padding : Field String Int → Int)
    (fields : List (Field String Int)) :
    fieldsOf s' node padding fields = fieldsOf s node padding fields := by
  induction fields with
  | nil => rfl
  | cons f rest ih => simp only [Mapping.fieldsOf, h.typeUse, ih]

/-- The declaration for a node does not depend on what replaces ignored types. -/
theorem declaration? (node : Declaration) : declaration? s' node = declaration? s node := by
  simp only [Mapping.declaration?, constant?, h.node, h.typeUse, h.parametersFrom, h.fieldsOf]

end Setting.Agrees

/-! ## One run without the reports of the other -/

/-- The progress without the reports that a node is both ignored and replaced. -/
def Progress.muted (p : Progress) : Progress :=
  { p with diagnostics := p.diagnostics.filter (!·.isClash) }

namespace Progress

variable {s : Setting} {p : Progress}

theorem muted_report {d : Diagnostic} (h : d.isClash = false) :
    (p.report d).muted = p.muted.report d := by
  simp [muted, report, h]

theorem muted_report_clash {d : Diagnostic} (h : d.isClash = true) : (p.report d).muted = p.muted := by
  simp [muted, report, h]

theorem isClash_eq_false {name reason : String} {place : Option String} (h : reason ≠ clash) :
    Diagnostic.isClash ⟨.unmappable name reason, place⟩ = false :=
  decide_eq_false h

theorem muted_reportOnce {name : String} {d : Diagnostic} (h : d.isClash = false) :
    (p.apply (.reportOnce name d)).muted = p.muted.apply (.reportOnce name d) := by
  show (if p.reported.contains name then p
      else { p.report d with reported := name :: p.reported }).muted =
    if p.reported.contains name then p.muted
      else { p.muted.report d with reported := name :: p.reported }
  split
  · rfl
  · rw [← muted_report h]
    rfl

theorem muted_helper (d : Binding.Declaration) :
    (p.apply (.helper d)).muted = p.muted.apply (.helper d) := by
  show (if p.hasHelper d.name then p else p.declare d).muted =
    if p.hasHelper d.name then p.muted else p.muted.declare d
  split <;> rfl

/-- No event on the way to a result is about two rules. -/
theorem muted_apply {event : Event} (h : event.Arises s) :
    (p.apply event).muted = p.muted.apply event := by
  cases h with
  | unmappable name reason place h => exact muted_report (isClash_eq_false h)
  | unusual name reason h => exact muted_reportOnce (isClash_eq_false h)
  | ignored reason hignored => exact muted_reportOnce rfl
  | helper => exact muted_helper _

theorem muted_applyAll {events : List Event} (h : ∀ event ∈ events, event.Arises s) :
    (p.applyAll events).muted = p.muted.applyAll events := by
  induction events generalizing p with
  | nil => rfl
  | cons event rest ih =>
    rw [List.forall_mem_cons] at h
    show ((p.apply event).applyAll rest).muted = (p.muted.apply event).applyAll rest
    rw [ih h.2, muted_apply h.1]

end Progress

section

variable {s : Setting} {p : Progress}

/-- Without the aliases of ignored types a step is the same but for the report. -/
theorem step_withoutShadowed (node : Declaration) :
    step s.withoutShadowed p.muted node = ((step s p node).1.muted, (step s p node).2) := by
  have hagrees := s.agrees_withoutShadowed
  cases hinline : isInline node with
  | true => simp only [step, hinline, if_true]
  | false =>
    have hignores := hagrees.ignores node.name
    cases hignored : s.policy.ignores node.name with
    | true =>
      have halias : s.withoutShadowed.policy.aliasFor? node.name = none := by
        show s.policy.withoutShadowed.aliasFor? node.name = none
        rw [Policy.aliasFor?_withoutShadowed, if_pos hignored]
      simp only [step, hinline, hignores, hignored, halias, if_true, if_false, Bool.false_eq_true,
        Option.isSome_none]
      split
      · -- the report of the other run
        have hmuted := Progress.muted_report_clash (p := p)
          (d := ⟨.unmappable node.name clash, some node.place⟩) rfl
        show (p.muted.detail _, _) = ((Progress.muted _).detail _, _)
        exact congrArg (fun q => (Progress.detail q _, none)) hmuted.symm
      · rfl
    | false =>
      have hsame := hagrees.aliases _ hignored
      cases halias : s.policy.aliasFor? node.name with
      | some target =>
        simp only [step, hinline, hignores, hignored, hsame, halias, if_false, Bool.false_eq_true]
        rfl
      | none =>
        have hevents := expected_declaration? (s := s) node
        simp only [step, hinline, hignores, hignored, hsame, halias, hagrees.declaration?, if_false,
          Bool.false_eq_true, ← Progress.muted_applyAll hevents]
        cases (declaration? s node).result with
        | ok declaration => cases declaration <;> rfl
        | error reason =>
          cases reason with
          | dangling type =>
            have hmuted := Progress.muted_report (d := ⟨.danglingType type node.name, some node.place⟩)
              (p := { p.applyAll (declaration? s node).events with declarations := p.declarations }) rfl
            exact congrArg (·, none) hmuted.symm
          | failed failure => rfl

theorem steps_withoutShadowed (nodes : List Declaration) :
    steps s.withoutShadowed p.muted nodes = ((steps s p nodes).1.muted, (steps s p nodes).2) := by
  induction nodes generalizing p with
  | nil => rfl
  | cons node rest ih =>
    unfold steps
    rw [step_withoutShadowed]
    cases step s p node with
    | mk next failure =>
      cases failure with
      | none => exact ih
      | some failure => rfl

/-- What there is to report before the first node. -/
def initial (s : Setting) : Progress :=
  if s.bitness ≠ s.tree.bitness then
    Progress.report {} ⟨.bitnessMismatch s.tree.bitness s.bitness, none⟩
  else {}

/-- The result of a run after its last step. -/
def conclude (s : Setting) : Progress × Option Failure → Result
  | (p, none) => ⟨.ok ⟨s.policy.className, s.bitness, p.declarations⟩, p.diagnostics, p.details⟩
  | (p, some failure) => ⟨.error failure, p.diagnostics, p.details⟩

theorem run_eq (s : Setting) : run s = conclude s (steps s (initial s) s.tree.nodes) := rfl

/-- The binding of a run is what there is after its last step. -/
theorem steps_of_run {b : Binding.Bindings} (h : (run s).bindings = .ok b) :
    ∃ p, steps s (initial s) s.tree.nodes = (p, none) ∧ b.declarations = p.declarations := by
  rw [run_eq] at h
  cases hsteps : steps s (initial s) s.tree.nodes with
  | mk p failure =>
    rw [hsteps] at h
    cases failure with
    | some failure => cases h
    | none =>
      cases h
      exact ⟨p, rfl, rfl⟩

theorem muted_initial (s : Setting) : (initial s).muted = initial s := by
  unfold initial
  split <;> rfl

/-- Without the aliases of ignored types a run is the same but for the reports. -/
theorem run_withoutShadowed_eq (s : Setting) :
    run s.withoutShadowed =
      ⟨(run s).bindings, (run s).diagnostics.filter (!·.isClash), (run s).details⟩ := by
  have hbitness := s.agrees_withoutShadowed.bitness
  have hinitial : initial s.withoutShadowed = (initial s).muted := by
    rw [muted_initial, initial, initial, hbitness]
    rfl
  have hsteps := steps_withoutShadowed (s := s) (p := initial s) s.tree.nodes
  rw [run_eq, run_eq, hinitial]
  show conclude s.withoutShadowed (steps s.withoutShadowed _ s.tree.nodes) = _
  rw [hsteps]
  cases steps s (initial s) s.tree.nodes with
  | mk p failure =>
    cases failure with
    | none =>
      show (⟨.ok ⟨s.policy.className, s.withoutShadowed.bitness, p.declarations⟩, _, _⟩ : Result) = _
      rw [hbitness]
      rfl
    | some failure => rfl

/-! ## Where declarations come from -/

/-- Every declaration comes from a node that is mapped, or is a helper for an array. -/
def Progress.Traced (s : Setting) (p : Progress) : Prop :=
  ∀ d ∈ p.declarations, ∃ node ∈ s.tree.nodes,
    d.origin = some node.name ∧ (node.kind = .array ∨ isMapped s node = true)

theorem Progress.Traced.declare {d : Binding.Declaration} {node : Declaration} (h : p.Traced s)
    (hnode : node ∈ s.tree.nodes) (horigin : d.origin = some node.name)
    (hkind : node.kind = .array ∨ isMapped s node = true) : (p.declare d).Traced s :=
  List.forall_mem_append.mpr
    ⟨h, List.forall_mem_singleton.mpr ⟨node, hnode, horigin, hkind⟩⟩

theorem Progress.Traced.apply {event : Event} (h : p.Traced s) (hevent : event.Arises s) :
    (p.apply event).Traced s := by
  cases hevent with
  | unmappable => exact h
  | unusual | ignored =>
    unfold Progress.apply
    dsimp only
    split <;> exact h
  | helper _ hnode harray horigin =>
    unfold Progress.apply
    dsimp only
    split
    · exact h
    · exact h.declare hnode horigin (.inl harray)

theorem Progress.Traced.applyAll {events : List Event} (h : p.Traced s)
    (hevents : ∀ event ∈ events, event.Arises s) : (p.applyAll events).Traced s := by
  induction events generalizing p with
  | nil => exact h
  | cons event rest ih =>
    rw [List.forall_mem_cons] at hevents
    exact ih (h.apply hevents.1) hevents.2

theorem traced_step {node : Declaration} (h : p.Traced s) (hnode : node ∈ s.tree.nodes) :
    (step s p node).1.Traced s := by
  cases hmapped : isMapped s node with
  | false =>
    obtain ⟨next, hnext, hdeclarations, -⟩ := step_of_not_mapped hmapped p
    rw [hnext, Progress.Traced, hdeclarations]
    exact h
  | true =>
    have hafter := h.applyAll (expected_declaration? (s := s) node)
    rw [step_of_mapped hmapped]
    split
    · rename_i declaration hresult
      cases declaration with
      | none => exact hafter
      | some d =>
        have hstands := (explains_declaration? _ hresult).stands d rfl
        exact hafter.declare hnode hstands.origin (.inr hmapped)
    · -- the helpers of a node that is left out are taken back
      exact h
    · exact hafter

theorem traced_steps {nodes : List Declaration} (h : p.Traced s) (hnodes : nodes ⊆ s.tree.nodes) :
    (steps s p nodes).1.Traced s := by
  induction nodes generalizing p with
  | nil => exact h
  | cons node rest ih =>
    rw [List.cons_subset] at hnodes
    have hstep := traced_step h hnodes.1
    unfold steps
    split
    · rename_i next hnext
      rw [hnext] at hstep
      exact ih hstep hnodes.2
    · rename_i next failure hnext
      rw [hnext] at hstep
      exact hstep

theorem traced_run {b : Binding.Bindings} (h : (run s).bindings = .ok b) :
    ∀ d ∈ b.declarations, ∃ node ∈ s.tree.nodes,
      d.origin = some node.name ∧ (node.kind = .array ∨ isMapped s node = true) := by
  have hinitial : (initial s).Traced s := by
    unfold initial
    split <;> exact fun d hd => absurd hd List.not_mem_nil
  obtain ⟨p, hsteps, hdeclarations⟩ := steps_of_run h
  have htraced := traced_steps hinitial (List.Subset.refl s.tree.nodes)
  rw [hsteps] at htraced
  rw [hdeclarations]
  exact htraced

/-- Nothing in the binding comes from an ignored type that is spelled by a name of its own. -/
theorem origin_ne_of_ignored {b : Binding.Bindings} {name : String}
    (h : (run s).bindings = .ok b) (hignored : s.policy.ignores name = true)
    (hkind : ∀ node ∈ s.tree.nodes, node.name = name → node.kind ≠ .pointer ∧ node.kind ≠ .array) :
    ∀ d ∈ b.declarations, d.origin ≠ some name := by
  intro d hd horigin
  obtain ⟨node, hnode, hname, harray | hmapped⟩ := traced_run h d hd
  · rw [horigin] at hname
    exact (hkind node hnode (Option.some.inj hname).symm).2 harray
  · rw [horigin] at hname
    rw [isMapped, ← Option.some.inj hname, hignored, Bool.not_true, Bool.and_false,
      Bool.false_and] at hmapped
    cases hmapped

end

end Mapping
end CInterop
