import CInterop.Proofs.Mapping.Globals
import CInterop.Proofs.Mapping.Precedence
import CInterop.Proofs.Mapping.Reports

/-!
# Reports of ignored types

A run reports the use of an ignored type once, however often the type is used. At most once: what is
reported for a name is noted, and what is noted is not reported again, also after a declaration was left
out. At least once: every way from a declaration through pointers, arrays and typedefs to an ignored type
ends at a stub, and there is no stub without the report. The induction is on that way.
-/

namespace CInterop

/-- The ignored type whose use is reported. -/
def Diagnostic.ignoredUse? (d : Diagnostic) : Option String :=
  match d.cause with
  | .ignoredTypeUsed type _ => some type
  | _ => none

/-- The ignored types whose uses are reported, with repetitions. -/
def Diagnostic.ignoredUses (ds : List Diagnostic) : List String := ds.filterMap ignoredUse?

namespace Mapping

open Header
open Diagnostic (ignoredUses)

/-! ## At most once -/

/-- The uses that are reported so far are those of different ignored types, all of which are noted. -/
structure Progress.Warned (s : Setting) (p : Progress) : Prop where
  nodup : (ignoredUses p.diagnostics).Nodup
  noted : ignoredUses p.diagnostics ⊆ p.reported
  ignored : ∀ name ∈ ignoredUses p.diagnostics, s.policy.ignores name = true

section

variable {s : Setting} {p p' : Progress}

/-- What is declared, and the lines for the user, do not count. -/
theorem Progress.Warned.of_eq (h : p.Warned s) (hdiagnostics : p'.diagnostics = p.diagnostics)
    (hreported : p'.reported = p.reported) : p'.Warned s := by
  obtain ⟨hnodup, hnoted, hignored⟩ := h
  rw [← hdiagnostics] at hnodup hnoted hignored
  exact ⟨hnodup, hreported ▸ hnoted, hignored⟩

/-- Reports of anything else do not count either, nor do more names that are noted. -/
theorem Progress.Warned.report {d : Diagnostic} (h : p.Warned s) (hd : d.ignoredUse? = none)
    (hdiagnostics : p'.diagnostics = p.diagnostics ++ [d]) (hreported : p.reported ⊆ p'.reported) :
    p'.Warned s := by
  have hsame : ignoredUses p'.diagnostics = ignoredUses p.diagnostics := by
    rw [hdiagnostics, ignoredUses, List.filterMap_append, List.filterMap_cons_none hd]
    exact List.append_nil _
  obtain ⟨hnodup, hnoted, hignored⟩ := h
  rw [← hsame] at hnodup hnoted hignored
  exact ⟨hnodup, List.Subset.trans hnoted hreported, hignored⟩

/-- The use of a type that is not noted yet is new. -/
theorem Progress.Warned.use {name reason : String} (h : p.Warned s) (hnew : name ∉ p.reported)
    (hignored : s.policy.ignores name = true) :
    ({ p.report ⟨.ignoredTypeUsed name reason, none⟩ with reported := name :: p.reported } :
      Progress).Warned s := by
  have huses : ignoredUses (p.diagnostics ++ [⟨.ignoredTypeUsed name reason, none⟩]) =
      ignoredUses p.diagnostics ++ [name] := List.filterMap_append
  refine ⟨?_, ?_, ?_⟩
  · show (ignoredUses (p.diagnostics ++ [_])).Nodup
    rw [huses, List.nodup_append]
    exact ⟨h.nodup, List.nodup_singleton name, fun a ha b hb hab => hnew
      (List.mem_singleton.mp hb ▸ hab ▸ h.noted ha)⟩
  · show ignoredUses (p.diagnostics ++ [_]) ⊆ name :: p.reported
    rw [huses, List.append_subset]
    exact ⟨List.Subset.trans h.noted (List.subset_cons_self _ _),
      List.cons_subset.mpr ⟨List.mem_cons_self, List.nil_subset _⟩⟩
  · show ∀ other ∈ ignoredUses (p.diagnostics ++ [_]), s.policy.ignores other = true
    rw [huses, List.forall_mem_append]
    exact ⟨h.ignored, List.forall_mem_singleton.mpr hignored⟩

theorem Progress.Warned.apply {event : Event} (h : p.Warned s) (hevent : event.Arises s) :
    (p.apply event).Warned s := by
  cases hevent with
  | unmappable => exact h.report rfl rfl (List.Subset.refl _)
  | unusual =>
    unfold Progress.apply
    dsimp only
    split
    · exact h
    · exact h.report rfl rfl (List.subset_cons_self _ _)
  | ignored reason hignored =>
    unfold Progress.apply
    dsimp only
    split
    · exact h
    · rename_i hnew
      exact h.use (fun hmem => hnew (List.contains_iff_mem.mpr hmem)) hignored
  | helper =>
    unfold Progress.apply
    dsimp only
    split
    · exact h
    · exact h.of_eq rfl rfl

theorem Progress.Warned.applyAll {events : List Event} (h : p.Warned s)
    (hevents : ∀ event ∈ events, event.Arises s) : (p.applyAll events).Warned s := by
  induction events generalizing p with
  | nil => exact h
  | cons event rest ih =>
    rw [List.forall_mem_cons] at hevents
    exact ih (h.apply hevents.1) hevents.2

/-- No step reports a use twice, also where the declarations of a node are taken back: what is noted
stays. -/
theorem warned_step (h : p.Warned s) (node : Declaration) : (step s p node).1.Warned s := by
  cases hmapped : isMapped s node with
  | true =>
    have hafter := h.applyAll (expected_declaration? (s := s) node)
    rw [step_of_mapped hmapped]
    split
    · rename_i declaration _
      cases declaration with
      | none => exact hafter
      | some d => exact hafter.of_eq rfl rfl
    · exact hafter.report rfl rfl (List.Subset.refl _)
    · exact hafter
  | false =>
    unfold step
    split
    · exact h
    split
    · dsimp only
      split
      · exact h.report rfl rfl (List.Subset.refl _)
      · exact h.of_eq rfl rfl
    split
    · exact h.of_eq rfl rfl
    · rename_i hinline hignored _ halias
      rw [Bool.not_eq_true] at hinline hignored
      rw [isMapped, hinline, hignored, halias] at hmapped
      cases hmapped

theorem warned_steps (h : p.Warned s) (nodes : List Declaration) : (steps s p nodes).1.Warned s := by
  induction nodes generalizing p with
  | nil => exact h
  | cons node rest ih =>
    have hstep := warned_step h node
    unfold steps
    split
    · rename_i next hnext
      rw [hnext] at hstep
      exact ih hstep
    · rename_i next failure hnext
      rw [hnext] at hstep
      exact hstep

/-- Every run, whether it ends with a binding or not, reports the uses of different ignored types. -/
theorem ignoredUses_run (s : Setting) :
    (ignoredUses (run s).diagnostics).Nodup ∧
      ∀ name ∈ ignoredUses (run s).diagnostics, s.policy.ignores name = true := by
  have hempty : Progress.Warned s {} := ⟨List.nodup_nil, List.nil_subset _, List.forall_mem_nil _⟩
  have hinitial : (initial s).Warned s := by
    unfold initial
    split
    · exact hempty.report rfl rfl (List.Subset.refl _)
    · exact hempty
  have hwarned := warned_steps hinitial s.tree.nodes
  rw [run_eq]
  generalize steps s (initial s) s.tree.nodes = ended at hwarned ⊢
  obtain ⟨p, failure⟩ := ended
  cases failure <;> exact ⟨hwarned.nodup, hwarned.ignored⟩

end

/-! ## At least once -/

/-- What a pointer points to, an array consists of or a typedef stands for. -/
def next? : Body String Int Bool → Option String
  | .pointer pointee _ => some pointee
  | .array element .. => some element
  | .typedef underlying => some underlying
  | _ => none

/-- Through pointers, arrays and typedefs, none of which is ignored or replaced, the name leads to that
ignored one. -/
inductive LeadsToIgnored (s : Setting) : String → String → Prop where
  | ignored {name : String} (hignored : s.policy.ignores name = true) : LeadsToIgnored s name name
  | link {name next last : String} {node : Declaration} (hnode : s.tree.node? name = some node)
      (hnext : next? node.body = some next) (hignored : s.policy.ignores name = false)
      (halias : s.policy.aliasFor? name = none) (h : LeadsToIgnored s next last) :
      LeadsToIgnored s name last

/-- The types that the declaration for a body is spelled with. Fields without a size are left out. -/
def usedTypes : Body String Int Bool → List String
  | .function result parameters .. | .functionPointer result parameters _ =>
    result :: parameters.map (·.type)
  | .record _ fields .. => (fields.filter (·.size ≠ 0)).map (·.type)
  | .typedef underlying => [underlying]
  | .global type => [type]
  | _ => []

/-- No ignored type is spelled where it is used: the names of pointers and arrays are not ignored. -/
def IgnoresNamedTypes (s : Setting) : Prop :=
  ∀ node ∈ s.tree.nodes, s.policy.ignores node.name = true → node.kind ≠ .pointer ∧ node.kind ≠ .array

/-- It is to be reported that the type is used. -/
def Notes (name : String) (events : List Event) : Prop := ∃ d, .reportOnce name d ∈ events

section

variable {α β : Type} {s : Setting} {name last : String} {x : Outcome α}

theorem Notes.bind {f : α → Outcome β} {a : α} (hresult : x.result = .ok a)
    (h : Notes name x.events ∨ Notes name (f a).events) : Notes name (x >>= f).events := by
  obtain ⟨events, result⟩ := x
  cases hresult
  rcases h with ⟨d, hd⟩ | ⟨d, hd⟩
  · exact ⟨d, List.mem_append_left _ hd⟩
  · exact ⟨d, List.mem_append_right _ hd⟩

/-- There is no stub for a type without a report of its use. -/
theorem notes_placeholder (s : Setting) (name : String) (position : Position) :
    Notes name (placeholder s name position).events :=
  Notes.bind rfl (.inl ⟨_, List.mem_singleton_self _⟩)

/-- The rule for a node asks for the use of the next type on the way, or for its stub. -/
theorem notes_nodeUse {use : String → Position → Outcome Binding.TypeUse} {node : Declaration}
    {position : Position} {next : String} {u : Binding.TypeUse} (hnext : next? node.body = some next)
    (hignored : s.policy.ignores node.name = false) (halias : s.policy.aliasFor? node.name = none)
    (huse : ∀ position u, (use next position).result = .ok u → Notes last (use next position).events)
    (hstub : s.policy.ignores next = true → last = next)
    (hu : (nodeUse use s node position).result = .ok u) :
    Notes last (nodeUse use s node position).events := by
  cases hbody : node.body <;> rw [hbody] at hnext <;> cases hnext
  case pointer size =>
    rw [nodeUse_of_structural? (by rw [structural?, hbody])] at hu ⊢
    split at hu
    · rename_i hpointee
      obtain ⟨_, hresult, -, -⟩ := Outcome.bind_eq_ok hu
      rw [if_pos hpointee, hstub hpointee]
      exact Notes.bind hresult (.inl (notes_placeholder s next .value))
    · rename_i hpointee
      rw [if_neg hpointee]
      obtain ⟨target, htarget, hu, -⟩ := Outcome.bind_eq_ok hu
      obtain ⟨inner, hinner, -, -⟩ := Outcome.bind_eq_ok hu
      exact Notes.bind htarget (.inr (Notes.bind hinner (.inl (huse _ inner hinner))))
  case array count size =>
    rw [nodeUse_of_structural? (by rw [structural?, hbody])] at hu ⊢
    obtain ⟨inner, hinner, -, -⟩ := Outcome.bind_eq_ok hu
    obtain ⟨element, helement, -, -⟩ := Outcome.bind_eq_ok hinner
    exact Notes.bind hinner (.inl (Notes.bind helement (.inl (huse _ element helement))))
  case typedef =>
    have hnone : structural? use s node position = none := by rw [structural?, hbody]
    simp only [nodeUse, hnone, hignored, halias, named, hbody, if_false, Bool.false_eq_true] at hu ⊢
    obtain ⟨inner, hinner, -, -⟩ := Outcome.bind_eq_ok hu
    exact Notes.bind hinner (.inl (huse _ inner hinner))

/-- Whoever uses a type that leads to an ignored one reports that. -/
theorem notes_useWithin (named : IgnoresNamedTypes s) (h : LeadsToIgnored s name last) :
    ∀ steps position u, (useWithin s steps name position).result = .ok u →
      Notes last (useWithin s steps name position).events := by
  induction h with
  | @ignored name hignored =>
    intro steps position u hu
    cases steps with
    | zero => cases hu
    | succ steps =>
      obtain ⟨node, hfound, -, -⟩ := Outcome.bind_eq_ok hu
      obtain rfl := node?_name (node_eq_ok hfound)
      obtain ⟨hpointer, harray⟩ := named node (node?_mem (node_eq_ok hfound)) hignored
      refine Notes.bind hfound (.inr ?_)
      rw [nodeUse_of_ignored hpointer harray hignored]
      exact notes_placeholder s _ position
  | @link name next last node hnode hnext hignored halias h ih =>
    intro steps position u hu
    cases steps with
    | zero => cases hu
    | succ steps =>
      obtain ⟨found, hfound, hrule, -⟩ := Outcome.bind_eq_ok hu
      obtain rfl : node = found := Option.some.inj (hnode.symm.trans (node_eq_ok hfound))
      obtain rfl := node?_name hnode
      refine Notes.bind hfound (.inr (notes_nodeUse hnext hignored halias (ih steps) ?_ hrule))
      intro hstop
      cases h with
      | ignored => rfl
      | link _ _ hgoes =>
        rw [hstop] at hgoes
        cases hgoes

theorem notes_typeUse (named : IgnoresNamedTypes s) (h : LeadsToIgnored s name last)
    {position : Position} {u : Binding.TypeUse} (hu : (typeUse s name position).result = .ok u) :
    Notes last (typeUse s name position).events :=
  notes_useWithin named h _ position u hu

/-- A parameter that leads to an ignored type is reported. -/
theorem notes_parametersFrom (named : IgnoresNamedTypes s) {index : Nat}
    {parameters : List (Parameter String)} {mapped : List Binding.Parameter}
    (hname : name ∈ parameters.map (·.type)) (h : LeadsToIgnored s name last)
    (hmapped : (parametersFrom s index parameters).result = .ok mapped) :
    Notes last (parametersFrom s index parameters).events := by
  induction parameters generalizing index mapped with
  | nil => cases hname
  | cons p rest ih =>
    obtain ⟨u, hu, hmapped, -⟩ := Outcome.bind_eq_ok hmapped
    obtain ⟨others, hothers, -, -⟩ := Outcome.bind_eq_ok hmapped
    rcases List.mem_cons.mp hname with rfl | hmem
    · exact Notes.bind hu (.inl (notes_typeUse named h hu))
    · exact Notes.bind hu (.inr (Notes.bind hothers (.inl (ih hmem hothers))))

/-- So is a field that is declared. -/
theorem notes_fieldsOf (named : IgnoresNamedTypes s) {node : Declaration}
    {padding : Field String Int → Int} {fields : List (Field String Int)} {mapped : List Binding.Field}
    (hname : name ∈ (fields.filter (·.size ≠ 0)).map (·.type)) (h : LeadsToIgnored s name last)
    (hmapped : (fieldsOf s node padding fields).result = .ok mapped) :
    Notes last (fieldsOf s node padding fields).events := by
  induction fields generalizing mapped with
  | nil => cases hname
  | cons f rest ih =>
    unfold fieldsOf at hmapped ⊢
    by_cases hsize : f.size = 0
    · rw [List.filter_cons_of_neg (by simpa using hsize)] at hname
      rw [if_pos hsize] at hmapped ⊢
      obtain ⟨_, hreport, hmapped, -⟩ := Outcome.bind_eq_ok hmapped
      exact Notes.bind hreport (.inr (ih hname hmapped))
    · rw [List.filter_cons_of_pos (by simpa using hsize), List.map_cons] at hname
      rw [if_neg hsize] at hmapped ⊢
      obtain ⟨u, hu, hmapped, -⟩ := Outcome.bind_eq_ok hmapped
      obtain ⟨others, hothers, -, -⟩ := Outcome.bind_eq_ok hmapped
      rcases List.mem_cons.mp hname with rfl | hmem
      · exact Notes.bind hu (.inl (notes_typeUse named h hu))
      · exact Notes.bind hu (.inr (Notes.bind hothers (.inl (ih hmem hothers))))

/-- What a variable that is an array is declared with leads on to the same ignored type. -/
theorem LeadsToIgnored.exposed (named : IgnoresNamedTypes s) (h : LeadsToIgnored s name last)
    {target : Declaration} (htarget : s.tree.node? name = some target) :
    LeadsToIgnored s (exposed target name) last := by
  unfold Mapping.exposed
  split
  · rename_i hbody
    cases h with
    | ignored hignored =>
      obtain rfl := node?_name htarget
      exact absurd (by rw [Node.kind, hbody]; rfl) (named target (node?_mem htarget) hignored).2
    | link hnode hnext _ _ h =>
      obtain rfl := Option.some.inj (htarget.symm.trans hnode)
      rw [hbody] at hnext
      cases hnext
      exact h
  · exact h

/-- A declaration is reported to use the ignored types that its own types lead to. -/
theorem notes_declaration? (named : IgnoresNamedTypes s) {node : Declaration}
    {d : Binding.Declaration} (hname : name ∈ usedTypes node.body) (h : LeadsToIgnored s name last)
    (hresult : (declaration? s node).result = .ok (some d)) :
    Notes last (declaration? s node).events := by
  unfold declaration? at hresult ⊢
  cases hbody : node.body <;> rw [hbody] at hname hresult
  case function result parameters isVariadic convention =>
    cases isVariadic with
    | true => cases hresult
    | false =>
      obtain ⟨u, hu, hresult, -⟩ := Outcome.bind_eq_ok hresult
      obtain ⟨mapped, hmapped, -, -⟩ := Outcome.bind_eq_ok hresult
      rcases List.mem_cons.mp hname with rfl | hmem
      · exact Notes.bind hu (.inl (notes_typeUse named h hu))
      · exact Notes.bind hu (.inr (Notes.bind hmapped
          (.inl (notes_parametersFrom named hmem h hmapped))))
  case functionPointer result parameters size =>
    obtain ⟨u, hu, hresult, -⟩ := Outcome.bind_eq_ok hresult
    obtain ⟨mapped, hmapped, -, -⟩ := Outcome.bind_eq_ok hresult
    rcases List.mem_cons.mp hname with rfl | hmem
    · exact Notes.bind hu (.inl (notes_typeUse named h hu))
    · exact Notes.bind hu (.inr (Notes.bind hmapped
        (.inl (notes_parametersFrom named hmem h hmapped))))
  case record isUnion fields size align =>
    obtain ⟨mapped, hmapped, -, -⟩ := Outcome.bind_eq_ok hresult
    exact Notes.bind hmapped (.inl (notes_fieldsOf named hname h hmapped))
  case typedef underlying =>
    obtain rfl := List.mem_singleton.mp hname
    obtain ⟨u, hu, -, -⟩ := Outcome.bind_eq_ok hresult
    exact Notes.bind hu (.inl (notes_typeUse named h hu))
  case global type =>
    obtain rfl := List.mem_singleton.mp hname
    obtain ⟨target, htarget, hresult, -⟩ := Outcome.bind_eq_ok hresult
    obtain ⟨u, hu, -, -⟩ := Outcome.bind_eq_ok hresult
    exact Notes.bind htarget (.inr (Notes.bind hu
      (.inl (notes_typeUse named (h.exposed named (node_eq_ok htarget)) hu))))
  all_goals cases hname

end

/-! ## The whole tree -/

section

variable {s : Setting} {b : Binding.Bindings}

/-- A use of an ignored type that was noted for some node is among the reports. -/
theorem mem_ignoredUses_run (hrun : (run s).bindings = .ok b) {node : Declaration}
    (hnode : node ∈ s.tree.nodes) {name : String} (hignored : s.policy.ignores name = true)
    (h : Notes name (eventsOf s node)) : name ∈ ignoredUses (run s).diagnostics := by
  obtain ⟨d, hd⟩ := h
  obtain ⟨other, -, d', hd', hevent⟩ := exists_reportedOnce_run hrun hnode hd
  refine List.mem_filterMap.mpr ⟨d', hd', ?_⟩
  unfold eventsOf at hevent
  split at hevent
  · rcases reports_declaration? s other _ hevent with ⟨hnot, -⟩ | ⟨-, reason, rfl⟩
    · rw [hignored] at hnot
      cases hnot
    · rfl
  · cases hevent

theorem LeadsToIgnored.ignores {name last : String} (h : LeadsToIgnored s name last) :
    s.policy.ignores last = true := by
  induction h with
  | ignored hignored => exact hignored
  | link _ _ _ _ _ ih => exact ih

/-- The use of an ignored type is reported once. No run reports one twice, or the use of a type that is
not ignored. In a run that ends with a binding, if a type of a declaration leads through pointers, arrays
and typedefs to an ignored type, the use of that is reported, provided that no pointer or array is itself
ignored. -/
theorem ignored_uses_reported {s : Setting} {b : Binding.Bindings} (hnames : s.tree.names.Nodup)
    (named : IgnoresNamedTypes s) (hrun : (run s).bindings = .ok b) :
    (∀ name, (ignoredUses (run s).diagnostics).count name ≤ 1) ∧
    (∀ name ∈ ignoredUses (run s).diagnostics, s.policy.ignores name = true) ∧
    ∀ node ∈ s.tree.nodes, ∀ d ∈ b.declarations, StandsFor d node →
      ∀ type ∈ usedTypes node.body, ∀ name, LeadsToIgnored s type name →
        (ignoredUses (run s).diagnostics).count name = 1 := by
  obtain ⟨hnodup, hignored⟩ := ignoredUses_run s
  refine ⟨List.nodup_iff_count_le_one.mp hnodup, hignored, ?_⟩
  intro node hnode d hd hstands type htype name hleads
  have hmem : d ∈ b.ofNodes := List.mem_filter.mpr ⟨hd, by simpa using hstands.kind_ne⟩
  obtain ⟨other, hother, hdeclared⟩ := (mem_ofNodes_iff hrun).mp hmem
  -- the declaration was made for a node of the same name
  have hsame : other = node := by
    have horigin := (standsFor_of_declared? hdeclared).origin.symm.trans hstands.origin
    exact List.inj_on_of_nodup_map hnames hother hnode (Option.some.inj horigin)
  subst hsame
  have hnotes : Notes name (eventsOf s other) := by
    rw [eventsOf, if_pos (isMapped_of_declared? hdeclared)]
    exact notes_declaration? named htype hleads (declaration?_of_declared? hdeclared)
  exact List.count_eq_one_of_mem hnodup (mem_ignoredUses_run hrun hnode hleads.ignores hnotes)

end

/-- A tree in which an ignored record is used by itself, behind a pointer and in an array of pointers by a
typedef, first of all by a function that is left out. -/
def ledger : Setting where
  tree := ⟨"ledger.h", 64, [
    ⟨"int", .primitive 4 4, none⟩,
    ⟨"secret", .record false [⟨"key", "int", 0, 4⟩] 4 4, none⟩,
    ⟨"secret*", .pointer "secret" 8, none⟩,
    ⟨"handle", .typedef ("secret*"), none⟩,
    ⟨"handle[2]", .array "handle" 2 16, none⟩,
    ⟨"broken", .function "secret" [⟨"next", "gone"⟩] false "cdecl", none⟩,
    ⟨"book", .record false [⟨"pages", "handle[2]", 0, 16⟩, ⟨"mark", "secret", 16, 4⟩] 24 8, none⟩]⟩
  policy := ⟨"Ledger", [], ["secret"], none⟩

theorem ignored_uses_reported_ledger :
    ledger.tree.names.Nodup ∧ IgnoresNamedTypes ledger ∧
    LeadsToIgnored ledger "handle[2]" "secret" ∧
    ∃ b, (run ledger).bindings = .ok b ∧
      (run ledger).diagnostics = [⟨.ignoredTypeUsed "secret" "is in the ignored type names", none⟩,
        ⟨.danglingType "gone" "broken", some ""⟩] ∧
      (ignoredUses (run ledger).diagnostics).count "secret" = 1 := by
  have hdistinct : ledger.tree.names.Nodup := by decide +kernel
  have named : IgnoresNamedTypes ledger := by
    unfold IgnoresNamedTypes
    decide +kernel
  have hleads : LeadsToIgnored ledger "handle[2]" "secret" :=
    .link rfl rfl (by decide) (by decide) (.link rfl rfl (by decide) (by decide)
      (.link rfl rfl (by decide) (by decide) (.ignored (by decide))))
  have hok : (run ledger).bindings.isOk = true := by decide +kernel
  have hsome : (declared? ledger ledger.tree.nodes[6]).isSome = true := by decide +kernel
  refine ⟨hdistinct, named, hleads, ?_⟩
  cases hrun : (run ledger).bindings with
  | error failure =>
    rw [hrun] at hok
    cases hok
  | ok b =>
    obtain ⟨d, hdeclared⟩ := Option.isSome_iff_exists.mp hsome
    have hmem := (mem_ofNodes_iff hrun).mpr ⟨_, List.getElem_mem _, hdeclared⟩
    refine ⟨b, rfl, by decide +kernel, ?_⟩
    exact (ignored_uses_reported hdistinct named hrun).2.2 ledger.tree.nodes[6] (List.getElem_mem _) d
      (List.mem_of_mem_filter hmem) (standsFor_of_declared? hdeclared) "handle[2]" (by decide) "secret"
      hleads

end Mapping
end CInterop
