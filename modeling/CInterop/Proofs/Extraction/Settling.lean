import CInterop.Proofs.Extraction.Rollback
import CInterop.Proofs.Extraction.Verdicts

/-!
# Settling the macros

At the end of a header, the macros that are defined more than once are reported, and the others are
judged, which adds types to the registry but no constants. Then every macro gets its node or gives up
its name. So the constants of a tree are those that were accepted, and every other macro is excluded.
-/

namespace CInterop.Extraction.Build

open FrontEnd Header
open Macro (Candidate)

variable {α β : Type} {c : Setting} {s s' : State}

/-! ## Judging adds no constants -/

/-- Where the step has a result, it only adds to the registry, and no constants. -/
def Continuing (x : Build α) : Prop := ∀ s a s', x s = .ok a s' → Continues s s'

namespace Continuing

variable {x : Build α}

theorem of_growing
    (h : ∀ s, Leads Unrestricted x s (fun _ => True) fun _ s' => Extends Unrestricted s s') :
    Continuing x :=
  fun s _ _ hresult => (leads_ok (h s) hresult).continues

theorem of_quiet (h : ∀ s, Leads Unrestricted x s (fun _ => True) fun _ s' => Quiet s s') :
    Continuing x :=
  .of_growing fun s => (h s).post fun _ _ hquiet => hquiet.growth

theorem pure (a : α) : Continuing (pure a : Build α) := .of_quiet fun s => .pure (.refl s)

theorem throw (stop : Stop) : Continuing (throw stop : Build α) := fun _ _ _ hx => by cases hx

theorem bind {f : α → Build β} (hx : Continuing x) (hf : ∀ a, Continuing (f a)) :
    Continuing (x >>= f) := by
  intro s b s'' h
  obtain ⟨a, s', hfirst, hsecond⟩ := Steps.bind_eq_ok h
  exact (hx s a s' hfirst).trans (hf a s' b s'' hsecond)

end Continuing

theorem continuing_detail (line : String) : Continuing (detail c line) :=
  .of_quiet fun _ => leads_detail c _

theorem continuing_exclude (candidate : Candidate) (reason : String) :
    Continuing (exclude c candidate reason) :=
  .of_quiet fun _ => leads_exclude candidate reason

theorem continuing_constants (candidates : List Candidate) :
    Continuing (constants c (typeRegistry c) candidates) := by
  refine Composes.constants ⟨Continuing.pure, Continuing.bind⟩ (fun _ => .throw _) continuing_detail
    (fun _ => .of_quiet fun _ => leads_ask _) continuing_exclude ?_ ?_ candidates
  · exact .of_growing fun s => leads_stringType.post fun _ _ h => h.grown.growth
  · intro t
    refine .of_growing fun s => (resolves_resolve c t s).attempt.post fun type? s' h => ?_
    cases type? with
    | none => exact h.2 rfl
    | some type => exact (h.1 type rfl).grown.growth

theorem continuing_judgeMacros : Continuing (judgeMacros c) :=
  Composes.judgeMacros ⟨.pure, .bind⟩ (.of_quiet fun _ => leads_get)
    (fun _ _ _ => .of_quiet fun _ => leads_report _ _) continuing_constants

/-! ## What becomes of the names -/

theorem node?_settle {accepted : List Declaration} {m : Candidate} (h : settle accepted m s = .ok () s')
    (name : String) : s'.registry.node? name =
      if name = m.name then (accepted.find? (·.name = name)).or (s.registry.node? name)
      else s.registry.node? name := by
  unfold settle at h
  cases hfind : accepted.find? (·.name = m.name) with
  | some node =>
    rw [hfind] at h
    cases h
    have hnode : node.name = m.name := by simpa using List.find?_some hfind
    show (s.registry.declare node).node? name = _
    rw [Registry.node?_declare, hnode]
    split
    · rename_i heq
      rw [heq, hfind, Option.some_or]
    · rfl
  | none =>
    rw [hfind] at h
    cases h
    dsimp only
    by_cases heq : name = m.name
    · subst heq
      rw [if_pos rfl, hfind, Option.none_or]
      split
      · rfl
      · rename_i hnone
        rw [Registry.node?_release, if_pos rfl]
        simpa using (Eq.symm (by simpa using hnone))
    · rw [if_neg heq]
      split
      · rfl
      · rw [Registry.node?_release, if_neg heq]

theorem settle_eq_ok {accepted : List Declaration} {m : Candidate} (h : settle accepted m s = .ok () s') :
    (s.registry.WellFormed → s'.registry.WellFormed) ∧ s'.diagnostics = s.diagnostics := by
  unfold settle at h
  cases hfind : accepted.find? (·.name = m.name) with
  | some node =>
    rw [hfind] at h
    cases h
    exact ⟨fun hwell => hwell.declare node, rfl⟩
  | none =>
    rw [hfind] at h
    cases h
    dsimp only
    split
    · exact ⟨id, rfl⟩
    · exact ⟨fun hwell => hwell.release _, rfl⟩

/-- In the end, the macros that became constants have their nodes, and every other name has the node
that it had. -/
theorem forM_settle_eq_ok {accepted : List Declaration} {ms : List Candidate}
    (h : ms.forM (settle accepted) s = .ok () s') :
    (s.registry.WellFormed → s'.registry.WellFormed) ∧ s'.diagnostics = s.diagnostics ∧
      ∀ name, s'.registry.node? name =
        if name ∈ ms.map (·.name) then (accepted.find? (·.name = name)).or (s.registry.node? name)
        else s.registry.node? name := by
  induction ms generalizing s with
  | nil =>
    cases h
    exact ⟨id, rfl, fun name => by simp⟩
  | cons m rest ih =>
    obtain ⟨_, s₁, hsettle, hlater⟩ := Steps.bind_eq_ok h
    obtain ⟨hwell, hdiagnostics⟩ := settle_eq_ok hsettle
    obtain ⟨hwell', hdiagnostics', hnodes⟩ := ih hlater
    refine ⟨fun h => hwell' (hwell h), hdiagnostics'.trans hdiagnostics, fun name => ?_⟩
    -- a name that stands twice is settled twice, with the same node
    rw [hnodes, node?_settle hsettle, List.map_cons]
    by_cases hname : name = m.name
    · rw [if_pos hname, if_pos (List.mem_cons.mpr (.inl hname)), ← Option.or_assoc, Option.or_self]
      split <;> rfl
    · rw [if_neg hname]
      simp [hname]

/-! ## The phases of settling -/

/-- Macros that are reported are excluded. -/
theorem forM_report_eq_ok {ms : List Candidate} {reason : String} {place : Candidate → String}
    (h : ms.forM (fun m => report (.macroNotConstant m.name reason) (place m)) s = .ok () s') :
    Excludes (ms.map (·.name)) s s' ∧ Quiet s s' := by
  induction ms generalizing s with
  | nil =>
    cases h
    exact ⟨.of_tells (.of_eq rfl), .refl _⟩
  | cons m rest ih =>
    obtain ⟨_, s₁, hreport, hlater⟩ := Steps.bind_eq_ok h
    obtain ⟨hexcludes, hquiet⟩ := ih hlater
    have hfirst : Excludes [m.name] s s₁ ∧ Quiet s s₁ := by
      cases hreport
      exact ⟨⟨_, rfl, rfl⟩, rfl, rfl⟩
    exact ⟨hfirst.1.trans hexcludes, hfirst.2.trans hquiet⟩

/-- Macros become constants or are excluded, each one once. -/
theorem judgeMacros_eq_ok {accepted : List Declaration} (h : judgeMacros c s = .ok accepted s') :
    (∃ excluded, (accepted.map (·.name) ++ excluded).Perm (s.candidates.map (·.name)) ∧
      Excludes excluded s s') ∧
    ∀ before node after, accepted = before ++ node :: after →
      ∃ typed i m e, Becomes c typed i m e before node := by
  unfold judgeMacros at h
  obtain ⟨_, _, hget, hrest⟩ := Steps.bind_eq_ok h
  cases hget
  dsimp only at hrest
  obtain ⟨_, s₁, hreports, hconstants⟩ := Steps.bind_eq_ok hrest
  obtain ⟨-, ⟨excluded, hperm, hexcludes⟩, hbecomes⟩ := constants_eq_ok hconstants
  refine ⟨⟨_, ?_, (forM_report_eq_ok hreports).1.trans (hexcludes (isSilent_typeRegistry c))⟩,
    fun before node after hsplit => ⟨_, hbecomes before node after hsplit⟩⟩
  have hparts := (List.filter_append_perm (fun m : Candidate => s.redefined.contains m.name)
    s.candidates).map (·.name)
  rw [List.map_append] at hparts
  exact (List.perm_append_comm_assoc _ _ _).trans ((hperm.append_left _).trans hparts)

/-- The macros are judged first, and then each of them is settled. -/
theorem judged_of_settleMacros (h : settleMacros c s = .ok () s') :
    ∃ accepted judged, judgeMacros c s = .ok accepted judged ∧
      s.candidates.forM (settle accepted) judged = .ok () s' := by
  unfold settleMacros at h
  obtain ⟨_, _, hget, hrest⟩ := Steps.bind_eq_ok h
  cases hget
  exact Steps.bind_eq_ok hrest

/-- What settling the macros comes to: `accepted` are the macros that became constants, in order, and
`excluded` all others. -/
structure Settlement (c : Setting) (accepted : List Declaration) (excluded : List String)
    (s s' : State) : Prop where
  excludes : Excludes excluded s s'
  accounted : (accepted.map (·.name) ++ excluded).Perm (s.candidates.map (·.name))
  becomes : ∀ before node after, accepted = before ++ node :: after →
    ∃ typed i m e, Becomes c typed i m e before node
  wellFormed : s'.registry.WellFormed
  declared : ∀ node ∈ accepted, ∃ constant ∈ accepted, s'.registry.node? node.name = some constant
  kept : ∀ name node, s.registry.node? name = some node → s'.registry.node? name = some node ∨
    ∃ constant ∈ accepted, constant.name = name ∧ s'.registry.node? name = some constant
  constants : ∀ name node, s'.registry.node? name = some node → node.kind = .constant →
    node ∈ accepted

namespace Settlement

variable {accepted : List Declaration} {excluded : List String} {node : Declaration}

theorem kind_of_mem (h : Settlement c accepted excluded s s') (hnode : node ∈ accepted) :
    node.kind = .constant := by
  obtain ⟨before, after, hsplit⟩ := List.append_of_mem hnode
  obtain ⟨typed, i, m, e, hbecomes⟩ := h.becomes before node after hsplit
  obtain ⟨type, rfl⟩ := hbecomes.node
  rfl

theorem name_of_mem (h : Settlement c accepted excluded s s') (hnode : node ∈ accepted) :
    ∃ m ∈ s.candidates, m.name = node.name := by
  have hmem := h.accounted.subset (List.mem_append_left excluded (List.mem_map_of_mem hnode))
  exact List.mem_map.mp hmem

end Settlement

theorem settleMacros_eq_ok (hs : Pending s) (h : settleMacros c s = .ok () s') :
    ∃ accepted excluded, Settlement c accepted excluded s s' := by
  obtain ⟨accepted, s₂, hjudge, hsettle⟩ := judged_of_settleMacros h
  obtain ⟨⟨excluded, hperm, hexcludes⟩, hbecomes⟩ := judgeMacros_eq_ok hjudge
  obtain ⟨hwell, hdiagnostics, hlookup⟩ := forM_settle_eq_ok hsettle
  have hcontinues : Continues s s₂ := continuing_judgeMacros _ _ _ hjudge
  have hnames : ∀ node ∈ accepted, node.name ∈ s.candidates.map (·.name) := fun node hnode =>
    hperm.subset (List.mem_append_left excluded (List.mem_map_of_mem hnode))
  have hfound (name : String) (node : Declaration) (h : accepted.find? (·.name = name) = some node) :
      node ∈ accepted ∧ node.name = name :=
    ⟨List.mem_of_find?_eq_some h, by simpa using List.find?_some h⟩
  refine ⟨accepted, excluded, ?_, hperm, hbecomes, hwell (hcontinues.wellFormed hs.wellFormed), ?_,
    ?_, ?_⟩
  · unfold Excludes
    rw [hdiagnostics]
    exact hexcludes
  · intro node hnode
    rw [hlookup, if_pos (hnames node hnode)]
    cases hfind : accepted.find? (·.name = node.name) with
    | some constant => exact ⟨constant, (hfound _ _ hfind).1, rfl⟩
    | none => exact absurd (List.find?_eq_none.mp hfind node hnode) (by simp)
  · intro name node hnode
    rw [hlookup, hcontinues.kept name node hnode]
    split
    · cases hfind : accepted.find? (·.name = name) with
      | some constant => exact .inr ⟨constant, (hfound _ _ hfind).1, (hfound _ _ hfind).2, rfl⟩
      | none => exact .inl rfl
    · exact .inl rfl
  · intro name node hnode hkind
    -- there was no constant before, and judging has added none
    have hother : s₂.registry.node? name ≠ some node := by
      intro hnode
      rcases hcontinues.fresh name node hnode with hold | hnew
      · exact hs.unsettled name node hold hkind
      · exact hnew hkind
    rw [hlookup] at hnode
    split at hnode
    · cases hfind : accepted.find? (·.name = name) with
      | some constant =>
        rw [hfind] at hnode
        cases hnode
        exact (hfound _ _ hfind).1
      | none =>
        rw [hfind] at hnode
        exact absurd hnode hother
    · exact absurd hnode hother

end CInterop.Extraction.Build
