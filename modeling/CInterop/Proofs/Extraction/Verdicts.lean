import CInterop.Proofs.Extraction.Telling
import CInterop.Proofs.Macro.Screening
import CInterop.Proofs.Success

/-!
# Verdicts on macros

Every macro that is judged becomes a constant or is excluded, with one diagnostic. Macros are screened
first, each against those before it that passed; what passes is typed, and judged again, as a macro is
no constant either if one that it needs has failed meanwhile. `Judged` is a run of that second pass
without its state. What holds of the constants follows from it by induction, whatever the types are
looked up in and whatever the front end says.
-/

namespace CInterop

/-- The macro that the diagnostic excludes. -/
def Diagnostic.excluded? (d : Diagnostic) : Option String :=
  match d.cause with
  | .macroNotConstant name _ => some name
  | _ => none

theorem Diagnostic.excluded?_of_isRemark {d : Diagnostic} (h : d.IsRemark) : d.excluded? = none := by
  unfold Diagnostic.IsRemark at h
  unfold Diagnostic.excluded?
  split at h <;> simp_all

namespace Extraction

open FrontEnd Header
open Macro (Candidate Expr)

/-! ## Who is excluded -/

/-- What was told between the states follows what was told before, and excludes the macros in that
order. -/
def Excludes (names : List String) (s s' : State) : Prop :=
  ∃ own, s'.diagnostics = s.diagnostics ++ own ∧ own.filterMap Diagnostic.excluded? = names

namespace Excludes

variable {names names' : List String} {s s' s'' : State}

theorem of_tells (h : Tells (·.excluded? = none) s s') : Excludes [] s s' := by
  obtain ⟨own, hdiagnostics, hown⟩ := h
  exact ⟨own, hdiagnostics, List.filterMap_eq_nil_iff.mpr hown⟩

theorem trans (h : Excludes names s s') (h' : Excludes names' s' s'') :
    Excludes (names ++ names') s s'' := by
  obtain ⟨own, hdiagnostics, hown⟩ := h
  obtain ⟨own', hdiagnostics', hown'⟩ := h'
  refine ⟨own ++ own', ?_, ?_⟩
  · rw [hdiagnostics', hdiagnostics, List.append_assoc]
  · rw [List.filterMap_append, hown, hown']

theorem subset (h : Excludes names s s') : s.diagnostics ⊆ s'.diagnostics := by
  obtain ⟨own, hdiagnostics, -⟩ := h
  rw [hdiagnostics]
  exact List.subset_append_left _ _

end Excludes

namespace Build

variable {α β : Type} {c : Setting} {types : TypeRegistry} {s s' : State}

/-- Where the step has a result, it has excluded no macro. -/
def Silent (x : Build α) : Prop := ∀ s a s', x s = .ok a s' → Excludes [] s s'

namespace Silent

variable {x : Build α}

theorem of_telling (h : Telling (·.excluded? = none) x) : Silent x :=
  fun _ _ _ hx => .of_tells (h.of_ok hx)

theorem pure (a : α) : Silent (pure a : Build α) := .of_telling (.pure a)

theorem bind {f : α → Build β} (hx : Silent x) (hf : ∀ a, Silent (f a)) : Silent (x >>= f) := by
  intro s b s'' h
  obtain ⟨a, s', hfirst, hsecond⟩ := Steps.bind_eq_ok h
  exact (hx s a s' hfirst).trans (hf a s' b s'' hsecond)

end Silent

theorem composes_silent : Composes Silent := ⟨Silent.pure, Silent.bind⟩

/-- Types can be looked up without a macro being excluded. -/
structure TypeRegistry.IsSilent (types : TypeRegistry) : Prop where
  resolveType : ∀ t, Silent (types.resolveType t)
  stringType : Silent types.stringType

/-- The types of a header can. -/
theorem isSilent_typeRegistry (c : Setting) : (typeRegistry c).IsSilent where
  resolveType t := .of_telling
    ((telling_attempt (telling_resolve c t)).mono fun _ => Diagnostic.excluded?_of_isRemark)
  stringType := .of_telling (telling_stringType c)

/-- A macro that passes has no error on its line, and all names in its replacement are constants. -/
theorem judge_eq_ok {constants : List String} {line : Nat} {m : Candidate} {type : String}
    (h : judge c types constants line m s = .ok (.ok type) s') :
    typingError? c line = none ∧
      ∀ name ∈ (m.expr?.map (·.identifiers)).getD [], name ∈ constants := by
  unfold judge at h
  cases hcompiles : typingError? c line with
  | some message =>
    rw [hcompiles] at h
    cases h
  | none =>
    rw [hcompiles] at h
    dsimp only at h
    cases hmissing : ((m.expr?.map (·.identifiers)).getD []).find?
        (fun name => !constants.contains name) with
    | some missing =>
      rw [hmissing] at h
      cases h
    | none =>
      refine ⟨rfl, ?_⟩
      simpa [List.find?_eq_none] using hmissing

theorem exclude_eq_ok {m : Candidate} {reason : String} (h : exclude c m reason s = .ok () s') :
    Excludes [m.name] s s' := by
  obtain ⟨_, s₁, hdetail, hreport⟩ := Steps.bind_eq_ok h
  have hfirst := Excludes.of_tells ((telling_detail c _).of_ok hdetail)
  cases hreport
  exact hfirst.trans ⟨_, rfl, rfl⟩

/-! ## The two passes -/

/-- Screening excludes the macros that something speaks against, and lets the others through. -/
theorem screenAll_eq_ok {screened : List (Candidate × Option Expr.Objection)} {kept : List Candidate}
    (h : screenAll c screened s = .ok kept s') :
    kept = Candidate.kept screened ∧ Excludes ((Candidate.dropped screened).map (·.name)) s s' := by
  induction screened generalizing s kept with
  | nil =>
    cases h
    exact ⟨rfl, .of_tells (.of_eq rfl)⟩
  | cons first rest ih =>
    obtain ⟨m, objection?⟩ := first
    cases objection? with
    | some objection =>
      obtain ⟨_, s₁, hexclude, hrest⟩ := Steps.bind_eq_ok h
      obtain ⟨hkept, hexcludes⟩ := ih hrest
      exact ⟨hkept, (exclude_eq_ok hexclude).trans hexcludes⟩
    | none =>
      obtain ⟨later, s₁, hlater, hpure⟩ := Steps.bind_eq_ok h
      cases hpure
      obtain ⟨hkept, hexcludes⟩ := ih hlater
      exact ⟨congrArg (m :: ·) hkept, hexcludes⟩

/-- The constant that a macro becomes with a type. -/
def constantOf (m : Candidate) (type : String) : Declaration :=
  ⟨m.name, .constant type m.replacement, m.place⟩

/-- How macros that are typed from a line on are judged after some constants: all constants there are in
the end, and the macros that are excluded, in order. -/
inductive Judged (c : Setting) :
    List Declaration → Nat → List Candidate → List Declaration → List String → Prop where
  | done {constants : List Declaration} {line : Nat} : Judged c constants line [] constants []
  | accepted {constants accepted : List Declaration} {line : Nat} {m : Candidate}
      {rest : List Candidate} {excluded : List String} (type : String)
      (compiles : typingError? c line = none)
      (closed : ∀ name ∈ (m.expr?.map (·.identifiers)).getD [], name ∈ constants.map (·.name))
      (later : Judged c (constants ++ [constantOf m type]) (line + 1) rest accepted excluded) :
      Judged c constants line (m :: rest) accepted excluded
  | excluded {constants accepted : List Declaration} {line : Nat} {m : Candidate}
      {rest : List Candidate} {excluded : List String}
      (later : Judged c constants (line + 1) rest accepted excluded) :
      Judged c constants line (m :: rest) accepted (m.name :: excluded)

theorem judged_of_judgeAll {constants accepted : List Declaration} {line : Nat} {ms : List Candidate}
    (h : judgeAll c types constants line ms s = .ok accepted s') :
    ∃ excluded, Judged c constants line ms accepted excluded ∧
      (types.IsSilent → Excludes excluded s s') := by
  induction ms generalizing constants line s with
  | nil =>
    cases h
    exact ⟨[], .done, fun _ => .of_tells (.of_eq rfl)⟩
  | cons m rest ih =>
    obtain ⟨verdict, s₁, hjudge, hrest⟩ := Steps.bind_eq_ok h
    have hsilent (htypes : types.IsSilent) : Excludes [] s s₁ :=
      composes_silent.judge htypes.stringType htypes.resolveType _ _ _ _ _ _ hjudge
    cases verdict with
    | error reason =>
      obtain ⟨_, s₂, hexclude, hlater⟩ := Steps.bind_eq_ok hrest
      obtain ⟨excluded, hjudged, hexcludes⟩ := ih hlater
      exact ⟨_, .excluded hjudged, fun htypes =>
        (hsilent htypes).trans ((exclude_eq_ok hexclude).trans (hexcludes htypes))⟩
    | ok type =>
      obtain ⟨_, s₂, hdetail, hlater⟩ := Steps.bind_eq_ok hrest
      obtain ⟨excluded, hjudged, hexcludes⟩ := ih hlater
      obtain ⟨hcompiles, hclosed⟩ := judge_eq_ok hjudge
      have hquiet := Excludes.of_tells ((telling_detail c _).of_ok hdetail)
      exact ⟨_, .accepted type hcompiles hclosed hjudged, fun htypes =>
        (hsilent htypes).trans (hquiet.trans (hexcludes htypes))⟩

namespace Judged

variable {constants accepted : List Declaration} {line : Nat} {ms : List Candidate}
  {excluded : List String}

/-- Constants are added in the order of their macros, and all other macros are excluded. -/
theorem exists_new (h : Judged c constants line ms accepted excluded) :
    ∃ new, accepted = constants ++ new ∧ (new.map (·.name)).Sublist (ms.map (·.name)) ∧
      (new.map (·.name) ++ excluded).Perm (ms.map (·.name)) := by
  induction h with
  | done => exact ⟨[], by simp, .slnil, .nil⟩
  | @accepted _ _ _ m _ _ type _ _ _ ih =>
    obtain ⟨new, rfl, hsub, hperm⟩ := ih
    exact ⟨constantOf m type :: new, by simp, hsub.cons_cons m.name, hperm.cons m.name⟩
  | @excluded _ _ _ m _ _ _ ih =>
    obtain ⟨new, rfl, hsub, hperm⟩ := ih
    exact ⟨new, rfl, hsub.cons m.name, List.perm_middle.trans (hperm.cons m.name)⟩

/-- What each new constant was accepted for, with the constants before it. -/
theorem of_split (h : Judged c constants line ms accepted excluded) {before after : List Declaration}
    {node : Declaration} (hsplit : accepted = constants ++ before ++ node :: after) :
    ∃ i m type, ms[i]? = some m ∧ node = constantOf m type ∧ typingError? c (line + i) = none ∧
      ∀ name ∈ (m.expr?.map (·.identifiers)).getD [], name ∈ (constants ++ before).map (·.name) := by
  induction h generalizing before with
  | done => simp at hsplit
  | @accepted constants _ line m _ _ type hcompiles hclosed hlater ih =>
    -- the constant in question is the one accepted here, or one that is accepted later
    cases before with
    | nil =>
      obtain ⟨new, rfl, -⟩ := hlater.exists_new
      obtain rfl : constantOf m type = node := by simp at hsplit; exact hsplit.1
      exact ⟨0, m, type, rfl, rfl, hcompiles, by simpa using hclosed⟩
    | cons first before =>
      obtain ⟨new, rfl, -⟩ := hlater.exists_new
      obtain ⟨rfl, hnew⟩ : constantOf m type = first ∧ new = before ++ node :: after := by
        simpa using hsplit
      have hrest : constants ++ [constantOf m type] ++ new =
          constants ++ [constantOf m type] ++ before ++ node :: after := by simp [hnew]
      obtain ⟨i, m', type', hm, hnode, hcompiles', hclosed'⟩ := ih hrest
      refine ⟨i + 1, m', type', hm, hnode, ?_, by simpa using hclosed'⟩
      rw [← hcompiles', Nat.add_assoc, Nat.add_comm 1 i]
  | excluded _ ih =>
    obtain ⟨i, m', type', hm, hnode, hcompiles', hclosed'⟩ := ih hsplit
    refine ⟨i + 1, m', type', hm, hnode, ?_, hclosed'⟩
    rw [← hcompiles', Nat.add_assoc, Nat.add_comm 1 i]

end Judged

/-- What it takes for a macro to become a constant, where it is the one at a place among those that are
typed: its replacement has the form of a constant and needs no macros but those that became constants
before, and no error was reported on the line that types it. -/
structure Becomes (c : Setting) (typed : List Candidate) (i : Nat) (m : Candidate) (e : Expr)
    (before : List Declaration) (node : Declaration) : Prop where
  place : typed[i]? = some m
  node : ∃ type, node = constantOf m type
  expression : Expr.ofText? m.replacement = some e
  literal : e.IsLiteral
  closed : ∀ name ∈ e.identifiers, ∃ other ∈ before, other.name = name
  line : (Candidate.typingLines (IgnoreRules.forwardSlashes c.header) (typed.map (·.name)))[
    Candidate.firstTypingLine + i - 1]? = some (Candidate.typingLine m.name)
  compiles : ∀ message ∈ c.translation.typing.messages, message.isError = true →
    message.file = some (typingPath c) →
    message.line ≠ ((Candidate.firstTypingLine + i : Nat) : Int)

theorem not_of_typingError? {line : Nat} (h : typingError? c line = none) :
    ∀ message ∈ c.translation.typing.messages, message.isError = true →
      message.file = some (typingPath c) → message.line ≠ (line : Int) := by
  intro message hmessage herror hfile hline
  rw [typingError?, Option.map_eq_none_iff, List.find?_eq_none] at h
  exact h message hmessage (by simp [herror, hfile, hline])

/-- The macros that pass the screening are judged, and all others are excluded before. -/
theorem judged_of_constants {candidates : List Candidate} {accepted : List Declaration}
    (h : constants c types candidates s = .ok accepted s') :
    ∃ excluded, Judged c [] Candidate.firstTypingLine
        (Candidate.kept (Candidate.screen [] candidates)) accepted excluded ∧
      (types.IsSilent → Excludes
        ((Candidate.dropped (Candidate.screen [] candidates)).map (·.name) ++ excluded) s s') := by
  obtain ⟨typed, s₁, hscreen, hrest⟩ := Steps.bind_eq_ok h
  obtain ⟨rfl, hdropped⟩ := screenAll_eq_ok hscreen
  split at hrest
  · rename_i hnone
    cases hrest
    rw [List.isEmpty_iff.mp hnone]
    exact ⟨[], .done, fun _ => by simpa using hdropped⟩
  · -- between the passes, the front end is only asked
    obtain ⟨_, s₂, hdetail, hrest⟩ := Steps.bind_eq_ok hrest
    obtain ⟨_, s₃, hask, hrest⟩ := Steps.bind_eq_ok hrest
    have hquiet := Excludes.of_tells ((telling_detail c _).of_ok hdetail)
    have hasked : Excludes [] s₂ s₃ := by
      cases hask
      exact .of_tells (.of_eq rfl)
    split at hrest
    · cases hrest
    · obtain ⟨excluded, hjudged, hexcludes⟩ := judged_of_judgeAll hrest
      exact ⟨excluded, hjudged, fun htypes =>
        hdropped.trans (hquiet.trans (hasked.trans (hexcludes htypes)))⟩

/-- Of macros, those become constants that it takes, in order; every other one is excluded. -/
theorem constants_eq_ok {candidates : List Candidate} {accepted : List Declaration}
    (h : constants c types candidates s = .ok accepted s') :
    (accepted.map (·.name)).Sublist (candidates.map (·.name)) ∧
    (∃ excluded, (accepted.map (·.name) ++ excluded).Perm (candidates.map (·.name)) ∧
      (types.IsSilent → Excludes excluded s s')) ∧
    ∀ before node after, accepted = before ++ node :: after →
      ∃ i m e, Becomes c (Candidate.kept (Candidate.screen [] candidates)) i m e before node := by
  obtain ⟨excluded, hjudged, hexcludes⟩ := judged_of_constants h
  obtain ⟨new, hnew, hsub, hperm⟩ := hjudged.exists_new
  obtain rfl : accepted = new := hnew
  have hparts := (Candidate.perm_kept_dropped [] candidates).map (·.name)
  rw [List.map_append] at hparts
  refine ⟨hsub.trans ((Candidate.kept_sublist [] candidates).map _), ⟨_, ?_, hexcludes⟩, ?_⟩
  · -- those that screening has dropped were excluded first
    refine .trans ?_ ((hperm.append_right _).trans hparts)
    rw [List.append_assoc]
    exact List.perm_append_comm.append_left _
  · intro before node after hsplit
    obtain ⟨i, m, type, hm, hnode, hcompiles, hclosed⟩ := hjudged.of_split hsplit
    obtain ⟨e, he, hliteral⟩ := Candidate.isLiteral_of_kept (List.mem_of_getElem? hm)
    refine ⟨i, m, e, hm, ⟨type, hnode⟩, he, hliteral, ?_, ?_, not_of_typingError? hcompiles⟩
    · intro name hname
      rw [he] at hclosed
      exact List.mem_map.mp (hclosed name hname)
    · exact Candidate.typingLines_get _ hm

end Build
end Extraction
end CInterop
