import CInterop.Proofs.Extraction.Effect
import CInterop.Proofs.Extraction.Settling

/-!
# What the front end is asked

After a header was opened, the front end is asked at most once more: when the macros are judged, and only
if some of them pass the screening. Then it is asked for a source that is no file and has one line for
each of these macros, below the line that includes the header.
-/

namespace CInterop.Extraction.Build

open FrontEnd Header
open Macro (Candidate)

variable {c : Setting} {types : TypeRegistry} {s s' : State}

/-- The front end was not asked in between. -/
def Unasked (s s' : State) : Prop := s'.requests = s.requests

theorem accumulates_unasked : Accumulates Unasked where
  trans h h' := h'.trans h
  aside _ h := h
  reserve _ _ := rfl
  declare _ _ := rfl

theorem unasked_visit (e : Entity) : Leaving Unasked (visit c e) := by
  have hunasked := accumulates_unasked
  refine hunasked.registers.visit hunasked.admits.toSpeaks hunasked.resolve (fun e body hbody s => ?_)
    hunasked.collectMacro e
  rcases after_declaration c e body s with hkept | ⟨d, hundone⟩
  · rw [hkept]
    exact hbody s
  · rw [hundone]
    exact hbody s

/-- Types can be looked up without the front end being asked. -/
structure TypeRegistry.AsksNothing (types : TypeRegistry) : Prop where
  resolveType : ∀ t, Leaving Unasked (types.resolveType t)
  stringType : Leaving Unasked types.stringType

/-- The types of a header can. -/
theorem asksNothing_typeRegistry (c : Setting) : (typeRegistry c).AsksNothing where
  resolveType := accumulates_unasked.attempt_resolve
  stringType := accumulates_unasked.stringType

/-! ## Typing macros -/

/-- What the front end is asked to type macros: the text of their lines, if there are any macros. -/
def typingRequests (c : Setting) (typed : List Candidate) : List Request :=
  if typed.isEmpty then []
  else
    let lines := Candidate.typingLines (IgnoreRules.forwardSlashes c.header) (typed.map (·.name))
    [⟨typingPath c, c.arguments, requestOptions, some (String.join (lines.map (· ++ "\n")))⟩]

theorem requests_constants (htypes : types.AsksNothing) {candidates : List Candidate}
    {accepted : List Declaration} (h : constants c types candidates s = .ok accepted s') :
    s'.requests =
      s.requests ++ typingRequests c (Candidate.kept (Candidate.screen [] candidates)) := by
  have hunasked := accumulates_unasked
  obtain ⟨typed, s₁, hscreen, hrest⟩ := Steps.bind_eq_ok h
  obtain ⟨rfl, -⟩ := screenAll_eq_ok hscreen
  have hscreened : s₁.requests = s.requests :=
    (hunasked.composes.screenAll hunasked.exclude _).of_ok hscreen
  unfold typingRequests
  split at hrest
  · rename_i hnone
    cases hrest
    rw [if_pos hnone, List.append_nil, hscreened]
  · rename_i hsome
    obtain ⟨_, s₂, hdetail, hrest⟩ := Steps.bind_eq_ok hrest
    obtain ⟨_, s₃, hask, hrest⟩ := Steps.bind_eq_ok hrest
    have hdetailed : s₂.requests = s₁.requests := (hunasked.admits.detail _).of_ok hdetail
    cases hask
    split at hrest
    · cases hrest
    · -- types are looked up in the second pass, which asks nothing
      have hjudged : s'.requests = s₂.requests ++ _ :=
        (hunasked.composes.judgeAll hunasked.admits.detail hunasked.exclude htypes.stringType
          htypes.resolveType _ _ _).of_ok hrest
      rw [if_neg hsome, hjudged, hdetailed, hscreened]
      rfl

theorem unasked_settle (accepted : List Declaration) (m : Candidate) :
    Leaving Unasked (settle accepted m) := by
  unfold settle
  split
  · exact fun _ => rfl
  · refine .change fun s => ?_
    split <;> rfl

/-- The front end is asked for the macros that have one definition and pass the screening. -/
theorem requests_settleMacros (h : settleMacros c s = .ok () s') :
    s'.requests = s.requests ++ typingRequests c (Candidate.kept (Candidate.screen []
      (s.candidates.filter fun m => !s.redefined.contains m.name))) := by
  have hunasked := accumulates_unasked
  obtain ⟨accepted, judged, hjudge, hsettle⟩ := judged_of_settleMacros h
  have hsettled : s'.requests = judged.requests :=
    (hunasked.composes.forM fun m _ => unasked_settle accepted m).of_ok hsettle
  obtain ⟨_, _, hget, hrest⟩ := Steps.bind_eq_ok hjudge
  cases hget
  dsimp only at hrest
  obtain ⟨_, s₁, hreports, hconstants⟩ := Steps.bind_eq_ok hrest
  have hreported : s₁.requests = s.requests :=
    (hunasked.composes.forM fun m _ => hunasked.report _ _).of_ok hreports
  rw [hsettled, requests_constants (asksNothing_typeRegistry c) hconstants, hreported]

end CInterop.Extraction.Build
