import CInterop.Proofs.Extraction.Telling

/-!
# What the declarations of a header leave of a state

The declarations of a header reserve and declare names, and nothing else changes the registry until the
macros are settled, apart from what is cut off again where a declaration cannot be resolved. Nor is the
front end asked in the meantime. A relation between the states before and after a step that holds of such
changes and of all that touch neither, and that passes to changes one after another, therefore holds of
the body of every declaration, however it ends.
-/

namespace CInterop.Extraction.Build

open FrontEnd Header
open Macro (Candidate)

variable {α β : Type} {c : Setting} {R : State → State → Prop}

/-- The step leaves a state in relation to the one before, wherever it starts and however it ends. -/
def Leaving (R : State → State → Prop) (x : Build α) : Prop := ∀ s, R s (after x s)

/-- The relation holds where a name is reserved or declared, where neither the registry nor the requests
change, and of changes one after another. -/
structure Accumulates (R : State → State → Prop) : Prop where
  trans : ∀ {s s' s''}, R s s' → R s' s'' → R s s''
  aside : ∀ {s s'}, s'.registry = s.registry → s'.requests = s.requests → R s s'
  reserve : ∀ s name, R s { s with registry := s.registry.reserve name }
  declare : ∀ s node, R s { s with registry := s.registry.declare node }

theorem Leaving.of_ok {x : Build α} {a : α} {s s' : State} (h : Leaving R x) (hx : x s = .ok a s') :
    R s s' := by
  have hs := h s
  unfold after at hs
  rwa [hx] at hs

theorem Leaving.change {g : State → State} (h : ∀ s, R s (g s)) : Leaving R (modify g) := h

namespace Accumulates

variable (hR : Accumulates R)

include hR

/-! ## Single steps -/

theorem pure (a : α) : Leaving R (pure a : Build α) := fun _ => hR.aside rfl rfl

theorem throw (stop : Stop) : Leaving R (throw stop : Build α) := fun _ => hR.aside rfl rfl

theorem get : Leaving R (MonadState.get : Build State) := fun _ => hR.aside rfl rfl

theorem modify {g : State → State}
    (h : ∀ s, (g s).registry = s.registry ∧ (g s).requests = s.requests) : Leaving R (modify g) :=
  .change fun s => hR.aside (h s).1 (h s).2

theorem bind {x : Build α} {f : α → Build β} (hx : Leaving R x) (hf : ∀ a, Leaving R (f a)) :
    Leaving R (x >>= f) :=
  fun s => after_bind hR.trans (hx s) fun a s' _ => hf a s'

theorem composes : Composes (Leaving R) := ⟨hR.pure, hR.bind⟩

theorem report (cause : Cause) (place : String) : Leaving R (report cause place) :=
  hR.modify fun _ => ⟨rfl, rfl⟩

theorem remarks : Remarks (Leaving R) where
  toComposes := hR.composes
  get := hR.get
  aside h := hR.modify fun s => ⟨(h s).1, (h s).2.2⟩
  remark cause place _ := hR.report cause place

theorem admits : Admits (Leaving R) := hR.remarks.admits fun _ => hR.throw _

/-! ## Types -/

theorem registers : Registers c (Leaving R) where
  toAdmits := hR.admits
  reserve name s := hR.reserve s name
  noteResolved := hR.remarks.noteResolved
  announceIgnored := hR.remarks.announceIgnored
  ownTagName := hR.remarks.ownTagName
  declare node _ s := hR.declare s node
  declareRecord h _ _ := hR.bind (hR.admits.fieldsWithin (hR.throw _) h _ _ _ _) fun _ =>
    hR.bind (fun s => hR.declare s _) fun _ => hR.pure _

theorem resolve (t : TypeRef) : Leaving R (resolve c t) := hR.registers.resolve (hR.throw _) t

theorem attempt_resolve (t : TypeRef) : Leaving R (attempt (Build.resolve c t)) :=
  fun s => after_attempt (Build.resolve c t) s ▸ hR.resolve t s

theorem stringType : Leaving R (stringType c) := hR.registers.stringType hR.remarks.noteString

/-! ## The top level -/

theorem collectMacro (e : Entity) : Leaving R (collectMacro c e) := by
  unfold Build.collectMacro
  split
  · exact hR.pure _
  split
  · exact hR.pure _
  split
  · exact hR.report _ _
  dsimp only
  split
  · exact hR.pure _
  · refine .change fun s => ?_
    split
    · split <;> exact hR.aside rfl rfl
    · -- a new candidate is noted together with its name
      exact hR.trans (hR.reserve s e.spelling) (hR.aside rfl rfl)

theorem nameTagsByTypedefs : Leaving R (nameTagsByTypedefs c) := hR.admits.nameTagsByTypedefs

/-! ## Macros -/

theorem exclude (m : Candidate) (reason : String) : Leaving R (exclude c m reason) :=
  hR.bind (hR.admits.detail _) fun _ => hR.report _ _

/-- Macros are judged without other changes, apart from what the front end is asked. -/
theorem judgeMacros (hask : ∀ request, Leaving R (ask request)) : Leaving R (judgeMacros c) :=
  hR.composes.judgeMacros hR.get (fun _ _ _ => hR.report _ _) fun candidates =>
    hR.composes.constants (fun _ => hR.throw _) hR.admits.detail hask hR.exclude hR.stringType
      hR.attempt_resolve candidates

end Accumulates

end CInterop.Extraction.Build
