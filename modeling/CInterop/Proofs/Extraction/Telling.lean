import CInterop.Proofs.Extraction.Composition

/-!
# What a step tells

Every step only adds to what was told. What it adds are remarks: a type that cannot be resolved is left
to the declaration as a whole to report, and a macro to the end of the header.
-/

namespace CInterop

/-- Whether the diagnostic reports a type that cannot be resolved. -/
def Diagnostic.isUnresolved (d : Diagnostic) : Bool :=
  match d.cause with
  | .unresolvedType .. => true
  | _ => false

theorem Diagnostic.isUnresolved_of_isRemark {d : Diagnostic} (h : d.IsRemark) :
    d.isUnresolved = false := by
  unfold Diagnostic.IsRemark at h
  unfold Diagnostic.isUnresolved
  split at h <;> simp_all

namespace Extraction

open Diagnostic (IsRemark)
open FrontEnd Header

variable {P Q : Diagnostic → Prop}

/-- What was told between the states follows what was told before, and all of it has the property. -/
def Tells (P : Diagnostic → Prop) (s s' : State) : Prop :=
  ∃ own, s'.diagnostics = s.diagnostics ++ own ∧ ∀ d ∈ own, P d

theorem Tells.of_eq {s s' : State} (h : s'.diagnostics = s.diagnostics) : Tells P s s' :=
  ⟨[], by rw [h, List.append_nil], nofun⟩

theorem Tells.mono {s s' : State} (h : Tells P s s') (hPQ : ∀ d, P d → Q d) : Tells Q s s' := by
  obtain ⟨own, hdiagnostics, hown⟩ := h
  exact ⟨own, hdiagnostics, fun d hd => hPQ d (hown d hd)⟩

theorem Tells.trans {s s' s'' : State} (h : Tells P s s') (h' : Tells P s' s'') : Tells P s s'' := by
  obtain ⟨own, hdiagnostics, hown⟩ := h
  obtain ⟨own', hdiagnostics', hown'⟩ := h'
  exact ⟨own ++ own', by rw [hdiagnostics', hdiagnostics, List.append_assoc],
    List.forall_mem_append.mpr ⟨hown, hown'⟩⟩

theorem Tells.subset {s s' : State} (h : Tells P s s') : s.diagnostics ⊆ s'.diagnostics := by
  obtain ⟨own, hdiagnostics, -⟩ := h
  rw [hdiagnostics]
  exact List.subset_append_left _ _

namespace Build

variable {α β : Type}

/-- The state a step leaves, with a result or without. -/
def after (x : Build α) (s : State) : State :=
  match x s with
  | .ok _ s' | .error _ s' => s'

/-- A transitive relation that two steps have between the states before and after them, they have one
after another. -/
theorem after_bind {R : State → State → Prop} {x : Build α} {f : α → Build β} {s : State}
    (htrans : ∀ {s s' s''}, R s s' → R s' s'' → R s s'') (hx : R s (after x s))
    (hf : ∀ a s', x s = .ok a s' → R s' (after (f a) s')) : R s (after (x >>= f) s) := by
  unfold after at hx hf ⊢
  show R s (match EStateM.bind x f s with | .ok _ s' | .error _ s' => s')
  rw [EStateM.bind]
  cases hresult : x s with
  | ok a s' =>
    rw [hresult] at hx
    exact htrans hx (hf a s' hresult)
  | error stop s' =>
    rw [hresult] at hx
    exact hx

/-- A step that may stop leaves the same state where it gives nothing instead. -/
theorem after_attempt (x : Build α) (s : State) : after (attempt x) s = after x s := by
  unfold after attempt
  cases hresult : x s with
  | ok a s' => rfl
  | error stop s' => cases stop <;> rfl

/-- A declaration leaves what its body leaves, or that without the names that were added and with a
report. -/
theorem after_declaration (c : Setting) (e : Entity) (body : Build α) (s : State) :
    after (declaration c e body) s = after body s ∨ ∃ d, after (declaration c e body) s =
      { after body s with
        registry := (after body s).registry.cut s.registry.size
        diagnostics := (after body s).diagnostics ++ [d] } := by
  unfold after declaration
  cases hresult : body s with
  | ok a s' => exact .inl rfl
  | error stop s' =>
    cases stop with
    | failed failure => exact .inl rfl
    | unresolved spelling =>
      refine .inr ⟨⟨.unresolvedType spelling e.spelling, some (c.placeText e)⟩, ?_⟩
      -- a strict run ends, but the state is the same
      cases c.isStrict <;> rfl

/-- Whether the step has a result that passes the test together with the state it leaves. -/
def hasResult (x : Build α) (s : State) (test : α → State → Bool) : Bool :=
  match x s with
  | .ok a s' => test a s'
  | .error _ _ => false

/-- Whether the step stops, and where it does passes the test. -/
def hasStopped (x : Build α) (s : State) (test : Stop → State → Bool) : Bool :=
  match x s with
  | .ok _ _ => false
  | .error stop s' => test stop s'

theorem eq_ok_of_hasResult {x : Build α} {s : State} {test : α → State → Bool}
    (h : hasResult x s test = true) : ∃ a s', x s = .ok a s' ∧ test a s' = true := by
  unfold hasResult at h
  split at h
  · exact ⟨_, _, ‹_›, h⟩
  · cases h

theorem eq_error_of_hasStopped {x : Build α} {s : State} {test : Stop → State → Bool}
    (h : hasStopped x s test = true) : ∃ stop s', x s = .error stop s' ∧ test stop s' = true := by
  unfold hasStopped at h
  split at h
  · cases h
  · exact ⟨_, _, ‹_›, h⟩

theorem eq_ok_after {x : Build Unit} {s : State} (h : hasResult x s (fun _ _ => true) = true) :
    x s = .ok () (after x s) := by
  obtain ⟨_, s', hx, -⟩ := eq_ok_of_hasResult h
  unfold after
  rw [hx]

/-- The step only adds to what was told, and what it adds has the property, wherever it starts and
however it ends. -/
def Telling (P : Diagnostic → Prop) (x : Build α) : Prop := ∀ s, Tells P s (after x s)

theorem Telling.mono {x : Build α} (h : Telling P x) (hPQ : ∀ d, P d → Q d) : Telling Q x :=
  fun s => (h s).mono hPQ

theorem Telling.of_ok {x : Build α} {a : α} {s s' : State} (h : Telling P x) (hx : x s = .ok a s') :
    Tells P s s' := by
  have hs := h s
  unfold after at hs
  rwa [hx] at hs

theorem Telling.of_error {x : Build α} {stop : Stop} {s s' : State} (h : Telling P x)
    (hx : x s = .error stop s') : Tells P s s' := by
  have hs := h s
  unfold after at hs
  rwa [hx] at hs

namespace Telling

theorem pure (a : α) : Telling P (pure a : Build α) := fun _ => .of_eq rfl

theorem throw (stop : Stop) : Telling P (throw stop : Build α) := fun _ => .of_eq rfl

theorem get : Telling P (MonadState.get : Build State) := fun _ => .of_eq rfl

/-- A change that leaves alone what was told. -/
theorem modify {g : State → State} (h : ∀ s, (g s).diagnostics = s.diagnostics) :
    Telling P (modify g) := fun s => .of_eq (h s)

theorem bind {x : Build α} {f : α → Build β} (hx : Telling P x) (hf : ∀ a, Telling P (f a)) :
    Telling P (x >>= f) :=
  fun s => after_bind Tells.trans (hx s) fun a s' _ => hf a s'

end Telling

/-! ## Single steps -/

theorem telling_report {cause : Cause} (place : String)
    (h : P ⟨cause, some place⟩) : Telling P (report cause place) :=
  fun _ => ⟨_, rfl, List.forall_mem_singleton.mpr h⟩

theorem telling_attempt {x : Build α} (h : Telling P x) : Telling P (attempt x) :=
  fun s => after_attempt x s ▸ h s

theorem telling_say (line : String) : Telling P (say line) := .modify fun _ => rfl

theorem telling_detail (c : Setting) (line : String) : Telling P (detail c line) := by
  unfold detail
  split
  · exact telling_say _
  · exact .pure _

theorem telling_reserve (name : String) : Telling P (reserve name) := .modify fun _ => rfl

theorem telling_declare (node : Declaration) : Telling P (declare node) := .modify fun _ => rfl

theorem telling_declareOnce (node : Declaration) : Telling P (declareOnce node) := by
  unfold declareOnce
  refine Telling.get.bind fun s => ?_
  split
  · exact (telling_declare node).bind fun _ => .pure _
  · exact .pure _

theorem telling_noteString (name : String) : Telling P (noteString name) := .modify fun _ => rfl

theorem remarks_telling : Remarks (Telling IsRemark) where
  pure := .pure
  bind := .bind
  get := .get
  aside h := .modify fun s => (h s).2.1
  remark _ place h := telling_report place h

theorem admits_telling : Admits (Telling IsRemark) := remarks_telling.admits fun _ => .throw _

/-! ## Types and declarations -/

section

variable {c : Setting}

theorem registers_telling : Registers c (Telling IsRemark) where
  toAdmits := admits_telling
  reserve := telling_reserve
  noteResolved := remarks_telling.noteResolved
  announceIgnored := remarks_telling.announceIgnored
  ownTagName := remarks_telling.ownTagName
  declare node _ := telling_declare node
  declareRecord h _ _ := (admits_telling.fieldsWithin (.throw _) h _ _ _ _).bind fun _ =>
    (telling_declare _).bind fun _ => .pure _

theorem telling_resolve (c : Setting) (t : TypeRef) : Telling IsRemark (resolve c t) :=
  registers_telling.resolve (.throw _) t

theorem telling_typedef (e : Entity) : Telling IsRemark (typedef c (resolve c) e) :=
  registers_telling.typedef (telling_resolve c) e

theorem telling_function (e : Entity) : Telling IsRemark (function c e) :=
  admits_telling.function (telling_resolve c) fun node _ _ _ => telling_declare node

theorem telling_global (e : Entity) : Telling IsRemark (global c e) :=
  admits_telling.global (telling_resolve c) fun node _ _ _ => telling_declare node

end

theorem telling_stringType (c : Setting) : Telling P (stringType c) :=
  (telling_declareOnce _).bind fun _ => (telling_noteString _).bind fun _ =>
    (telling_declareOnce _).bind fun _ => (telling_noteString _).bind fun _ => .pure _

end Build
end Extraction
end CInterop
