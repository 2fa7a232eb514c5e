import Mathlib.Data.List.Forall2

/-!
# How computations end

What a computation that may fail must have done if it gave a value: each of its steps gave one. And
where it was if it did not: at the end of a step that failed, after others that gave values.
-/

namespace CInterop

variable {ε α β : Type}

theorem bind_eq_ok {x : Except ε α} {f : α → Except ε β} {b : β} :
    x >>= f = .ok b ↔ ∃ a, x = .ok a ∧ f a = .ok b := by
  cases x with
  | error error =>
    constructor
    · intro h
      cases h
    · rintro ⟨a, h, -⟩
      cases h
  | ok a =>
    constructor
    · intro h
      exact ⟨a, rfl, h⟩
    · rintro ⟨a', h, hf⟩
      cases h
      exact hf

/-- Whoever knows something of the value knows that there is one. -/
theorem eq_ok_of_toOption_map {x : Except ε α} {f : α → β} {b : β}
    (h : x.toOption.map f = some b) : ∃ a, x = .ok a ∧ f a = b := by
  cases x with
  | error error => cases h
  | ok a => exact ⟨a, rfl, Option.some.inj h⟩

theorem mapError_eq_ok {ε' : Type} {x : Except ε α} {f : ε → ε'} {a : α} :
    x.mapError f = .ok a ↔ x = .ok a := by
  cases x with
  | error error => simp [Except.mapError]
  | ok b => simp [Except.mapError]

theorem mapError_eq_error {ε' : Type} {x : Except ε α} {f : ε → ε'} {error' : ε'} :
    x.mapError f = .error error' ↔ ∃ error, x = .error error ∧ f error = error' := by
  cases x with
  | error error => simp [Except.mapError]
  | ok b => simp [Except.mapError]

/-- A list is processed if each of its elements is. -/
theorem mapM_eq_ok {f : α → Except ε β} {as : List α} {bs : List β} :
    as.mapM f = .ok bs ↔ List.Forall₂ (fun a b => f a = .ok b) as bs := by
  induction as generalizing bs with
  | nil =>
    rw [List.mapM_nil, List.forall₂_nil_left_iff]
    constructor
    · intro h
      cases h
      rfl
    · rintro rfl
      rfl
  | cons a as ih =>
    rw [List.mapM_cons, bind_eq_ok]
    constructor
    · rintro ⟨b, hfirst, hrest⟩
      rw [bind_eq_ok] at hrest
      obtain ⟨bs', hmap, heq⟩ := hrest
      cases heq
      exact .cons hfirst (ih.mp hmap)
    · rintro (_ | ⟨hfirst, hrest⟩)
      refine ⟨_, hfirst, ?_⟩
      rw [ih.mpr hrest]
      rfl

/-- What each element has that stems from one with a property. -/
theorem forall_mem_of_forall₂ {R : α → β → Prop} {P : α → Prop} {Q : β → Prop} {as : List α} {bs : List β}
    (h : List.Forall₂ R as bs) (hstep : ∀ a b, R a b → P a → Q b) (has : ∀ a ∈ as, P a) :
    ∀ b ∈ bs, Q b := by
  induction h with
  | nil => simp
  | cons hfirst hrest ih =>
    rw [List.forall_mem_cons] at has ⊢
    exact ⟨hstep _ _ hfirst has.1, ih has.2⟩

/-! ## Steps on a state -/

namespace Steps

variable {σ : Type} {x : EStateM ε σ α} {f g : α → EStateM ε σ β} {s s' s'' : σ} {a : α} {b : β} {e : ε}

/-- After a step that gave a value the next one goes on. -/
theorem bind_of_ok (h : x s = .ok a s') : (x >>= f) s = f a s' := by
  show EStateM.bind x f s = _
  rw [EStateM.bind, h]

/-- What follows a step matters only where the step ends with a value. -/
theorem bind_congr_of_ok (h : ∀ a s', x s = .ok a s' → g a s' = f a s') : (x >>= g) s = (x >>= f) s := by
  show EStateM.bind x g s = EStateM.bind x f s
  rw [EStateM.bind, EStateM.bind]
  cases hresult : x s with
  | ok a s' => exact h a s' hresult
  | error e s' => rfl

theorem bind_eq_ok (h : (x >>= f) s = .ok b s'') : ∃ a s', x s = .ok a s' ∧ f a s' = .ok b s'' := by
  change EStateM.bind x f s = _ at h
  rw [EStateM.bind] at h
  split at h
  · exact ⟨_, _, ‹_›, h⟩
  · cases h

theorem bind_eq_error (h : (x >>= f) s = .error e s'') :
    x s = .error e s'' ∨ ∃ a s', x s = .ok a s' ∧ f a s' = .error e s'' := by
  change EStateM.bind x f s = _ at h
  rw [EStateM.bind] at h
  split at h
  · exact .inr ⟨_, _, ‹_›, h⟩
  · cases h
    exact .inl ‹_›

/-- Whatever a list of steps comes to, one of them came to it. -/
theorem exists_of_mapM_eq_ok {g : α → EStateM ε σ β} {as : List α} {bs : List β}
    (h : as.mapM g s = .ok bs s'') : ∀ b ∈ bs, ∃ a ∈ as, ∃ s₁ s₂, g a s₁ = .ok b s₂ := by
  induction as generalizing s bs with
  | nil =>
    rw [List.mapM_nil] at h
    cases h
    exact fun b hb => absurd hb List.not_mem_nil
  | cons a rest ih =>
    rw [List.mapM_cons] at h
    obtain ⟨b, s₁, hfirst, h⟩ := bind_eq_ok h
    obtain ⟨bs', s₂, hrest, h⟩ := bind_eq_ok h
    cases h
    rw [List.forall_mem_cons]
    refine ⟨⟨a, List.mem_cons_self, s, s₁, hfirst⟩, fun b' hb' => ?_⟩
    obtain ⟨a', ha', hstep⟩ := ih hrest b' hb'
    exact ⟨a', List.mem_cons_of_mem a ha', hstep⟩

end Steps

end CInterop
