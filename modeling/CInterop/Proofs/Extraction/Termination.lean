import Mathlib.Tactic.Ring
import CInterop.Proofs.Extraction.Entering

/-!
# Resolving a type ends

In a header where endless chains of references lead through declarations again and again, as in C, and
members without names are nested finitely, resolving a type ends, whatever was done before. A declaration
is entered once, and between two of them the types have ranks that fall. So the bound of the references is
never reached: the result is the same with any larger one.
-/

namespace CInterop.Extraction

open FrontEnd Header

namespace Build

variable {c : Setting} {s s' : State} {t : TypeRef} {name : String} {α β : Type}

/-! ## Steps that end -/

/-- From a state on, the step has a result or stops at a type that cannot be resolved, and keeps names. -/
structure Ends (c : Setting) (s : State) (x : Build α) : Prop where
  retaining : Retaining c x
  ne_failed : ∀ s', Retains c s s' → ∀ failure left, x s' ≠ .error (.failed failure) left

namespace Ends

variable {x : Build α} {f : α → Build β}

theorem of_ok (hretaining : Retaining c x) (h : ∀ s, ∃ a left, x s = .ok a left) : Ends c s x := by
  refine ⟨hretaining, fun s' _ failure left hfailed => ?_⟩
  obtain ⟨a, left', hok⟩ := h s'
  cases hok.symm.trans hfailed

theorem pure (a : α) : Ends c s (pure a : Build α) := .of_ok (.pure a) fun s => ⟨a, s, rfl⟩

theorem modify {g : State → State} (h : Retaining c (modify g)) : Ends c s (modify g) :=
  .of_ok h fun s => ⟨(), g s, rfl⟩

theorem bind (hx : Ends c s x) (hf : ∀ a, Ends c s (f a)) : Ends c s (x >>= f) := by
  refine ⟨hx.retaining.bind fun a => (hf a).retaining, fun s' hs' failure left hfailed => ?_⟩
  rcases Steps.bind_eq_error hfailed with hfirst | ⟨a, after, hfirst, hsecond⟩
  · exact hx.ne_failed s' hs' failure left hfirst
  · exact (hf a).ne_failed after (hs'.trans (hx.retaining.of_ok hfirst)) failure left hsecond

end Ends

theorem admits_ends (c : Setting) (s : State) : Admits (Ends c s) where
  pure := .pure
  bind := .bind
  get := .of_ok .get fun s => ⟨s, s, rfl⟩
  unresolved spelling := ⟨.throw _, fun s' _ failure left hfailed => by cases hfailed⟩
  say line := .modify ((admits_retaining c).say line)
  unmappable name reason place := .modify (retaining_report _ _)
  nameTag e name := .modify (retaining_nameTag e name)

theorem ends_announceIgnored (e : Entity) (name : String) : Ends c s (announceIgnored c e name) := by
  refine .of_ok (retaining_announceIgnored c e name) fun s => ?_
  show ∃ a left, (if (!s.announced.contains name && c.ignores e) = true then _ else _ : Build Unit) s =
    .ok a left
  split <;> exact ⟨_, _, rfl⟩

/-- With as many steps as members without names are nested, and one more, the fields of a type are found. -/
theorem ends_fieldsWithin {depth : TypeRef → Nat} (hdepth : IsRank c (Nests c) depth)
    {resolve : TypeRef → Build String} (h : ∀ t, Ends c s (resolve t)) {steps : Nat}
    (hsteps : depth t < steps) (record : String) (start : Int) :
    Ends c s (fieldsWithin c resolve steps t record start) := by
  induction steps generalizing t start with
  | zero => exact absurd hsteps (Nat.not_lt_zero _)
  | succ steps ih =>
    have hP := admits_ends c s
    unfold fieldsWithin
    refine hP.bind (hP.mapM_mem fun r hr => ?_) fun _ => hP.pure _
    dsimp only
    split
    · exact hP.bind (hP.namedField h _ _ _) fun _ => hP.pure _
    · rename_i hunnamed
      have hlt := hdepth.lt t _ ⟨r, hr, Bool.eq_false_iff.mpr hunnamed, rfl⟩
      exact ih (by omega) _

theorem registers_ends {depth : TypeRef → Nat} (hdepth : IsRank c (Nests c) depth) (s : State) :
    Registers c (Ends c s) where
  toAdmits := admits_ends c s
  reserve name := .modify (retaining_reserve name)
  noteResolved name := .modify ((registers_retaining c).noteResolved name)
  announceIgnored := ends_announceIgnored
  ownTagName e := .of_ok (retaining_ownTagName e) fun s => by
    obtain ⟨left, hok, -⟩ := ownTagName_eq_ok c e s
    exact ⟨_, left, hok⟩
  declare node _ := .modify (retaining_declare node)
  declareRecord h e name :=
    (ends_fieldsWithin hdepth h (Nat.lt_succ_of_le (hdepth.le e.type)) name 0).bind fun _ =>
      (Ends.modify (retaining_declare _)).bind fun _ => .pure _

/-! ## Enough steps -/

/-- No more references follow from a type on: between two declarations that are entered there are no more
of them than types. -/
def need (c : Setting) (rank : TypeRef → Nat) (t : TypeRef) (s : State) : Nat :=
  c.remaining s * (c.translation.types.size + 1) + rank t

variable {rank depth : TypeRef → Nat}

theorem need_lt_referenceLimit (hrank : IsRank c (GoesOn c) rank) (t : TypeRef) (s : State) :
    need c rank t s < referenceLimit c := by
  have hleft := Nat.mul_le_mul_right (c.translation.types.size + 1) (remaining_le c s)
  have hle := hrank.le t
  unfold need referenceLimit
  generalize c.translation.types.size = types at *
  generalize c.translation.entities.size = entities at *
  have hlimit : (4 * entities + 4) * (types + 4) =
      3 * (entities + 1) * (types + 1) + (entities * (types + 13) + types + 13) := by ring
  omega

/-- Less is needed for a type that comes next, and where less is left to be entered. -/
theorem need_lt (hrank : IsRank c (GoesOn c) rank) {t' : TypeRef}
    (h : GoesOn c t t' ∧ c.remaining s' ≤ c.remaining s ∨ c.remaining s' < c.remaining s) :
    need c rank t' s' < need c rank t s := by
  unfold need
  rcases h with ⟨hgoes, hle⟩ | hlt
  · have hranks := hrank.lt t t' hgoes
    have hmul := Nat.mul_le_mul_right (c.translation.types.size + 1) hle
    omega
  · -- one entry less makes up for any rank
    have hranks := hrank.le t'
    have hmul := Nat.mul_le_mul_right (c.translation.types.size + 1) (Nat.succ_le_of_lt hlt)
    rw [Nat.succ_mul] at hmul
    omega

/-- What resolving a type comes to depends on the resolving of other types only where less is needed. -/
theorem resolveStep_congr (hrank : IsRank c (GoesOn c) rank) {resolve resolve' : TypeRef → Build String}
    (hretaining : ∀ t, Retaining c (resolve t))
    (h : ∀ t' left, Retains c s left → need c rank t' left < need c rank t s →
      resolve' t' left = resolve t' left) :
    resolveStep c resolve' t s = resolveStep c resolve t s := by
  obtain ⟨name?, s₁, hentering, hretains, hless⟩ := entering_eq_ok c t s
  cases name? with
  | none =>
    refine resolveStep_of_not_entering hentering fun t' hgoes => ⟨hretaining t', fun left hleft => ?_⟩
    exact h t' left hleft (need_lt hrank (.inl ⟨hgoes, hleft.remaining_le⟩))
  | some name =>
    by_cases hreserved : name ∈ s₁.registry.names
    · rw [resolveStep_of_reserved hentering hreserved, resolveStep_of_reserved hentering hreserved]
    · refine resolveStep_of_entering hentering ⟨hretaining, fun t' left hleft hmem => ?_⟩
      exact h t' left (hretains.trans hleft)
        (need_lt hrank (.inr (hless name left rfl hreserved hleft hmem)))

/-- Resolves a type only where less than the bound is needed, and gives no name elsewhere. -/
def resolveBelow (c : Setting) (rank : TypeRef → Nat) (bound : Nat) (resolve : TypeRef → Build String)
    (t : TypeRef) : Build String := fun s =>
  if need c rank t s < bound then resolve t s else .ok "" s

theorem ends_resolveBelow {bound : Nat} {resolve : TypeRef → Build String}
    (hretaining : ∀ t, Retaining c (resolve t))
    (h : ∀ t left, need c rank t left < bound → Ends c left (resolve t)) (t : TypeRef) :
    Ends c s (resolveBelow c rank bound resolve t) := by
  constructor
  · intro left
    unfold after resolveBelow
    by_cases hless : need c rank t left < bound
    · rw [if_pos hless]
      exact hretaining t left
    · rw [if_neg hless]
      exact .refl c left
  · intro left _ failure last
    unfold resolveBelow
    by_cases hless : need c rank t left < bound
    · rw [if_pos hless]
      exact (h t left hless).ne_failed left (.refl c left) failure last
    · rw [if_neg hless]
      exact nofun

/-- With more steps than are needed resolving a type ends. -/
theorem ends_resolveWithin (hrank : IsRank c (GoesOn c) rank) (hdepth : IsRank c (Nests c) depth)
    {steps : Nat} (hsteps : need c rank t s < steps) : Ends c s (resolveWithin c steps t) := by
  induction steps generalizing t s with
  | zero => exact absurd hsteps (Nat.not_lt_zero _)
  | succ steps ih =>
    refine ⟨retaining_resolveWithin c _ t, fun s' hs' failure left hfailed => ?_⟩
    have hneed : need c rank t s' ≤ need c rank t s :=
      Nat.add_le_add_right (Nat.mul_le_mul_right _ hs'.remaining_le) _
    have hretaining := retaining_resolveWithin c steps
    -- types are resolved only where less is needed, so that it does not matter what is done elsewhere
    have hsame : resolveStep c (resolveBelow c rank steps (resolveWithin c steps)) t s' =
        resolveStep c (resolveWithin c steps) t s' :=
      resolveStep_congr hrank hretaining fun t' left _ hless => if_pos (by omega)
    have hends := (registers_ends hdepth s').resolveStep
      (ends_resolveBelow hretaining fun t' left hless => ih hless) t
    unfold resolveWithin at hfailed
    rcases Steps.bind_eq_error hfailed with hfirst | ⟨a, after, -, hsecond⟩
    · exact hends.ne_failed s' (.refl c s') failure left (hsame.trans hfirst)
    · cases hsecond

/-- More steps than are needed come to the same. -/
theorem resolveWithin_enough (hrank : IsRank c (GoesOn c) rank) {steps more : Nat}
    (hsteps : need c rank t s < steps) (hmore : need c rank t s < more) :
    resolveWithin c more t s = resolveWithin c steps t s := by
  induction steps generalizing more t s with
  | zero => exact absurd hsteps (Nat.not_lt_zero _)
  | succ steps ih =>
    obtain ⟨more, rfl⟩ := Nat.exists_eq_succ_of_ne_zero (Nat.ne_of_gt (Nat.zero_lt_of_lt hmore))
    have hsame : resolveStep c (resolveWithin c more) t s = resolveStep c (resolveWithin c steps) t s :=
      resolveStep_congr hrank (retaining_resolveWithin c steps) fun t' left _ hless =>
        ih (by omega) (by omega)
    unfold resolveWithin
    show EStateM.bind _ _ s = EStateM.bind _ _ s
    rw [EStateM.bind, EStateM.bind, hsame]

/-- In a header as C has them resolving a type ends, whatever was done before: it gives a name, or it stops
at a type that cannot be resolved, and a larger bound of the references changes nothing. Names that are
reserved stay so. A declaration is not entered under a name that is reserved, whatever it contains, and what
it contains is resolved only where its name is reserved. -/
theorem resolve_ends (hpasses : PassesDeclarations c) (hnests : NestsFinitely c) :
    (∀ t s, (∃ name s', resolve c t s = .ok name s') ∨
      ∃ spelling s', resolve c t s = .error (.unresolved spelling) s') ∧
    (∀ t s steps, referenceLimit c ≤ steps → resolveWithin c steps t s = resolve c t s) ∧
    (∀ t, (c.type (c.translation.unwrap t)).kind ≠ .elaborated) ∧
    (∀ t s, s.registry.names ⊆ (after (resolve c t) s).registry.names) ∧
    ∀ t s, ∃ name? s', entering c t s = .ok name? s' ∧ ∀ name, name? = some name →
      (name ∈ s'.registry.names → ∀ resolve, resolveStep c resolve t s = .ok name s') ∧
      ∀ steps resolve', (∀ t' left, name ∈ left.registry.names →
          resolve' t' left = resolveWithin c steps t' left) →
        resolveStep c resolve' t s = resolveStep c (resolveWithin c steps) t s := by
  obtain ⟨rank, hrank⟩ := hpasses.exists_isRank
  obtain ⟨depth, hdepth⟩ := hnests.exists_isRank
  refine ⟨fun t s => ?_, fun t s steps hsteps => ?_, hpasses.kind_unwrap,
    fun t s => (retaining_resolveWithin c _ t s).names, fun t s => ?_⟩
  · have hends := ends_resolveWithin hrank hdepth (need_lt_referenceLimit hrank t s)
    cases hresult : resolve c t s with
    | ok name s' => exact .inl ⟨name, s', rfl⟩
    | error stop s' =>
      cases stop with
      | unresolved spelling => exact .inr ⟨spelling, s', rfl⟩
      | failed failure => exact absurd hresult (hends.ne_failed s (.refl c s) failure s')
  · have hneed := need_lt_referenceLimit hrank t s
    exact resolveWithin_enough hrank hneed (by omega)
  · obtain ⟨name?, s', hentering, -⟩ := entering_eq_ok c t s
    refine ⟨name?, s', hentering, fun name hname => ?_⟩
    rw [hname] at hentering
    refine ⟨fun hreserved resolve => resolveStep_of_reserved hentering hreserved,
      fun steps resolve' hsame => ?_⟩
    exact resolveStep_of_entering hentering
      ⟨retaining_resolveWithin c steps, fun t' left _ hmem => hsame t' left hmem⟩

/-- A record with a member of a typedef of its own pointer, a callback that takes that typedef, and a union
without a name. -/
def ringHeader : Translation where
  types := #[
    { kind := .scalar .void, spelling := "void" },
    { kind := .scalar .long, spelling := "long", size := 8, align := 8 },
    { kind := .record, spelling := "union Ring::(unnamed)", size := 8, align := 8
      declaration := ⟨some 0⟩, fields := [⟨some 1⟩] },
    { kind := .record, spelling := "struct Ring", size := 24, align := 8, declaration := ⟨some 2⟩
      fields := [⟨some 3⟩, ⟨some 4⟩, ⟨some 5⟩] },
    { kind := .elaborated, spelling := "struct Ring", size := 24, align := 8, canonical := ⟨some 3⟩
      named := ⟨some 3⟩ },
    { kind := .pointer, spelling := "struct Ring *", size := 8, align := 8, pointee := ⟨some 4⟩ },
    { kind := .typedef, spelling := "Link", size := 8, align := 8, canonical := ⟨some 5⟩
      declaration := ⟨some 6⟩ },
    { kind := .prototype, spelling := "void (Link)", result := ⟨some 0⟩, parameters := [⟨some 6⟩] },
    { kind := .pointer, spelling := "void (*)(Link)", size := 8, align := 8, pointee := ⟨some 7⟩ }]
  entities := #[
    { kind := .union, file := some "/work/test.h", line := 6, column := 3, isAnonymous := true
      type := ⟨some 2⟩, definition := ⟨some 0⟩ },
    { spelling := "count", type := ⟨some 1⟩ },
    { kind := .struct, spelling := "Ring", file := some "/work/test.h", line := 1, column := 8
      type := ⟨some 3⟩, definition := ⟨some 2⟩ },
    { spelling := "next", type := ⟨some 6⟩ },
    { spelling := "visit", type := ⟨some 8⟩, bitOffset := 64 },
    { type := ⟨some 2⟩, bitOffset := 128 },
    { kind := .typedef, spelling := "Link", file := some "/work/test.h", line := 2, column := 22
      underlying := ⟨some 5⟩ }]
  header := { top := [⟨some 2⟩, ⟨some 6⟩] }

def ringSetting : Setting where
  translation := ringHeader
  header := "/work/test.h"
  directory := "/work"
  bitness := 64
  arguments := []
  rules := ⟨[]⟩
  isStrict := false
  isVerbose := false

/-- Every type of that table refers directly to earlier ones, and so do members without names. -/
def ringRank (t : TypeRef) : Nat := t.index?.getD 0

theorem resolve_ends_ring : PassesDeclarations ringSetting ∧ NestsFinitely ringSetting ∧
    ∀ s, (∃ name s', resolve ringSetting ⟨some 3⟩ s = .ok name s') ∨
      ∃ spelling s', resolve ringSetting ⟨some 3⟩ s = .error (.unresolved spelling) s' := by
  have hpasses : PassesDeclarations ringSetting := passesDeclarations_of_rank ringRank (by decide +kernel)
  have hnests : NestsFinitely ringSetting := nestsFinitely_of_rank ringRank (by decide +kernel)
  exact ⟨hpasses, hnests, (resolve_ends hpasses hnests).1 ⟨some 3⟩⟩

example : hasResult (resolve ringSetting ⟨some 3⟩) {} (fun name s => name = "Ring" ∧
    s.registry.names = ["Ring", "Link", "Ring*", "void", "FnPtr_Void_Link", "long"]) = true := by
  decide +kernel

end Build
end CInterop.Extraction
