import Mathlib.Data.Finset.Card
import Mathlib.Logic.Relation
import Mathlib.Order.OrderIsoNat

/-!
# Ranks

Where only finitely many things lead on to others and no way leads back to where it began, a walk ends
after no more steps than there are such things. The rank of a thing is how many of them lie on the ways
from it, and each step lowers it.
-/

namespace CInterop

variable {α : Type} {R : α → α → Prop}

/-- No way leads back where there is no endless walk. -/
theorem acyclic_of_wellFounded (h : WellFounded (Function.swap R)) (a : α) :
    ¬Relation.TransGen R a a := by
  intro hcycle
  exact h.transGen.irrefl.irrefl a (Relation.transGen_swap.mpr hcycle)

theorem wellFounded_of_no_chain (h : ¬∃ chain : Nat → α, ∀ i, R (chain i) (chain (i + 1))) :
    WellFounded (Function.swap R) := by
  rw [wellFounded_iff_isEmpty_descending_chain, isEmpty_subtype]
  intro chain hchain
  exact h ⟨chain, hchain⟩

/-- A rank that each step lowers rules endless walks out. -/
theorem no_chain_of_rank (rank : α → Nat) (h : ∀ a b, R a b → rank b < rank a) :
    ¬∃ chain : Nat → α, ∀ i, R (chain i) (chain (i + 1)) := by
  rintro ⟨chain, hchain⟩
  have hsteps (i : Nat) : rank (chain i) + i ≤ rank (chain 0) := by
    induction i with
    | zero => exact Nat.le_refl _
    | succ i ih =>
      have hlt := h _ _ (hchain i)
      omega
  have hmany := hsteps (rank (chain 0) + 1)
  omega

/-- Without a cycle every thing has a rank that each step lowers. -/
theorem exists_rank_of_acyclic (sources : Finset α) (hsources : ∀ a b, R a b → a ∈ sources)
    (acyclic : ∀ a, ¬Relation.TransGen R a a) :
    ∃ rank : α → Nat, (∀ a, rank a ≤ sources.card) ∧ ∀ a b, R a b → rank b < rank a := by
  classical
  let ahead (a : α) : Finset α := sources.filter (Relation.ReflTransGen R a)
  refine ⟨fun a => (ahead a).card, fun a => Finset.card_filter_le _ _, fun a b hstep => ?_⟩
  refine Finset.card_lt_card (Finset.ssubset_iff_of_subset ?_ |>.mpr ⟨a, ?_, ?_⟩)
  · intro other hother
    rw [Finset.mem_filter] at hother ⊢
    exact ⟨hother.1, .head hstep hother.2⟩
  · exact Finset.mem_filter.mpr ⟨hsources a b hstep, .refl⟩
  · -- a step back to where the walk came from would close a cycle
    intro hback
    exact acyclic a (.head' hstep (Finset.mem_filter.mp hback).2)

end CInterop
