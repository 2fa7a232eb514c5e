import CInterop.Proofs.Mapping.Events
import CInterop.Proofs.Mapping.TypeUse

/-!
# Uses in terms of uses

How many references may be followed matters only for whether there is a result. So the use of a type is
given by the uses of the types it is spelled over, without a bound that falls on the way.
-/

namespace CInterop.Mapping

open Header
open Binding (TypeUse escape)

/-- Every result that one function gives is given by the other. -/
def Extends (use use' : String → Position → Outcome TypeUse) : Prop :=
  ∀ name position u, (use name position).result = .ok u → (use' name position).result = .ok u

section

/- The rules give a result again if the uses they ask for are given again. -/
variable {use use' : String → Position → Outcome TypeUse} {s : Setting} {node : Declaration}
  {position : Position} {u : TypeUse}

namespace Extends

theorem backing (h : Extends use use') {integerType : String}
    {values : List (Enumerator String Int)} (hu : (backing use integerType values).result = .ok u) :
    (Mapping.backing use' integerType values).result = .ok u := by
  unfold Mapping.backing at hu ⊢
  split at hu
  · rename_i hempty
    rw [if_pos hempty]
    exact h _ _ _ hu
  · rename_i hvalues
    rw [if_neg hvalues]
    exact hu

theorem elementUse (h : Extends use use') {name : String}
    (hu : (elementUse use s name).result = .ok u) :
    (Mapping.elementUse use' s name).result = .ok u := by
  obtain ⟨element, helement, hu, -⟩ := Outcome.bind_eq_ok hu
  obtain ⟨node, hnode, hu, -⟩ := Outcome.bind_eq_ok hu
  unfold Mapping.elementUse
  rw [Outcome.result_bind_of_ok (h _ _ _ helement), Outcome.result_bind_of_ok hnode]
  split at hu
  · split at hu
    · rename_i hname
      obtain ⟨narrow, hnarrow, hu, -⟩ := Outcome.bind_eq_ok hu
      rw [if_pos hname, Outcome.result_bind_of_ok (h.backing hnarrow)]
      split at hu
      · rename_i hwide
        rw [if_pos hwide]
        exact h _ _ _ hu
      · rename_i hsame
        rw [if_neg hsame]
        exact hu
    · rename_i hname
      rw [if_neg hname]
      exact hu
  · exact hu

theorem structural? (h : Extends use use') {outcome : Outcome TypeUse}
    (houtcome : structural? use s node position = some outcome) (hu : outcome.result = .ok u) :
    ∃ outcome', Mapping.structural? use' s node position = some outcome' ∧
      outcome'.result = .ok u := by
  unfold Mapping.structural? at houtcome ⊢
  split at houtcome
  · cases houtcome
    exact ⟨_, rfl, hu⟩
  · rename_i pointee size hbody
    cases houtcome
    refine ⟨_, rfl, ?_⟩
    split at hu
    · rename_i hignored
      rw [if_pos hignored]
      exact hu
    · rename_i hignored
      obtain ⟨target, htarget, hu, -⟩ := Outcome.bind_eq_ok hu
      obtain ⟨inner, hinner, hu, -⟩ := Outcome.bind_eq_ok hu
      rw [if_neg hignored, Outcome.result_bind_of_ok htarget,
        Outcome.result_bind_of_ok (h _ _ _ hinner)]
      exact hu
  · cases houtcome
    obtain ⟨inner, hinner, hu, -⟩ := Outcome.bind_eq_ok hu
    refine ⟨_, rfl, ?_⟩
    rw [Outcome.result_bind_of_ok (h.elementUse hinner)]
    exact hu
  · cases houtcome

theorem named (h : Extends use use') (hu : (named use s node position).result = .ok u) :
    (Mapping.named use' s node position).result = .ok u := by
  unfold Mapping.named at hu ⊢
  cases hbody : node.body <;> rw [hbody] at hu
  case typedef underlying =>
    obtain ⟨inner, hinner, hu, -⟩ := Outcome.bind_eq_ok hu
    dsimp only
    rw [Outcome.result_bind_of_ok (h _ _ _ hinner)]
    exact hu
  all_goals exact hu

theorem nodeUse (h : Extends use use') (hu : (nodeUse use s node position).result = .ok u) :
    (Mapping.nodeUse use' s node position).result = .ok u := by
  unfold Mapping.nodeUse at hu
  split at hu
  · rename_i outcome houtcome
    obtain ⟨outcome', houtcome', hu'⟩ := h.structural? houtcome hu
    rw [nodeUse_of_structural? houtcome']
    exact hu'
  · rename_i hnone
    have hnone' : Mapping.structural? use' s node position = none := by
      unfold Mapping.structural? at hnone ⊢
      cases hbody : node.body <;> rw [hbody] at hnone <;> first | rfl | cases hnone
    rw [Mapping.nodeUse, hnone']
    dsimp only
    split at hu
    · rename_i hignored
      rw [if_pos hignored]
      exact hu
    · rename_i hignored
      rw [if_neg hignored]
      split at hu
      · exact hu
      · exact h.named hu

end Extends

end

section

variable {s : Setting} {name : String} {node : Declaration} {position : Position} {u : TypeUse}

/-- One reference more does no harm. -/
theorem extends_succ (s : Setting) (steps : Nat) :
    Extends (useWithin s steps) (useWithin s (steps + 1)) := by
  induction steps with
  | zero => exact fun name position u hu => by cases hu
  | succ steps ih =>
    intro name position u hu
    obtain ⟨node, hnode, hu, -⟩ := Outcome.bind_eq_ok hu
    exact (Outcome.result_bind_of_ok hnode).trans (ih.nodeUse hu)

theorem extends_typeUse (s : Setting) {steps : Nat} (hsteps : steps ≤ s.tree.nodes.length + 1) :
    Extends (useWithin s steps) (typeUse s) := by
  obtain ⟨more, hmore⟩ := Nat.exists_eq_add_of_le hsteps
  unfold typeUse
  rw [hmore]
  clear hmore
  induction more with
  | zero => exact fun _ _ _ hu => hu
  | succ more ih =>
    exact fun name position u hu => extends_succ s (steps + more) _ _ _ (ih _ _ _ hu)

/-- The use of a typedef is that of its type, under its own name. -/
theorem typeUse_typedef_eq_ok {underlying : String} (hnode : s.tree.node? name = some node)
    (hbody : node.body = .typedef underlying) (hignored : s.policy.ignores name = false)
    (halias : s.policy.aliasFor? name = none) (hu : (typeUse s name position).result = .ok u) :
    ∃ inner, (typeUse s underlying position).result = .ok inner ∧
      u = if inner.name = "void" then inner else ⟨escape name, inner.size, inner.align, none⟩ := by
  obtain ⟨found, hfound, hu, -⟩ := Outcome.bind_eq_ok hu
  obtain rfl : node = found := Option.some.inj (hnode.symm.trans (node_eq_ok hfound))
  have hstructural :
      structural? (useWithin s s.tree.nodes.length) s node position = none := by
    rw [structural?, hbody]
  rw [nodeUse, hstructural] at hu
  dsimp only at hu
  rw [node?_name hnode, hignored, halias] at hu
  dsimp only at hu
  rw [if_neg Bool.false_ne_true, named, hbody] at hu
  obtain ⟨inner, hinner, hu, -⟩ := Outcome.bind_eq_ok hu
  refine ⟨inner, extends_typeUse s (Nat.le_succ _) _ _ _ hinner, ?_⟩
  rw [node?_name hnode] at hu
  split at hu <;> cases hu
  · rw [if_pos ‹_›]
  · rw [if_neg ‹_›]

/-- The use of an array: a pointer to its elements, a buffer of them, or a helper. -/
theorem typeUse_array_eq_ok {element : String} {count size : Int}
    (hnode : s.tree.node? name = some node) (hbody : node.body = .array element count size)
    (hu : (typeUse s name position).result = .ok u) :
    ∃ inner, (elementUse (typeUse s) s element).result = .ok inner ∧
      match position with
      | .value => u = pointerUse s (inner.name ++ "*")
      | .field =>
        if bufferTypes.contains inner.name && !inner.isFixedBuffer then
          u = ⟨inner.name, size, inner.align, some count⟩
        else ∃ helper, (arrayHelper name inner count size).result = .ok helper ∧
          u = ⟨helper, size, inner.align, none⟩ := by
  obtain ⟨found, hfound, hu, -⟩ := Outcome.bind_eq_ok hu
  obtain rfl : node = found := Option.some.inj (hnode.symm.trans (node_eq_ok hfound))
  rw [nodeUse_of_structural? (by rw [structural?, hbody])] at hu
  obtain ⟨inner, hinner, hu, -⟩ := Outcome.bind_eq_ok hu
  refine ⟨inner, (extends_typeUse s (Nat.le_succ _)).elementUse hinner, ?_⟩
  rw [node?_name hnode] at hu
  cases position with
  | value =>
    cases hu
    rfl
  | field =>
    dsimp only at hu ⊢
    split at hu
    · rename_i hbuffer
      cases hu
      rw [if_pos hbuffer]
    · rename_i hbuffer
      obtain ⟨helper, hhelper, hu, -⟩ := Outcome.bind_eq_ok hu
      cases hu
      rw [if_neg hbuffer]
      exact ⟨helper, hhelper, rfl⟩

end

end CInterop.Mapping
