import CInterop.Macro.Candidate
import Mathlib.Data.List.Perm.Basic

/-!
# What screening lets through

A replacement that nothing speaks against is an expression without calls, in which a string stands
alone or not at all, over names that were let through before. Screening keeps the order of the
candidates and loses none.
-/

namespace CInterop.Macro

namespace Expr

variable {e : Expr} {known : List String}

/-- An expression occurs in another one, be it in the arguments of a call. -/
inductive Within (e : Expr) : Expr → Prop where
  | whole : Within e e
  | operand {operand : Expr} (op : UnaryOp) (h : Within e operand) : Within e (.unary op operand)
  | left {left : Expr} (op : BinaryOp) (right : Expr) (h : Within e left) :
      Within e (.binary left op right)
  | right {right : Expr} (left : Expr) (op : BinaryOp) (h : Within e right) :
      Within e (.binary left op right)
  | argument {argument : Expr} {function : String} {arguments : List Expr}
      (hmem : argument ∈ arguments) (h : Within e argument) : Within e (.call function arguments)

/-- An expression has the form of a constant: there is no call in it, and a string only if it is one. -/
structure IsLiteral (e : Expr) : Prop where
  noCall : ∀ function arguments, ¬ Within (.call function arguments) e
  onlyString : ∀ text, Within (.string text) e → e = .string text

theorem not_within_call (h : e.hasCall = false) (function : String) (arguments : List Expr) :
    ¬ Within (.call function arguments) e := by
  intro hwithin
  induction hwithin with
  | whole => cases h
  | operand op _ ih => exact ih h
  | left op right _ ih => exact ih (Bool.or_eq_false_iff.mp h).1
  | right left op _ ih => exact ih (Bool.or_eq_false_iff.mp h).2
  | argument => cases h

theorem hasString_of_within {text : String} (hcall : e.hasCall = false)
    (h : Within (.string text) e) : e.hasString = true := by
  induction h with
  | whole => rfl
  | operand op _ ih => exact ih hcall
  | left op right _ ih =>
    exact Bool.or_eq_true_iff.mpr (.inl (ih (Bool.or_eq_false_iff.mp hcall).1))
  | right left op _ ih =>
    exact Bool.or_eq_true_iff.mpr (.inr (ih (Bool.or_eq_false_iff.mp hcall).2))
  | argument => cases hcall

theorem isLiteral_of (hcall : e.hasCall = false) (hstring : (e.hasString && !e.isString) = false) :
    e.IsLiteral := by
  refine ⟨not_within_call hcall, fun text hwithin => ?_⟩
  rw [hasString_of_within hcall hwithin] at hstring
  cases e with
  | string other =>
    cases hwithin
    rfl
  | _ => cases hstring

/-- What nothing speaks against is an expression of the form of a constant, over known names. -/
theorem objection?_eq_none {e? : Option Expr} (h : objection? known e? = none) :
    ∃ e, e? = some e ∧ e.IsLiteral ∧ ∀ name ∈ e.identifiers, name ∈ known := by
  cases e? with
  | none => cases h
  | some e =>
    change (if e.hasCall then _ else if e.hasString && !e.isString then _ else _) = none at h
    split at h
    · cases h
    · rename_i hcall
      split at h
      · cases h
      · rename_i hstring
        rw [Bool.not_eq_true] at hcall hstring
        refine ⟨e, rfl, isLiteral_of hcall hstring, ?_⟩
        simpa [List.find?_eq_none] using h

end Expr

namespace Candidate

variable {known : List String} {candidates : List Candidate}

/-- The candidates that nothing speaks against. -/
def kept (screened : List (Candidate × Option Expr.Objection)) : List Candidate :=
  (screened.filter (·.2.isNone)).map (·.1)

/-- The candidates that something speaks against. -/
def dropped (screened : List (Candidate × Option Expr.Objection)) : List Candidate :=
  (screened.filter (·.2.isSome)).map (·.1)

theorem map_fst_screen (known : List String) (candidates : List Candidate) :
    (screen known candidates).map (·.1) = candidates := by
  induction candidates generalizing known with
  | nil => rfl
  | cons m rest ih =>
    unfold screen
    split
    · rw [List.map_cons, ih]
    · rw [List.map_cons, ih]

theorem kept_sublist (known : List String) (candidates : List Candidate) :
    (kept (screen known candidates)).Sublist candidates := by
  have hsub := (List.filter_sublist (p := fun s : Candidate × Option Expr.Objection => s.2.isNone)
    (l := screen known candidates)).map (·.1)
  rwa [map_fst_screen] at hsub

theorem perm_kept_dropped (known : List String) (candidates : List Candidate) :
    (kept (screen known candidates) ++ dropped (screen known candidates)).Perm candidates := by
  have hparts := (List.filter_append_perm (fun s : Candidate × Option Expr.Objection => s.2.isNone)
    (screen known candidates)).map (·.1)
  rw [List.map_append, map_fst_screen] at hparts
  simpa [kept, dropped] using hparts

theorem isLiteral_of_kept {m : Candidate} (h : m ∈ kept (screen known candidates)) :
    ∃ e, m.expr? = some e ∧ e.IsLiteral := by
  induction candidates generalizing known with
  | nil => cases h
  | cons first rest ih =>
    unfold screen at h
    split at h
    · exact ih h
    · rename_i hnone
      rcases List.mem_cons.mp h with rfl | hrest
      · obtain ⟨e, he, hliteral, -⟩ := Expr.objection?_eq_none hnone
        exact ⟨e, he, hliteral⟩
      · exact ih hrest

/-- The macro at some place among those that are typed has the line at that place for itself. -/
theorem typingLines_get (header : String) {ms : List Candidate} {i : Nat} {m : Candidate}
    (h : ms[i]? = some m) :
    (typingLines header (ms.map (·.name)))[firstTypingLine + i - 1]? = some (typingLine m.name) := by
  have hplace : firstTypingLine + i - 1 = i + 1 := by
    unfold firstTypingLine
    omega
  unfold typingLines
  rw [hplace, List.getElem?_cons_succ, List.getElem?_map, List.getElem?_map, h]
  rfl

end Candidate

end CInterop.Macro
