import Mathlib.Data.List.TakeDrop
import CInterop.Macro.Token

/-!
# What the tokens of a text leave of it

Each token takes a front of the text that is left, at least the character it begins with, and hands the
rest on as it is. So the tokens lie in the text one behind the other, and what lies between them are the
blanks that were passed over: nothing is lost, doubled or moved, however a token ends. As every step of
the scan takes a character, there are enough steps for the whole text.
-/

namespace CInterop.Macro.Token

/-! ## What is taken and what is left -/

/-- A literal ends somewhere in the text, whether it is closed or not. -/
theorem append_quotedTail (quote : Char) (cs : List Char) :
    (quotedTail quote cs).1 ++ (quotedTail quote cs).2 = cs := by
  fun_induction quotedTail quote cs with
  | case1 => rfl
  | case2 => rfl
  | case3 c rest taken after hrest ih =>
    rw [hrest] at ih
    rw [List.cons_append, List.cons_append, ih]
  | case4 => rfl
  | case5 c rest _ _ _ taken after hrest ih =>
    rw [hrest] at ih
    rw [List.cons_append, ih]

theorem append_numberTail (hexadecimal : Bool) (previous : Char) (cs : List Char) :
    (numberTail hexadecimal previous cs).1 ++ (numberTail hexadecimal previous cs).2 = cs := by
  fun_induction numberTail hexadecimal previous cs with
  | case1 => rfl
  | case2 previous c rest _ taken after hrest ih =>
    rw [hrest] at ih
    rw [List.cons_append, ih]
  | case3 => rfl

theorem append_wordTail (cs : List Char) : (wordTail cs).1 ++ (wordTail cs).2 = cs := by
  rw [wordTail, List.span_eq_takeWhile_dropWhile]
  exact List.takeWhile_append_dropWhile

/-- A token consists of the character it begins with and a front of what follows, and leaves the rest. -/
theorem next_takes (c : Char) (rest : List Char) :
    ∃ taken, (next c rest).1.text.toList = c :: taken ∧ taken ++ (next c rest).2 = rest := by
  unfold next
  dsimp only
  repeat' split
  all_goals refine ⟨_, String.toList_ofList, ?_⟩
  · exact append_wordTail rest
  · exact append_numberTail _ c rest
  · exact append_quotedTail '"' rest
  · exact append_quotedTail '\'' rest
  · rfl
  · rfl
  · rfl

theorem length_next_le (c : Char) (rest : List Char) : (next c rest).2.length ≤ rest.length := by
  obtain ⟨taken, -, hrest⟩ := next_takes c rest
  calc (next c rest).2.length ≤ taken.length + (next c rest).2.length := Nat.le_add_left _ _
    _ = rest.length := by rw [← List.length_append, hrest]

/-! ## The whole text -/

/-- What holds of every token that can come next holds of the tokens of a text. -/
theorem forall_mem_scan {P : Token → Prop}
    (hnext : ∀ c rest, Text.isBlank c = false → P (next c rest).1) {n : Nat} {cs : List Char}
    {token : Token} (h : token ∈ scan n cs) : P token := by
  induction n generalizing cs with
  | zero => exact absurd h List.not_mem_nil
  | succ n ih =>
    cases cs with
    | nil => exact absurd h List.not_mem_nil
    | cons c cs =>
      rw [scan] at h
      split at h
      · exact ih h
      · rename_i hblank
        rcases List.mem_cons.mp h with rfl | hmem
        · exact hnext c cs (Bool.not_eq_true _ ▸ hblank)
        · exact ih hmem

/-- Each step takes a character, so steps for the whole text are enough, and more of them change nothing. -/
theorem scan_enough {n m : Nat} {cs : List Char} (hn : cs.length ≤ n) (hm : cs.length ≤ m) :
    scan n cs = scan m cs := by
  induction n generalizing m cs with
  | zero =>
    obtain rfl := List.eq_nil_of_length_eq_zero (Nat.le_zero.mp hn)
    cases m <;> rfl
  | succ n ih =>
    cases cs with
    | nil => cases m <;> rfl
    | cons c cs =>
      rw [List.length_cons] at hn hm
      obtain ⟨m, rfl⟩ : ∃ m', m = m' + 1 := ⟨m - 1, by omega⟩
      have hle := length_next_le c cs
      rw [scan, scan, ih (by omega) (by omega : cs.length ≤ m)]
      dsimp only
      rw [ih (by omega) (by omega : (next c cs).2.length ≤ m)]

/-- A text that is scanned to its end is made up of its tokens and blanks before, between and behind
them. -/
theorem exists_gaps {n : Nat} {cs : List Char} (h : cs.length ≤ n) :
    ∃ (first : String) (gaps : List String), gaps.length = (scan n cs).length ∧
      (∀ gap ∈ first :: gaps, ∀ c ∈ gap.toList, Text.isBlank c = true) ∧
      String.ofList cs =
        first ++ String.join (List.zipWith (fun token gap => token.text ++ gap) (scan n cs) gaps) := by
  induction n generalizing cs with
  | zero =>
    obtain rfl := List.eq_nil_of_length_eq_zero (Nat.le_zero.mp h)
    exact ⟨"", [], rfl, by simp, rfl⟩
  | succ n ih =>
    cases cs with
    | nil => exact ⟨"", [], rfl, by simp, rfl⟩
    | cons c cs =>
      rw [List.length_cons] at h
      rw [scan]
      by_cases hblank : Text.isBlank c = true
      · rw [if_pos hblank]
        obtain ⟨first, gaps, hlength, hgaps, htext⟩ := ih (Nat.le_of_succ_le_succ h)
        rw [List.forall_mem_cons] at hgaps
        refine ⟨String.ofList [c] ++ first, gaps, hlength, ?_, ?_⟩
        · rw [List.forall_mem_cons, String.toList_append, String.toList_ofList, List.forall_mem_append]
          exact ⟨⟨List.forall_mem_singleton.mpr hblank, hgaps.1⟩, hgaps.2⟩
        · rw [String.append_assoc, ← htext, ← String.ofList_append]
          rfl
      · rw [if_neg hblank]
        obtain ⟨taken, htoken, hrest⟩ := next_takes c cs
        have hle : (next c cs).2.length ≤ n :=
          Nat.le_trans (length_next_le c cs) (Nat.le_of_succ_le_succ h)
        obtain ⟨first, gaps, hlength, hgaps, htext⟩ := ih hle
        -- the blanks in front of the next token are the gap behind this one
        refine ⟨"", first :: gaps, congrArg Nat.succ hlength, ?_, ?_⟩
        · rw [List.forall_mem_cons]
          exact ⟨fun c hc => absurd hc List.not_mem_nil, hgaps⟩
        · have htokenText : (next c cs).1.text = String.ofList (c :: taken) := by
            rw [← htoken, String.ofList_toList]
          rw [String.empty_append, List.zipWith_cons_cons, String.join_cons, htokenText,
            String.append_assoc, ← htext, ← String.ofList_append, List.cons_append, hrest]

/-- A text is made up of its tokens, in their order, and of blanks before the first, between any two and
behind the last. Every token has a character, and the first one is no blank. The scan ends with the text,
whatever the number of its steps is, as long as it is not below that of the characters. -/
theorem ofText_partitions (text : String) :
    (∃ (first : String) (gaps : List String), gaps.length = (ofText text).length ∧
      (∀ gap ∈ first :: gaps, ∀ c ∈ gap.toList, Text.isBlank c = true) ∧
      text = first ++ String.join (List.zipWith (fun token gap => token.text ++ gap) (ofText text) gaps)) ∧
    (∀ token ∈ ofText text, token.text ≠ "" ∧ ∀ c ∈ token.text.toList.head?, Text.isBlank c = false) ∧
    ∀ steps, text.toList.length ≤ steps → scan steps text.toList = ofText text := by
  have hgaps := exists_gaps (Nat.le_refl text.toList.length)
  rw [String.ofList_toList] at hgaps
  refine ⟨hgaps, fun token htoken => ?_, fun steps hsteps => scan_enough hsteps (Nat.le_refl _)⟩
  refine forall_mem_scan (P := fun token =>
    token.text ≠ "" ∧ ∀ c ∈ token.text.toList.head?, Text.isBlank c = false)
    (fun c rest hblank => ?_) htoken
  obtain ⟨taken, htext, -⟩ := next_takes c rest
  constructor
  · intro hempty
    rw [hempty] at htext
    cases htext
  · rw [htext]
    intro d hd
    obtain rfl := Option.some.inj hd
    exact hblank

/-- A point that starts no number is a token, and a literal that is not closed reaches to the end, with the
backslash that nothing follows. -/
example : (ofText " a .+ \"b \\").map (·.text) = ["a", ".", "+", "\"b \\"] := by
  decide

end CInterop.Macro.Token
