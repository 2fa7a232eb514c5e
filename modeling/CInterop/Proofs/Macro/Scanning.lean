import CInterop.Macro.Expr
import CInterop.Proofs.Macro.Partition
import CInterop.Proofs.Macro.Value

/-!
# Cutting a text where it was put together

What a written token is cut into depends on what follows it: a word takes in more letters, a number
more digits and a sign, an operator a second character. Each kind of token is cut out again in front of
the characters that may follow it in a written expression.

`Scans` is judged with all of the remaining text present. So two pieces that were judged apart can be put
together, and no longest match is cut in two.
-/

namespace CInterop.Macro.Token

open Literal

/-! ## Pieces of a text -/

/-- The text is cut into the tokens, and the scan goes on with `rest`. -/
def Scans (cs : List Char) (tokens : List Token) (rest : List Char) : Prop :=
  ∀ n, cs.length ≤ n → ∃ m, rest.length ≤ m ∧ scan n cs = tokens ++ scan m rest

theorem Scans.nil (rest : List Char) : Scans rest [] rest :=
  fun n hn => ⟨n, hn, rfl⟩

theorem Scans.append {cs middle rest : List Char} {tokens others : List Token}
    (h : Scans cs tokens middle) (hrest : Scans middle others rest) :
    Scans cs (tokens ++ others) rest := by
  intro n hn
  obtain ⟨m, hm, hscan⟩ := h n hn
  obtain ⟨k, hk, hscan'⟩ := hrest m hm
  exact ⟨k, hk, by rw [hscan, hscan', List.append_assoc]⟩

/-- One token is cut off. -/
theorem Scans.token {c : Char} {cs rest : List Char} {token : Token}
    (hblank : Text.isBlank c = false) (hnext : next c cs = (token, rest)) :
    Scans (c :: cs) [token] rest := by
  intro n hn
  have hlength := length_next_le c cs
  obtain ⟨n, rfl⟩ : ∃ m, n = m + 1 := ⟨n - 1, by rw [List.length_cons] at hn; omega⟩
  rw [List.length_cons] at hn
  rw [hnext] at hlength
  refine ⟨n, Nat.le_trans hlength (Nat.le_of_succ_le_succ hn), ?_⟩
  rw [scan, hblank, hnext]
  rfl

/-- A text that is cut up to its end consists of these tokens. -/
theorem ofText_of_scans {text : String} {tokens : List Token} (h : Scans text.toList tokens []) :
    ofText text = tokens := by
  obtain ⟨m, -, hscan⟩ := h _ (Nat.le_refl _)
  unfold ofText
  rw [hscan]
  cases m <;> exact List.append_nil tokens

/-- What may stand behind a word or a number: a parenthesis, a comma or a binary operator. -/
def followers : List Char :=
  ['(', ')', ',', '|', '&', '^', '=', '!', '<', '>', '+', '-', '*', '/', '%']

/-- The text is empty or begins with one of the characters behind a word or a number. -/
def Ends (rest : List Char) : Prop := ∀ c ∈ rest.head?, c ∈ followers

theorem Ends.cons {c : Char} {rest : List Char} (h : c ∈ followers) : Ends (c :: rest) := by
  intro d hd
  rw [List.head?_cons, Option.mem_some_iff] at hd
  exact hd ▸ h

/-! ## Numbers -/

/-- The number in front of a text goes on through all of the text. -/
def Taken (hexadecimal : Bool) (previous : Char) (cs : List Char) : Prop :=
  numberTail hexadecimal previous cs = (cs, [])

theorem numberTail_append {hexadecimal : Bool} {previous : Char} {cs : List Char}
    (h : Taken hexadecimal previous cs) (rest : List Char) :
    numberTail hexadecimal previous (cs ++ rest)
      = (cs ++ (numberTail hexadecimal (cs.getLastD previous) rest).1,
        (numberTail hexadecimal (cs.getLastD previous) rest).2) := by
  induction cs generalizing previous with
  | nil => rfl
  | cons c cs ih =>
    unfold Taken at h
    rw [numberTail] at h
    split at h
    · rename_i htakes
      have htaken : Taken hexadecimal c cs := by
        simp only [Prod.mk.injEq, List.cons.injEq, true_and] at h
        exact Prod.ext h.1 h.2
      rw [List.cons_append, numberTail, if_pos htakes, ih htaken, List.getLastD_cons]
      rfl
    · exact absurd (congrArg Prod.fst h) (List.cons_ne_nil c cs).symm

theorem Taken.append {hexadecimal : Bool} {previous : Char} {cs others : List Char}
    (h : Taken hexadecimal previous cs) (hothers : Taken hexadecimal (cs.getLastD previous) others) :
    Taken hexadecimal previous (cs ++ others) := by
  unfold Taken at hothers ⊢
  rw [numberTail_append h, hothers]

/-- Letters, digits and points belong to a number wherever they stand. -/
theorem Taken.run {hexadecimal : Bool} {cs : List Char}
    (h : ∀ c ∈ cs, (Text.isAlphanumeric c || c == '.') = true) (previous : Char) :
    Taken hexadecimal previous cs := by
  unfold Taken
  induction cs generalizing previous with
  | nil => rfl
  | cons c cs ih =>
    have hc := h c (by simp)
    have hrest := ih (fun d hd => h d (by simp [hd])) c
    have htakes : (numberTail.isAlphanumeric c || c == '.' ||
        ((c == '+' || c == '-') && isExponentLetter previous && !hexadecimal)) = true := by
      rw [Bool.or_eq_true]
      exact .inl hc
    rw [numberTail, if_pos htakes, hrest]

/-- An exponent belongs to a number that is not hexadecimal. -/
theorem Taken.exponent {exponent : List Char} (h : IsExponent exponent) (previous : Char) :
    Taken false previous exponent := by
  obtain @⟨letter, sign, digits, hletter, hsign, -, hdigits⟩ := h
  have hletters : ∀ c ∈ ['e', 'E'],
      (Text.isAlphanumeric c || c == '.') = true ∧ isExponentLetter c = true := by decide
  have hrun : ∀ c ∈ decimalDigits, (Text.isAlphanumeric c || c == '.') = true := by decide
  have hfirst : Taken false previous [letter] := by
    refine .run (fun c hc => ?_) previous
    obtain rfl := List.mem_singleton.mp hc
    exact (hletters c hletter).1
  have hsecond : Taken false letter sign := by
    have hexponent := (hletters letter hletter).2
    simp only [List.mem_cons, List.not_mem_nil, or_false] at hsign
    unfold Taken
    rcases hsign with rfl | rfl | rfl
    · rfl
    all_goals simp [numberTail, hexponent]
  exact hfirst.append (hsecond.append (.run (fun c hc => hrun c (hdigits hc)) _))

/-- A number ends where something else begins, unless a sign could be part of its exponent. -/
theorem numberTail_ends {hexadecimal : Bool} {previous : Char} {cs rest : List Char}
    (h : Taken hexadecimal previous cs)
    (hlast : hexadecimal = true ∨ isExponentLetter (cs.getLastD previous) = false) (hrest : Ends rest) :
    numberTail hexadecimal previous (cs ++ rest) = (cs, rest) := by
  have hstop : numberTail hexadecimal (cs.getLastD previous) rest = ([], rest) := by
    cases rest with
    | nil => rfl
    | cons c rest =>
      have hfollowers : ∀ c ∈ followers, Text.isAlphanumeric c = false ∧ (c == '.') = false := by decide
      obtain ⟨hword, hpoint⟩ := hfollowers c (hrest c rfl)
      have hsign : ((c == '+' || c == '-') && isExponentLetter (cs.getLastD previous) &&
          !hexadecimal) = false := by
        rcases hlast with rfl | hlast
        · exact Bool.and_false _
        · rw [hlast, Bool.and_false, Bool.false_and]
      have hstops : ¬ (numberTail.isAlphanumeric c || c == '.' ||
          ((c == '+' || c == '-') && isExponentLetter (cs.getLastD previous) &&
            !hexadecimal)) = true := by
        rw [hpoint, hsign, Bool.or_false, Bool.or_false, Bool.not_eq_true]
        exact hword
      rw [numberTail, if_neg hstops]
  rw [numberTail_append h, hstop, List.append_nil]

/-- A text that begins like a number and that the number goes through is cut off as a number. -/
theorem scans_of_taken {c : Char} {cs rest : List Char} (hfirst : c ∈ '.' :: decimalDigits)
    (hstart : startsNumber c (cs ++ rest) = true)
    (htaken : Taken (startsHexadecimal (c :: (cs ++ rest))) c cs)
    (hlast : startsHexadecimal (c :: (cs ++ rest)) = true ∨ isExponentLetter (cs.getLastD c) = false)
    (hrest : Ends rest) :
    Scans (c :: (cs ++ rest)) [⟨.number, String.ofList (c :: cs)⟩] rest := by
  have hfirsts : ∀ c ∈ '.' :: decimalDigits,
      Text.isBlank c = false ∧ (Text.isLetter c || c == '_') = false := by decide
  obtain ⟨hblank, hletter⟩ := hfirsts c hfirst
  have htail := numberTail_ends htaken hlast hrest
  refine Scans.token hblank ?_
  unfold next
  rw [hletter, hstart, htail]
  rfl

/-- What is added behind a text has no letter of an exponent, so the text ends with none. -/
theorem isExponentLetter_getLastD {cs others : List Char} {previous : Char}
    (hcs : others = [] → isExponentLetter (cs.getLastD previous) = false)
    (hothers : ∀ d ∈ others, isExponentLetter d = false) :
    isExponentLetter ((cs ++ others).getLastD previous) = false := by
  rw [List.getLastD_eq_getLast?, List.getLast?_append]
  cases hlast : others.getLast? with
  | none =>
    rw [Option.none_or, ← List.getLastD_eq_getLast?]
    exact hcs (List.getLast?_eq_none_iff.mp hlast)
  | some d => exact hothers d (List.mem_of_getLast? hlast)

/-- An integer constant begins with a digit, and only a hexadecimal one has letters of an exponent. -/
theorem eq_cons_of_denotes {body : List Char} {n : Nat} (h : Denotes body n) :
    ∃ c cs, body = c :: cs ∧ c ∈ decimalDigits ∧ c :: cs ⊆ integerCharacters ∧
      ((∃ mark digits, mark ∈ ['x', 'X'] ∧ c :: cs = '0' :: mark :: digits) ∨
        c :: cs ⊆ decimalDigits ++ ['b', 'B']) := by
  have hplain : decimalDigits ++ ['b', 'B'] ⊆ integerCharacters := by decide
  cases h with
  | @decimal first digits hfirst hne hdigits =>
    have hall : first :: digits ⊆ decimalDigits ++ ['b', 'B'] :=
      List.Subset.trans (List.cons_subset.mpr ⟨hfirst, hdigits⟩) (List.subset_append_left _ _)
    exact ⟨first, digits, rfl, hfirst, List.Subset.trans hall hplain, .inr hall⟩
  | @octal digits hdigits =>
    have hall : '0' :: digits ⊆ decimalDigits ++ ['b', 'B'] :=
      List.cons_subset.mpr ⟨by decide, List.Subset.trans (List.Subset.trans hdigits octalDigits_subset)
        (List.subset_append_left _ _)⟩
    exact ⟨'0', digits, rfl, by decide, List.Subset.trans hall hplain, .inr hall⟩
  | @hexadecimal mark digits hmark hne hdigits =>
    have hmarks : ['x', 'X'] ⊆ integerCharacters := by decide
    refine ⟨'0', mark :: digits, rfl, by decide, ?_, .inl ⟨mark, digits, hmark, rfl⟩⟩
    rw [List.cons_subset, List.cons_subset]
    exact ⟨by decide, hmarks hmark, List.Subset.trans hdigits (List.subset_append_left _ _)⟩
  | @binary mark digits hmark hne hdigits =>
    have hmarks : ['b', 'B'] ⊆ decimalDigits ++ ['b', 'B'] := by decide
    have hall : '0' :: mark :: digits ⊆ decimalDigits ++ ['b', 'B'] := by
      rw [List.cons_subset, List.cons_subset]
      exact ⟨by decide, hmarks hmark, List.Subset.trans hdigits (by decide)⟩
    exact ⟨'0', mark :: digits, rfl, by decide, List.Subset.trans hall hplain, .inr hall⟩

/-- A run of letters, digits and points that begins with a digit is cut off as one number, unless it is
not hexadecimal and ends like an exponent. -/
theorem scans_run {c : Char} {cs rest : List Char} (hfirst : c ∈ decimalDigits)
    (hrun : ∀ d ∈ cs, (Text.isAlphanumeric d || d == '.') = true)
    (hlast : startsHexadecimal (c :: (cs ++ rest)) = true ∨ isExponentLetter (cs.getLastD c) = false)
    (hrest : Ends rest) :
    Scans (c :: (cs ++ rest)) [⟨.number, String.ofList (c :: cs)⟩] rest := by
  have hstart : startsNumber c (cs ++ rest) = true := by
    have hdigits : ∀ d ∈ decimalDigits, Text.isDigit d = true := by decide
    unfold startsNumber
    rw [hdigits c hfirst, Bool.true_or]
  exact scans_of_taken (List.mem_cons_of_mem _ hfirst) hstart (.run hrun c) hlast hrest

theorem startsHexadecimal_cons {mark : Char} (h : mark ∈ ['x', 'X']) (rest : List Char) :
    startsHexadecimal ('0' :: mark :: rest) = true := by
  have hmarks : ∀ mark ∈ ['x', 'X'], (mark == 'x' || mark == 'X') = true := by decide
  exact hmarks mark h

/-- A written integer constant is cut off as one number. -/
theorem scans_integer {body suffix rest : List Char} {n : Nat} (h : Denotes body n)
    (hsuffix : suffix ∈ integerSuffixes) (hrest : Ends rest) :
    Scans (body ++ suffix ++ rest) [⟨.number, String.ofList (body ++ suffix)⟩] rest := by
  obtain ⟨c, cs, rfl, hfirst, hcharacters, hform⟩ := eq_cons_of_denotes h
  have hwords : ∀ d ∈ integerCharacters, (Text.isAlphanumeric d || d == '.') = true := by decide
  have hletters : ∀ suffix ∈ integerSuffixes, ∀ d ∈ suffix,
      (Text.isAlphanumeric d || d == '.') = true ∧ isExponentLetter d = false := by decide
  have hrun : ∀ d ∈ cs ++ suffix, (Text.isAlphanumeric d || d == '.') = true := by
    intro d hd
    rcases List.mem_append.mp hd with hmem | hmem
    · exact hwords d (hcharacters (List.mem_cons_of_mem c hmem))
    · exact (hletters suffix hsuffix d hmem).1
  rw [List.cons_append, List.cons_append]
  refine scans_run hfirst hrun ?_ hrest
  rcases hform with ⟨mark, digits, hmark, hcons⟩ | hplain
  · left
    obtain ⟨rfl, rfl⟩ := List.cons.inj hcons
    exact startsHexadecimal_cons hmark _
  · right
    have hnone : ∀ d ∈ decimalDigits ++ ['b', 'B'], isExponentLetter d = false := by decide
    exact isExponentLetter_getLastD (fun _ => hnone _ (hplain List.getLastD_mem_cons))
      fun d hd => (hletters suffix hsuffix d hd).2

/-- A floating constant is a run of digits and points, which begins like a number, and perhaps an
exponent. -/
theorem eq_cons_of_isFloating {body : List Char} (h : IsFloating body) :
    ∃ c run exponent, body = c :: (run ++ exponent) ∧ c :: run ⊆ '.' :: decimalDigits ∧
      (exponent = [] ∨ IsExponent exponent) ∧ run ++ exponent ≠ [] ∧
      ∀ rest, startsNumber c (run ++ rest) = true := by
  have hdigit : ∀ d ∈ decimalDigits, Text.isDigit d = true := by decide
  have hdigits : decimalDigits ⊆ '.' :: decimalDigits := List.subset_cons_self _ _
  cases h with
  | @pointed whole fraction exponent hne hwhole hfraction hexponent =>
    cases whole with
    | nil =>
      cases fraction with
      | nil => exact absurd rfl hne
      | cons d fraction =>
        refine ⟨'.', d :: fraction, exponent, rfl, ?_, hexponent, by simp, fun rest => ?_⟩
        · exact List.cons_subset.mpr ⟨by decide, List.Subset.trans hfraction hdigits⟩
        · have hd := hdigit d (hfraction (by simp))
          simp [startsNumber, hd]
    | cons c whole =>
      refine ⟨c, whole ++ '.' :: fraction, exponent, by simp, ?_, hexponent, by simp, fun rest => ?_⟩
      · rw [← List.cons_append, List.append_subset]
        exact ⟨List.Subset.trans hwhole hdigits,
          List.cons_subset.mpr ⟨by decide, List.Subset.trans hfraction hdigits⟩⟩
      · have hc := hdigit c (hwhole (by simp))
        simp [startsNumber, hc]
  | @scaled whole exponent hne hwhole hexponent =>
    cases whole with
    | nil => exact absurd rfl hne
    | cons c whole =>
      refine ⟨c, whole, exponent, rfl, List.Subset.trans hwhole hdigits, .inr hexponent, ?_,
        fun rest => ?_⟩
      · obtain ⟨-⟩ := hexponent
        simp
      have hc := hdigit c (hwhole (by simp))
      simp [startsNumber, hc]

/-- A decimal floating constant has no mark of a hexadecimal number. -/
theorem startsHexadecimal_floating {body : List Char} (h : IsFloating body) (rest : List Char) :
    startsHexadecimal (body ++ rest) = false := by
  have hmarks : ∀ d ∈ floatingCharacters, (d == 'x' || d == 'X') = false := by decide
  have hsubset := h.subset
  obtain ⟨c, run, exponent, rfl, -, -, hne, -⟩ := eq_cons_of_isFloating h
  cases hsecond : run ++ exponent with
  | nil => exact absurd hsecond hne
  | cons d others =>
    have hd := hmarks d (hsubset (by rw [hsecond]; simp))
    by_cases hc : c = '0'
    · subst hc
      exact hd
    · unfold startsHexadecimal
      split
      · rename_i heq
        exact absurd (List.cons.inj heq).1 hc
      · rfl

/-- A written floating constant is cut off as one number. -/
theorem scans_floating {body suffix rest : List Char} (h : IsFloating body)
    (hsuffix : suffix ∈ floatingSuffixes) (hrest : Ends rest) :
    Scans (body ++ suffix ++ rest) [⟨.number, String.ofList (body ++ suffix)⟩] rest := by
  -- there is no mark of a hexadecimal number, so that a sign may follow an exponent
  have hdecimal := startsHexadecimal_floating h (suffix ++ rest)
  obtain ⟨c, run, exponent, rfl, hrun, hexponent, hne, hstart⟩ := eq_cons_of_isFloating h
  have hletters : ∀ suffix ∈ floatingSuffixes, ∀ d ∈ suffix,
      (Text.isAlphanumeric d || d == '.') = true ∧ isExponentLetter d = false := by decide
  have hwords : ∀ d ∈ '.' :: decimalDigits,
      (Text.isAlphanumeric d || d == '.') = true ∧ isExponentLetter d = false := by decide
  have htaken : Taken false c (run ++ exponent ++ suffix) := by
    have hfirst : Taken false c run :=
      .run (fun d hd => (hwords d (hrun (List.mem_cons_of_mem c hd))).1) c
    have hsecond : Taken false (run.getLastD c) exponent := by
      rcases hexponent with rfl | hexponent
      · rfl
      · exact .exponent hexponent _
    exact (hfirst.append hsecond).append (.run (fun d hd => (hletters suffix hsuffix d hd).1) _)
  have hlast : isExponentLetter ((run ++ exponent ++ suffix).getLastD c) = false := by
    refine isExponentLetter_getLastD (fun _ => ?_) fun d hd => (hletters suffix hsuffix d hd).2
    rcases hexponent with rfl | hexponent
    · rw [List.append_nil]
      exact (hwords _ (hrun List.getLastD_mem_cons)).2
    · obtain @⟨letter, sign, digits, -, -, hdigitsNe, hdigits⟩ := hexponent
      rw [← List.cons_append, ← List.append_assoc]
      exact isExponentLetter_getLastD (fun hnil => absurd hnil hdigitsNe)
        fun d hd => (hwords d (List.mem_cons_of_mem _ (hdigits hd))).2
  have hnumber := hstart (exponent ++ suffix ++ rest)
  rw [← List.append_assoc, ← List.append_assoc] at hnumber
  rw [List.cons_append, ← List.append_assoc] at hdecimal
  rw [List.cons_append, List.cons_append]
  exact scans_of_taken (hrun (by simp)) hnumber (by rw [hdecimal]; exact htaken) (.inr hlast) hrest

/-! ## All number constants -/

/-- The text has the mark of a hexadecimal number and a sign, as hexadecimal floating constants may. -/
def IsSignedHexadecimal (cs : List Char) : Prop :=
  startsHexadecimal cs = true ∧ ('+' ∈ cs ∨ '-' ∈ cs)

instance (cs : List Char) : Decidable (IsSignedHexadecimal cs) :=
  inferInstanceAs (Decidable (_ ∧ _))

/-- A hexadecimal floating constant without a sign is cut off as one number. -/
theorem scans_hexadecimal {body suffix rest : List Char} (h : IsHexadecimalFloating body)
    (hsuffix : suffix ∈ floatingSuffixes) (hsigns : ¬ IsSignedHexadecimal (body ++ suffix))
    (hrest : Ends rest) :
    Scans (body ++ suffix ++ rest) [⟨.number, String.ofList (body ++ suffix)⟩] rest := by
  have hsubset := h.subset
  obtain ⟨mark, run, exponent, hmark, rfl, -⟩ := eq_cons_of_isHexadecimalFloating h
  have hwords : ∀ d ∈ ['x', 'X'] ++ hexadecimalFloatingCharacters, d ≠ '+' → d ≠ '-' →
      (Text.isAlphanumeric d || d == '.') = true := by decide
  have hletters : ∀ suffix ∈ floatingSuffixes, ∀ d ∈ suffix,
      (Text.isAlphanumeric d || d == '.') = true := by decide
  obtain ⟨hplus, hminus⟩ := not_or.mp fun hsign => hsigns ⟨startsHexadecimal_cons hmark _, hsign⟩
  have hrun : ∀ d ∈ mark :: (run ++ exponent) ++ suffix, (Text.isAlphanumeric d || d == '.') = true := by
    intro d hd
    have hd' : d ∈ '0' :: mark :: (run ++ exponent) ++ suffix := List.mem_cons_of_mem _ hd
    rcases List.mem_append.mp hd with hmem | hmem
    · exact hwords d (hsubset (List.mem_cons_of_mem _ hmem)) (fun heq => hplus (heq ▸ hd'))
        fun heq => hminus (heq ▸ hd')
    · exact hletters suffix hsuffix d hmem
  exact scans_run (by decide) hrun (.inl (startsHexadecimal_cons hmark _)) hrest

/-- A number constant is cut off as one number, unless it is hexadecimal and has a sign. -/
theorem scans_number {cs rest : List Char} (h : IsNumber cs) (hsigns : ¬ IsSignedHexadecimal cs)
    (hrest : Ends rest) : Scans (cs ++ rest) [⟨.number, String.ofList cs⟩] rest := by
  cases h with
  | integer hbody hsuffix => exact scans_integer hbody hsuffix hrest
  | floating hbody hsuffix => exact scans_floating hbody hsuffix hrest
  | hexadecimal hbody hsuffix => exact scans_hexadecimal hbody hsuffix hsigns hrest

/-- An integer constant has no sign. -/
theorem not_isSignedHexadecimal_integer {body suffix : List Char} {n : Nat} (h : Denotes body n)
    (hsuffix : suffix ∈ integerSuffixes) : ¬ IsSignedHexadecimal (body ++ suffix) := by
  rintro ⟨-, hsign⟩
  have hplain : ∀ c ∈ integerCharacters, c ≠ '+' ∧ c ≠ '-' := by decide
  have hletters : ∀ suffix ∈ integerSuffixes, ∀ c ∈ suffix, c ≠ '+' ∧ c ≠ '-' := by decide
  obtain ⟨c, cs, rfl, -, hcharacters, -⟩ := eq_cons_of_denotes h
  have hnone : ∀ d ∈ c :: cs ++ suffix, d ≠ '+' ∧ d ≠ '-' := by
    intro d hd
    rcases List.mem_append.mp hd with hmem | hmem
    · exact hplain d (hcharacters hmem)
    · exact hletters suffix hsuffix d hmem
  rcases hsign with hmem | hmem
  · exact (hnone _ hmem).1 rfl
  · exact (hnone _ hmem).2 rfl

/-- A decimal floating constant is not hexadecimal. -/
theorem not_isSignedHexadecimal_floating {body : List Char} (h : IsFloating body) (rest : List Char) :
    ¬ IsSignedHexadecimal (body ++ rest) := by
  rintro ⟨hstart, -⟩
  rw [startsHexadecimal_floating h] at hstart
  cases hstart

/-- The suffixes of floating constants have no sign. -/
theorem not_isSignedHexadecimal_suffix {body suffix letters : List Char}
    (h : IsHexadecimalFloating body) (hletters : letters ∈ floatingSuffixes)
    (hsigns : ¬ IsSignedHexadecimal (body ++ suffix)) : ¬ IsSignedHexadecimal (body ++ letters) := by
  have hnone : ∀ letters ∈ floatingSuffixes, '+' ∉ letters ∧ '-' ∉ letters := by decide
  have hstart : startsHexadecimal (body ++ suffix) = true := by
    obtain ⟨mark, run, exponent, hmark, rfl, -⟩ := eq_cons_of_isHexadecimalFloating h
    exact startsHexadecimal_cons hmark _
  rintro ⟨-, hsign⟩
  refine hsigns ⟨hstart, ?_⟩
  rcases hsign with hmem | hmem
  · exact .inl (List.mem_append_left _
      ((List.mem_append.mp hmem).resolve_right (hnone letters hletters).1))
  · exact .inr (List.mem_append_left _
      ((List.mem_append.mp hmem).resolve_right (hnone letters hletters).2))

/-- A number constant begins with a digit or a point. -/
theorem head_of_number {cs : List Char} (h : IsNumber cs) :
    ∃ c rest, cs = c :: rest ∧ c ∈ '.' :: decimalDigits := by
  cases h with
  | integer hbody _ =>
    obtain ⟨c, cs, rfl, hfirst, -⟩ := eq_cons_of_denotes hbody
    exact ⟨c, _, rfl, List.mem_cons_of_mem _ hfirst⟩
  | floating hbody _ =>
    obtain ⟨c, run, exponent, rfl, hrun, -⟩ := eq_cons_of_isFloating hbody
    exact ⟨c, _, rfl, hrun (by simp)⟩
  | hexadecimal hbody _ =>
    obtain ⟨mark, run, exponent, -, rfl, -⟩ := eq_cons_of_isHexadecimalFloating hbody
    exact ⟨'0', _, rfl, by decide⟩

/-! ## Words -/

/-- A letter of a word and more of its characters. -/
inductive IsWord : List Char → Prop where
  | mk {c : Char} {cs : List Char} : Text.isBlank c = false → (Text.isLetter c || c == '_') = true →
      (∀ d ∈ cs, Text.isWordChar d = true) → IsWord (c :: cs)

theorem scans_word {cs rest : List Char} (h : IsWord cs) (hrest : Ends rest) :
    Scans (cs ++ rest) [⟨.identifier, String.ofList cs⟩] rest := by
  obtain ⟨hblank, hletter, hword⟩ := h
  have hstop : ∀ c ∈ rest.head?, Text.isWordChar c = false := by
    have hfollowers : ∀ c ∈ followers, Text.isWordChar c = false := by decide
    exact fun c hc => hfollowers c (hrest c hc)
  refine Scans.token hblank ?_
  unfold next wordTail
  rw [if_pos hletter]
  dsimp only [List.append_eq]
  rw [Json.span_append hword hstop]

/-! ## Quoted literals -/

/-- Whether the quote stands at the end of the text and, apart from characters behind a backslash,
nowhere else. -/
def closes (quote : Char) : List Char → Bool
  | [] => false
  | '\\' :: _ :: cs => closes quote cs
  | c :: cs => if c = quote then cs.isEmpty else closes quote cs

/-- Whether the text is a literal in the given quotes. -/
def isClosed (quote : Char) : List Char → Bool
  | [] => false
  | c :: cs => c == quote && closes quote cs

theorem quotedTail_cons {quote c : Char} (hslash : c ≠ '\\') (cs : List Char) :
    quotedTail quote (c :: cs) = if c = quote then ([c], cs)
      else (c :: (quotedTail quote cs).1, (quotedTail quote cs).2) := by
  rw [quotedTail]
  · exact fun h _ => hslash h
  · exact fun _ _ h _ => hslash h

/-- A literal ends where it is closed, whatever follows. -/
theorem quotedTail_of_closes {quote : Char} (hquote : quote ≠ '\\') {cs : List Char}
    (h : closes quote cs = true) (rest : List Char) : quotedTail quote (cs ++ rest) = (cs, rest) := by
  fun_induction closes quote cs with
  | case1 => cases h
  | case2 c cs ih => rw [List.cons_append, List.cons_append, quotedTail, ih h]
  | case3 cs hslash =>
    obtain rfl := List.isEmpty_iff.mp h
    rw [List.cons_append, quotedTail_cons hquote, if_pos rfl]
    rfl
  | case4 c cs hslash hne ih =>
    have hc : c ≠ '\\' := by
      rintro rfl
      cases cs with
      | nil => cases h
      | cons d cs => exact hslash d cs rfl rfl
    rw [List.cons_append, quotedTail_cons hc, if_neg hne, ih h]

theorem eq_append_of_closes {quote : Char} {cs : List Char} (h : closes quote cs = true) :
    ∃ inner, cs = inner ++ [quote] := by
  fun_induction closes quote cs with
  | case1 => cases h
  | case2 c cs ih =>
    obtain ⟨inner, rfl⟩ := ih h
    exact ⟨'\\' :: c :: inner, rfl⟩
  | case3 cs hslash =>
    obtain rfl := List.isEmpty_iff.mp h
    exact ⟨[], rfl⟩
  | case4 c cs hslash hne ih =>
    obtain ⟨inner, rfl⟩ := ih h
    exact ⟨c :: inner, rfl⟩

theorem scans_string {cs : List Char} (h : isClosed '"' cs = true) (rest : List Char) :
    Scans (cs ++ rest) [⟨.string, String.ofList cs⟩] rest := by
  cases cs with
  | nil => cases h
  | cons c cs =>
    simp only [isClosed, Bool.and_eq_true, beq_iff_eq] at h
    obtain ⟨rfl, hcloses⟩ := h
    refine Scans.token (by decide) ?_
    show ((⟨.string, String.ofList ('"' :: (quotedTail '"' (cs ++ rest)).1)⟩,
      (quotedTail '"' (cs ++ rest)).2) : Token × List Char) = _
    rw [quotedTail_of_closes (by decide) hcloses]

theorem scans_char {cs : List Char} (h : isClosed '\'' cs = true) (rest : List Char) :
    Scans (cs ++ rest) [⟨.char, String.ofList cs⟩] rest := by
  cases cs with
  | nil => cases h
  | cons c cs =>
    simp only [isClosed, Bool.and_eq_true, beq_iff_eq] at h
    obtain ⟨rfl, hcloses⟩ := h
    refine Scans.token (by decide) ?_
    show ((⟨.char, String.ofList ('\'' :: (quotedTail '\'' (cs ++ rest)).1)⟩,
      (quotedTail '\'' (cs ++ rest)).2) : Token × List Char) = _
    rw [quotedTail_of_closes (by decide) hcloses]

/-! ## Operators and parentheses -/

/-- The second characters of operators. -/
def seconds : List Char := ['<', '>', '=', '&', '|']

/-- The text does not go on with the second character of an operator. -/
def Apart (rest : List Char) : Prop := ∀ c ∈ rest.head?, c ∉ seconds

theorem isPairOperator_eq_false {c d : Char} (h : d ∉ seconds) : isPairOperator c d = false := by
  simp only [seconds, List.mem_cons, not_or] at h
  obtain ⟨hless, hgreater, hequal, hand, hor, -⟩ := h
  simp [isPairOperator, hless, hgreater, hequal, hand, hor]

/-- The character is no blank and begins neither a word nor a literal. -/
def IsMark (c : Char) : Prop :=
  Text.isBlank c = false ∧ (Text.isLetter c || c == '_') = false ∧ Text.isDigit c = false ∧
    (c == '.') = false ∧ (c == '"') = false ∧ (c == '\'') = false

instance (c : Char) : Decidable (IsMark c) := inferInstanceAs (Decidable (_ ∧ _))

/-- What such a character begins is decided by the next one. -/
theorem next_mark {c : Char} (h : IsMark c) (rest : List Char) :
    next c rest = match rest with
      | d :: after =>
        if isPairOperator c d then (⟨.operator, String.ofList [c, d]⟩, after)
        else (⟨singleKind c, String.ofList [c]⟩, rest)
      | [] => (⟨singleKind c, String.ofList [c]⟩, []) := by
  obtain ⟨-, hletter, hdigit, hpoint, hstring, hchar⟩ := h
  have hstart : startsNumber c rest = false := by
    unfold startsNumber
    rw [hdigit, hpoint, Bool.false_and, Bool.or_false]
  unfold next
  rw [hletter, hstart, hstring, hchar]
  rfl

/-- A character that is no part of a pair is a token by itself. -/
theorem scans_mark {c : Char} {rest : List Char} (h : IsMark c)
    (hpair : ∀ d ∈ rest.head?, isPairOperator c d = false) :
    Scans (c :: rest) [⟨singleKind c, String.ofList [c]⟩] rest := by
  refine Scans.token h.1 ?_
  rw [next_mark h]
  cases rest with
  | nil => rfl
  | cons d rest =>
    dsimp only
    rw [hpair d rfl]
    rfl

theorem scans_pair {c d : Char} {rest : List Char} (hmark : IsMark c) (h : isPairOperator c d = true) :
    Scans (c :: d :: rest) [⟨.operator, String.ofList [c, d]⟩] rest := by
  refine Scans.token hmark.1 ?_
  rw [next_mark hmark]
  dsimp only
  rw [h]
  rfl

theorem scans_single {c : Char} {rest : List Char} (h : IsMark c) (hkind : singleKind c = .operator)
    (hrest : Apart rest) : Scans (c :: rest) [⟨.operator, String.ofList [c]⟩] rest := by
  rw [← hkind]
  exact scans_mark h fun d hd => isPairOperator_eq_false (hrest d hd)

/-- A binary operator is cut off in front of what is no part of another. -/
theorem scans_binary (op : BinaryOp) {rest : List Char} (hrest : Apart rest) :
    Scans (op.symbol.toList ++ rest) [⟨.operator, op.symbol⟩] rest := by
  cases op
  all_goals first
    | exact scans_pair (by decide) rfl
    | exact scans_single (by decide) rfl hrest

theorem scans_unary (op : UnaryOp) {rest : List Char} (hrest : Apart rest) :
    Scans (op.symbol.toList ++ rest) [⟨.operator, op.symbol⟩] rest := by
  cases op
  all_goals exact scans_single (by decide) rfl hrest

/-- Parentheses and commas are cut off one by one. -/
theorem scans_paren {c : Char} (h : c ∈ ['(', ')', ',']) (rest : List Char) :
    Scans (c :: rest) [⟨singleKind c, String.ofList [c]⟩] rest := by
  have hparens : ∀ c ∈ ['(', ')', ','], IsMark c ∧
      c ≠ '<' ∧ c ≠ '>' ∧ c ≠ '=' ∧ c ≠ '!' ∧ c ≠ '&' ∧ c ≠ '|' := by decide
  obtain ⟨hmark, hless, hgreater, hequal, hnot, hand, hor⟩ := hparens c h
  refine scans_mark hmark fun d _ => ?_
  simp [isPairOperator, hless, hgreater, hequal, hnot, hand, hor]

/-! ## Leaves -/

/-- The kinds of the tokens that are operands. -/
def leafKinds : List TokenKind := [.number, .string, .char, .identifier]

/-- If the token is an operand, it is spelled so that it is cut off in one piece. -/
def IsWhole (token : Token) : Prop :=
  match token.kind with
  | .number => IsNumber token.text.toList ∧ ¬ IsSignedHexadecimal token.text.toList
  | .string => isClosed '"' token.text.toList = true
  | .char => isClosed '\'' token.text.toList = true
  | .identifier => IsWord token.text.toList
  | .operator | .paren | .comma => True

theorem scans_whole {token : Token} (hkind : token.kind ∈ leafKinds) (h : IsWhole token)
    {rest : List Char} (hrest : Ends rest) : Scans (token.text.toList ++ rest) [token] rest := by
  obtain ⟨kind, text⟩ := token
  have htext : String.ofList text.toList = text := String.ofList_toList
  cases kind with
  | number =>
    obtain ⟨hnumber, hsigns⟩ : IsNumber text.toList ∧ ¬ IsSignedHexadecimal text.toList := h
    have hscans := scans_number hnumber hsigns hrest
    rwa [htext] at hscans
  | string =>
    have hclosed : isClosed '"' text.toList = true := h
    have hscans := scans_string hclosed rest
    rwa [htext] at hscans
  | char =>
    have hclosed : isClosed '\'' text.toList = true := h
    have hscans := scans_char hclosed rest
    rwa [htext] at hscans
  | identifier =>
    have hword : IsWord text.toList := h
    have hscans := scans_word hword hrest
    rwa [htext] at hscans
  | operator | paren | comma => simp [leafKinds] at hkind

theorem head_of_closed {quote : Char} {cs : List Char} (h : isClosed quote cs = true) :
    ∃ rest, cs = quote :: rest := by
  cases cs with
  | nil => cases h
  | cons c cs =>
    rw [isClosed, Bool.and_eq_true, beq_iff_eq] at h
    exact ⟨cs, by rw [h.1]⟩

/-- No operand begins with the second character of an operator. -/
theorem apart_whole {token : Token} (hkind : token.kind ∈ leafKinds) (h : IsWhole token)
    (rest : List Char) : Apart (token.text.toList ++ rest) := by
  obtain ⟨kind, text⟩ := token
  show Apart (text.toList ++ rest)
  suffices hhead : ∃ c cs, text.toList = c :: cs ∧ c ∉ seconds by
    obtain ⟨c, cs, hcons, hc⟩ := hhead
    rw [hcons]
    intro d hd
    obtain rfl : c = d := by simpa using hd
    exact hc
  cases kind with
  | number =>
    have hfirsts : ∀ c ∈ '.' :: decimalDigits, c ∉ seconds := by decide
    obtain ⟨c, cs, hcons, hc⟩ := head_of_number h.1
    exact ⟨c, cs, hcons, hfirsts c hc⟩
  | string =>
    obtain ⟨cs, hcons⟩ := head_of_closed h
    exact ⟨_, cs, hcons, by decide⟩
  | char =>
    obtain ⟨cs, hcons⟩ := head_of_closed h
    exact ⟨_, cs, hcons, by decide⟩
  | identifier =>
    have hletters : ∀ c ∈ seconds, (Text.isLetter c || c == '_') = false := by decide
    have hword : IsWord text.toList := h
    cases hcons : text.toList with
    | nil =>
      rw [hcons] at hword
      cases hword
    | cons c cs =>
      rw [hcons] at hword
      obtain ⟨-, hletter, -⟩ := hword
      refine ⟨c, cs, rfl, fun hmem => ?_⟩
      rw [hletters c hmem] at hletter
      cases hletter
  | operator | paren | comma => simp [leafKinds] at hkind

theorem ends_symbol (op : BinaryOp) (rest : List Char) : Ends (op.symbol.toList ++ rest) := by
  cases op
  all_goals exact Ends.cons (by decide)

/-! ## What tokens of a text look like -/

theorem singleKind_ne (c : Char) : singleKind c ≠ .identifier ∧ singleKind c ≠ .number := by
  unfold singleKind
  split
  · decide
  · split <;> decide

/-- How the next token came about, if it is a word or a number. -/
theorem next_cases (c : Char) (rest : List Char) :
    ((next c rest).1 = ⟨.identifier, String.ofList (c :: (wordTail rest).1)⟩ ∧
        (Text.isLetter c || c == '_') = true) ∨
      (next c rest).1 =
        ⟨.number, String.ofList (c :: (numberTail (startsHexadecimal (c :: rest)) c rest).1)⟩ ∨
      ((next c rest).1.kind ≠ .identifier ∧ (next c rest).1.kind ≠ .number) := by
  unfold next
  dsimp only
  by_cases hletter : (Text.isLetter c || c == '_') = true
  · rw [if_pos hletter]
    exact .inl ⟨rfl, hletter⟩
  rw [if_neg hletter]
  by_cases hstart : startsNumber c rest = true
  · rw [if_pos hstart]
    exact .inr (.inl rfl)
  rw [if_neg hstart]
  refine .inr (.inr ?_)
  repeat' split
  all_goals first
    | exact singleKind_ne c
    | exact ⟨TokenKind.noConfusion, TokenKind.noConfusion⟩

/-- What is cut off as a word is one. -/
theorem isWord_of_mem_scan {n : Nat} {cs : List Char} {name : String}
    (h : ⟨.identifier, name⟩ ∈ scan n cs) : IsWord name.toList := by
  refine forall_mem_scan (P := fun token => token.kind = .identifier → IsWord token.text.toList)
    (fun c rest hblank hkind => ?_) h rfl
  rcases next_cases c rest with ⟨hword, hletter⟩ | hnumber | ⟨hother, -⟩
  · rw [hword, String.toList_ofList]
    refine .mk hblank hletter fun d hd => ?_
    rw [wordTail, List.span_eq_takeWhile_dropWhile] at hd
    exact List.all_eq_true.mp List.all_takeWhile d hd
  · rw [hnumber] at hkind
    cases hkind
  · exact absurd hkind hother

/-- The rest of a hexadecimal number has no sign. -/
theorem sign_not_mem_numberTail {sign : Char} (hsign : sign ∈ ['+', '-']) (previous : Char)
    (cs : List Char) : sign ∉ (numberTail true previous cs).1 := by
  have hsigns : ∀ sign ∈ ['+', '-'], (numberTail.isAlphanumeric sign || sign == '.') = false := by
    decide
  induction cs generalizing previous with
  | nil => exact List.not_mem_nil
  | cons c cs ih =>
    rw [numberTail]
    split
    · rename_i htakes
      rw [Bool.not_true, Bool.and_false, Bool.or_false] at htakes
      rw [List.mem_cons]
      rintro (rfl | hmem)
      · rw [hsigns _ hsign] at htakes
        cases htakes
      · exact ih c hmem
    · exact List.not_mem_nil

theorem startsHexadecimal_of_isPrefix {cs others : List Char} (hfront : cs <+: others)
    (h : startsHexadecimal cs = true) : startsHexadecimal others = true := by
  obtain ⟨rest, rfl⟩ := hfront
  unfold startsHexadecimal at h
  split at h
  · exact h
  · cases h

/-- No number of a text is hexadecimal with a sign: the sign is an operator behind it. -/
theorem not_isSignedHexadecimal_of_mem_scan {n : Nat} {cs : List Char} {number : String}
    (h : ⟨.number, number⟩ ∈ scan n cs) : ¬ IsSignedHexadecimal number.toList := by
  refine forall_mem_scan
    (P := fun token => token.kind = .number → ¬ IsSignedHexadecimal token.text.toList)
    (fun c rest _ hkind => ?_) h rfl
  rcases next_cases c rest with ⟨hword, -⟩ | hnumber | ⟨-, hother⟩
  · rw [hword] at hkind
    cases hkind
  · rw [hnumber, String.toList_ofList]
    rintro ⟨hstart, hsign⟩
    have hhexadecimal := startsHexadecimal_of_isPrefix
      ((List.prefix_cons_inj c).mpr ⟨_, append_numberTail _ c rest⟩) hstart
    rw [hhexadecimal] at hsign
    have hzero : ∀ sign ∈ ['+', '-'], startsHexadecimal (sign :: rest) = false := by
      intro sign hmem
      simp only [List.mem_cons, List.not_mem_nil, or_false] at hmem
      rcases hmem with rfl | rfl <;> rfl
    have hnone : ∀ sign ∈ ['+', '-'], sign ∉ c :: (numberTail true c rest).1 := by
      intro sign hmem hsign
      rcases List.mem_cons.mp hsign with rfl | htail
      · rw [hzero sign hmem] at hhexadecimal
        cases hhexadecimal
      · exact sign_not_mem_numberTail hmem c rest htail
    rcases hsign with hmem | hmem
    · exact hnone _ (by decide) hmem
    · exact hnone _ (by decide) hmem
  · exact absurd hkind hother

end CInterop.Macro.Token
