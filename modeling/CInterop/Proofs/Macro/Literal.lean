import Mathlib.Algebra.Group.Nat.Defs
import CInterop.Macro.Literal
import CInterop.Proofs.Json.Lexical

/-!
# Number literals of C and their counterparts

The integer and floating constants of C, written down as a grammar, and what the converter makes of each
form. It judges a text by its letters: a mark of a floating constant anywhere, then the letters at its end.
The lemmas say for each form which characters it has, so that no form is taken for another.
-/

namespace CInterop.Macro.Literal

/-! ## The constants of C -/

def decimalDigits : List Char := ['0', '1', '2', '3', '4', '5', '6', '7', '8', '9']

def octalDigits : List Char := ['0', '1', '2', '3', '4', '5', '6', '7']

def binaryDigits : List Char := ['0', '1']

def hexadecimalDigits : List Char :=
  decimalDigits ++ ['a', 'b', 'c', 'd', 'e', 'f', 'A', 'B', 'C', 'D', 'E', 'F']

/-- The suffixes of integer constants: a mark of unsigned and a mark of length in either order, both of
which may be missing. -/
def integerSuffixes : List (List Char) :=
  [[], ['u'], ['U']].flatMap fun unsigned =>
    [[], ['l'], ['L'], ['l', 'l'], ['L', 'L']].flatMap fun long => [unsigned ++ long, long ++ unsigned]

/-- The suffixes of floating constants. -/
def floatingSuffixes : List (List Char) := [[], ['f'], ['F'], ['l'], ['L']]

/-- The value of a digit of any base. -/
def digitValue (c : Char) : Nat :=
  if c ∈ decimalDigits then c.toNat - '0'.toNat else c.toLower.toNat - 'a'.toNat + 10

/-- The number that digits stand for in a base. -/
def valueIn (base : Nat) (digits : List Char) : Nat :=
  digits.foldl (fun n c => base * n + digitValue c) 0

/-- The text is an integer constant of C without its suffix, and this is its value. -/
inductive Denotes : List Char → Nat → Prop where
  | decimal {first : Char} {digits : List Char} : first ∈ decimalDigits → first ≠ '0' →
      digits ⊆ decimalDigits → Denotes (first :: digits) (valueIn 10 (first :: digits))
  | octal {digits : List Char} : digits ⊆ octalDigits → Denotes ('0' :: digits) (valueIn 8 digits)
  | hexadecimal {mark : Char} {digits : List Char} : mark ∈ ['x', 'X'] → digits ≠ [] →
      digits ⊆ hexadecimalDigits → Denotes ('0' :: mark :: digits) (valueIn 16 digits)
  | binary {mark : Char} {digits : List Char} : mark ∈ ['b', 'B'] → digits ≠ [] →
      digits ⊆ binaryDigits → Denotes ('0' :: mark :: digits) (valueIn 2 digits)

/-- The exponent of a floating constant: a letter, perhaps a sign, and digits. -/
inductive IsExponent : List Char → Prop where
  | mk {letter : Char} {sign digits : List Char} : letter ∈ ['e', 'E'] →
      sign ∈ [[], ['+'], ['-']] → digits ≠ [] → digits ⊆ decimalDigits →
      IsExponent (letter :: (sign ++ digits))

/-- A decimal floating constant without its suffix: digits with a point before, between or behind them
and perhaps an exponent, or digits with an exponent. -/
inductive IsFloating : List Char → Prop where
  | pointed {whole fraction exponent : List Char} : whole ++ fraction ≠ [] →
      whole ⊆ decimalDigits → fraction ⊆ decimalDigits → exponent = [] ∨ IsExponent exponent →
      IsFloating (whole ++ '.' :: (fraction ++ exponent))
  | scaled {whole exponent : List Char} : whole ≠ [] → whole ⊆ decimalDigits → IsExponent exponent →
      IsFloating (whole ++ exponent)

/-- The exponent of a hexadecimal floating constant: a letter, perhaps a sign, and decimal digits. -/
inductive IsBinaryExponent : List Char → Prop where
  | mk {letter : Char} {sign digits : List Char} : letter ∈ ['p', 'P'] →
      sign ∈ [[], ['+'], ['-']] → digits ≠ [] → digits ⊆ decimalDigits →
      IsBinaryExponent (letter :: (sign ++ digits))

/-- A hexadecimal floating constant without its suffix. Its exponent cannot be missing. -/
inductive IsHexadecimalFloating : List Char → Prop where
  | pointed {mark : Char} {whole fraction exponent : List Char} : mark ∈ ['x', 'X'] →
      whole ++ fraction ≠ [] → whole ⊆ hexadecimalDigits → fraction ⊆ hexadecimalDigits →
      IsBinaryExponent exponent →
      IsHexadecimalFloating ('0' :: mark :: (whole ++ '.' :: (fraction ++ exponent)))
  | scaled {mark : Char} {whole exponent : List Char} : mark ∈ ['x', 'X'] → whole ≠ [] →
      whole ⊆ hexadecimalDigits → IsBinaryExponent exponent →
      IsHexadecimalFloating ('0' :: mark :: (whole ++ exponent))

/-- The number constants of C: integers of any size and decimal and hexadecimal floating constants. -/
inductive IsNumber : List Char → Prop where
  | integer {body suffix : List Char} {n : Nat} : Denotes body n → suffix ∈ integerSuffixes →
      IsNumber (body ++ suffix)
  | floating {body suffix : List Char} : IsFloating body → suffix ∈ floatingSuffixes →
      IsNumber (body ++ suffix)
  | hexadecimal {body suffix : List Char} : IsHexadecimalFloating body → suffix ∈ floatingSuffixes →
      IsNumber (body ++ suffix)

theorem mem_decimalDigits {c : Char} (h : c.isDigit = true) : c ∈ decimalDigits := by
  simp only [Char.isDigit, Bool.and_eq_true, decide_eq_true_eq, UInt32.le_iff_toNat_le] at h
  have hlow : 48 ≤ c.toNat := h.1
  have hhigh : c.toNat ≤ 57 := h.2
  have hall : ∀ n < 58, 48 ≤ n → Char.ofNat n ∈ decimalDigits := by decide
  rw [← Char.ofNat_toNat c]
  exact hall c.toNat (by omega) hlow

/-! ## The characters of each form -/

/-- What integer constants consist of before their suffix. -/
def integerCharacters : List Char := hexadecimalDigits ++ ['x', 'X']

/-- What floating constants consist of before their suffix. -/
def floatingCharacters : List Char := decimalDigits ++ ['.', 'e', 'E', '+', '-']

theorem octalDigits_subset : octalDigits ⊆ decimalDigits := by decide

theorem binaryDigits_subset : binaryDigits ⊆ hexadecimalDigits := by decide

theorem decimalDigits_subset_integerCharacters : decimalDigits ⊆ integerCharacters := by decide

theorem decimalDigits_subset_floatingCharacters : decimalDigits ⊆ floatingCharacters := by decide

theorem IsExponent.subset {exponent : List Char} (h : IsExponent exponent) :
    exponent ⊆ floatingCharacters := by
  obtain ⟨hletter, hsign, -, hdigits⟩ := h
  have hletters : ['e', 'E'] ⊆ floatingCharacters := by decide
  have hsigns : ∀ sign ∈ [[], ['+'], ['-']], sign ⊆ floatingCharacters := by decide
  rw [List.cons_subset, List.append_subset]
  exact ⟨hletters hletter, hsigns _ hsign,
    List.Subset.trans hdigits decimalDigits_subset_floatingCharacters⟩

theorem IsFloating.subset {body : List Char} (h : IsFloating body) : body ⊆ floatingCharacters := by
  cases h with
  | pointed _ hwhole hfraction hexponent =>
    rw [List.append_subset, List.cons_subset, List.append_subset]
    refine ⟨List.Subset.trans hwhole decimalDigits_subset_floatingCharacters, by decide,
      List.Subset.trans hfraction decimalDigits_subset_floatingCharacters, ?_⟩
    rcases hexponent with rfl | hexponent
    · exact List.nil_subset _
    · exact hexponent.subset
  | scaled _ hwhole hexponent =>
    rw [List.append_subset]
    exact ⟨List.Subset.trans hwhole decimalDigits_subset_floatingCharacters, hexponent.subset⟩

/-- A floating constant has a point or the letter of an exponent. -/
theorem IsFloating.mark {body : List Char} (h : IsFloating body) :
    '.' ∈ body ∨ 'e' ∈ body ∨ 'E' ∈ body := by
  cases h with
  | pointed => exact .inl (by simp)
  | scaled _ _ hexponent =>
    obtain ⟨hletter, -⟩ := hexponent
    simp only [List.mem_cons, List.not_mem_nil, or_false] at hletter
    rcases hletter with rfl | rfl
    · exact .inr (.inl (by simp))
    · exact .inr (.inr (by simp))

/-! ## Judging a text -/

/-- A text without the letters that mark a radix has none. -/
theorem hasRadix_eq_false {cs : List Char} (h : ∀ c ∈ cs, c ∉ ['x', 'X', 'b', 'B']) :
    hasRadix cs = false := by
  unfold hasRadix
  split
  · rename_i c rest
    have hc := h c (by simp)
    simpa [and_assoc] using hc
  · rfl

/-- A text without the letters of floating constants is not taken for one. -/
theorem looksFloating_eq_false {cs : List Char} (h : ∀ c ∈ cs, c ∉ ['.', 'e', 'E', 'f', 'F'])
    (hlower : ∀ c ∈ cs, c.toLower ≠ 'f') : looksFloating cs = false := by
  have hpoint : '.' ∉ cs := by
    intro hmem
    exact h '.' hmem (by decide)
  have hletter : cs.any (fun c => c == 'e' || c == 'E') = false := by
    rw [List.any_eq_false]
    intro c hc
    have hne := h c hc
    simp only [List.mem_cons, not_or] at hne
    simp [hne.2.1, hne.2.2.1]
  have hend : endsWith cs 'f' = false := by
    unfold endsWith
    cases hlast : cs.getLast? with
    | none => rfl
    | some c => simpa using hlower c (List.mem_of_getLast? hlast)
  unfold looksFloating
  rw [hletter, hend, Bool.or_false, Bool.or_false, ← Bool.not_eq_true, List.contains_iff_mem]
  exact hpoint

/-- An integer suffix has letters of its own, and its counterpart is an integer suffix that stays as it
is. -/
theorem integerSuffixes_spec : ∀ suffix ∈ integerSuffixes,
    (∀ c ∈ suffix, isSuffixLetter c = true) ∧ targetSuffix suffix ∈ integerSuffixes ∧
      targetSuffix (targetSuffix suffix) = targetSuffix suffix := by
  decide

theorem integerCharacters_spec : ∀ c ∈ integerCharacters, isSuffixLetter c = false ∧ c ≠ '\n' := by
  decide

/-- The suffix is found behind what has none of its letters. -/
theorem integerSuffix_append {body suffix : List Char} (hne : body ≠ [])
    (hbody : ∀ c ∈ body, isSuffixLetter c = false ∧ c ≠ '\n')
    (hletters : ∀ c ∈ suffix, isSuffixLetter c = true) : integerSuffix (body ++ suffix) = suffix := by
  -- no line break stands at the end, behind which the suffix would be looked for
  have hbreak : (body ++ suffix).getLast? ≠ some '\n' := by
    intro h
    rcases List.mem_append.mp (List.mem_of_getLast? h) with hmem | hmem
    · exact (hbody _ hmem).2 rfl
    · exact absurd (hletters _ hmem) (by decide)
  obtain ⟨initial, last, rfl⟩ := List.eq_nil_or_concat body |>.resolve_left hne
  have hstop : ¬ isSuffixLetter last = true := by
    have hlast := (hbody last (by simp)).1
    simp [hlast]
  have hreverse : ∀ c ∈ suffix.reverse, isSuffixLetter c = true := by
    intro c hc
    exact hletters c (List.mem_reverse.mp hc)
  unfold integerSuffix
  rw [if_neg hbreak]
  dsimp only
  rw [List.reverse_append, List.concat_eq_append, List.reverse_append, List.reverse_singleton,
    List.takeWhile_append_of_pos hreverse, List.singleton_append, List.takeWhile_cons_of_neg hstop,
    List.append_nil, List.reverse_reverse]

theorem take_sub_length (body suffix : List Char) :
    (body ++ suffix).take ((body ++ suffix).length - suffix.length) = body := by
  rw [List.length_append, Nat.add_sub_cancel, List.take_left']
  rfl

/-- What is written for an integer suffix, if it is to be kept. -/
def keptSuffix (keepSuffix : Bool) (suffix : List Char) : List Char :=
  if keepSuffix then targetSuffix suffix else []

/-- What is neither marked with a radix nor as a floating constant has the decimal form of what is before
its suffix, if there is one. -/
theorem convertChars_decimalForm {body suffix : List Char} (hne : body ≠ [])
    (hbody : body ⊆ decimalDigits) (hsuffix : suffix ∈ integerSuffixes) (keepSuffix : Bool) :
    convertChars (body ++ suffix) keepSuffix =
      (decimalForm body).map (· ++ keptSuffix keepSuffix suffix) := by
  have hdigits : ∀ c ∈ decimalDigits, c ∉ ['x', 'X', 'b', 'B'] ∧ c ∉ ['.', 'e', 'E', 'f', 'F'] ∧
      c.toLower ≠ 'f' := by decide
  have hletters : ∀ suffix ∈ integerSuffixes, ∀ c ∈ suffix, c ∉ ['x', 'X', 'b', 'B'] ∧
      c ∉ ['.', 'e', 'E', 'f', 'F'] ∧ c.toLower ≠ 'f' := by decide
  have hall : ∀ c ∈ body ++ suffix, c ∉ ['x', 'X', 'b', 'B'] ∧ c ∉ ['.', 'e', 'E', 'f', 'F'] ∧
      c.toLower ≠ 'f' := by
    intro c hc
    rcases List.mem_append.mp hc with hdigit | hletter
    · exact hdigits c (hbody hdigit)
    · exact hletters suffix hsuffix c hletter
  have hradix : hasRadix (body ++ suffix) = false := hasRadix_eq_false fun c hc => (hall c hc).1
  have hfloating : looksFloating (body ++ suffix) = false :=
    looksFloating_eq_false (fun c hc => (hall c hc).2.1) fun c hc => (hall c hc).2.2
  unfold convertChars
  rw [hradix, hfloating, integerSuffix_append hne
    (fun c hc => integerCharacters_spec c (decimalDigits_subset_integerCharacters (hbody hc)))
    (integerSuffixes_spec suffix hsuffix).1]
  dsimp only
  rw [take_sub_length, keptSuffix]
  cases decimalForm body with
  | error error => rfl
  | ok form => cases keepSuffix <;> simp [Except.map, pure, Except.pure, bind, Except.bind]

/-- What is marked with a radix keeps what is before its suffix. -/
theorem convertChars_radix {body suffix : List Char} (hradix : hasRadix (body ++ suffix) = true)
    (hne : body ≠ []) (hbody : ∀ c ∈ body, isSuffixLetter c = false ∧ c ≠ '\n')
    (hletters : ∀ c ∈ suffix, isSuffixLetter c = true) (keepSuffix : Bool) :
    convertChars (body ++ suffix) keepSuffix = .ok (body ++ keptSuffix keepSuffix suffix) := by
  unfold convertChars
  rw [hradix, integerSuffix_append hne hbody hletters]
  dsimp only
  rw [take_sub_length, keptSuffix]
  cases keepSuffix <;> simp [pure, Except.pure, bind, Except.bind]

/-! ## Integer constants -/

/-- The value of octal digits after others. -/
theorem octalValue_append {digits : List Char} (hdigits : digits ⊆ octalDigits) (n : Nat) :
    digits.foldlM (fun n c =>
      match Text.decimalValue? c with
      | some d => if d < 8 then Except.ok (8 * n + d) else .error Error.notOctal
      | none => .error .notOctal) n
    = .ok (digits.foldl (fun n c => 8 * n + digitValue c) n) := by
  have hvalues : ∀ c ∈ octalDigits, Text.decimalValue? c = some (digitValue c) ∧
      digitValue c < 8 := by decide
  induction digits generalizing n with
  | nil => rfl
  | cons c digits ih =>
    rw [List.cons_subset] at hdigits
    obtain ⟨hvalue, hsmall⟩ := hvalues c hdigits.1
    rw [List.foldlM_cons, List.foldl_cons, hvalue]
    dsimp only
    rw [if_pos hsmall]
    exact ih hdigits.2 _

/-- An octal number is written in decimal, if that is not too long. -/
theorem decimalForm_octal {digits : List Char} (hne : digits ≠ []) (hdigits : digits ⊆ octalDigits) :
    decimalForm ('0' :: digits) =
      if valueIn 8 digits < 10 ^ maxDigits then .ok (Nat.toDigits 10 (valueIn 8 digits))
      else .error .tooLong := by
  have hall : ('0' :: digits).all Text.isDigit = true := by
    have hoctal : ∀ c ∈ octalDigits, Text.isDigit c = true := by decide
    rw [List.all_eq_true]
    intro c hc
    rcases List.mem_cons.mp hc with rfl | hmem
    · decide
    · exact hoctal c (hdigits hmem)
  have hoctal : isOctal ('0' :: digits) = true := by
    have hpos := List.length_pos_iff.mpr hne
    unfold isOctal
    rw [hall]
    simpa using hpos
  have hvalue : octalValue ('0' :: digits) = .ok (valueIn 8 digits) := octalValue_append hdigits 0
  have hlength : (Nat.toDigits 10 (valueIn 8 digits)).length ≤ maxDigits ↔
      valueIn 8 digits < 10 ^ maxDigits := Nat.length_toDigits_le_iff (by decide) (by decide)
  unfold decimalForm
  rw [hoctal, hvalue]
  show (if maxDigits < (Nat.toDigits 10 (valueIn 8 digits)).length then _ else _) = _
  by_cases hsize : valueIn 8 digits < 10 ^ maxDigits
  · rw [if_pos hsize, if_neg (Nat.not_lt.mpr (hlength.mpr hsize))]
    rfl
  · rw [if_neg hsize, if_pos (Nat.lt_of_not_le fun hle => hsize (hlength.mp hle))]

/-- Decimal digits that are no octal number stay as they are. -/
theorem convertChars_of_not_isOctal {body suffix : List Char} (hne : body ≠ [])
    (hbody : body ⊆ decimalDigits) (hoctal : isOctal body = false) (hsuffix : suffix ∈ integerSuffixes)
    (keepSuffix : Bool) :
    convertChars (body ++ suffix) keepSuffix = .ok (body ++ keptSuffix keepSuffix suffix) := by
  rw [convertChars_decimalForm hne hbody hsuffix, decimalForm, hoctal]
  rfl

theorem hasRadix_cons {mark : Char} (h : mark ∈ ['x', 'X', 'b', 'B']) (rest : List Char) :
    hasRadix ('0' :: mark :: rest) = true := by
  have hmarks : ∀ mark ∈ ['x', 'X', 'b', 'B'],
      (mark == 'x' || mark == 'X' || mark == 'b' || mark == 'B') = true := by decide
  exact hmarks mark h

/-- Digits behind the mark of a radix stay as they are. -/
theorem convertChars_marked {mark : Char} {digits suffix : List Char}
    (hmark : mark ∈ ['x', 'X', 'b', 'B']) (hdigits : digits ⊆ hexadecimalDigits)
    (hsuffix : suffix ∈ integerSuffixes) (keepSuffix : Bool) :
    convertChars ('0' :: mark :: digits ++ suffix) keepSuffix
      = .ok ('0' :: mark :: digits ++ keptSuffix keepSuffix suffix) := by
  have hmarks : ∀ mark ∈ ['x', 'X', 'b', 'B'], mark ∈ integerCharacters := by decide
  have hbody : '0' :: mark :: digits ⊆ integerCharacters := by
    rw [List.cons_subset, List.cons_subset]
    exact ⟨by decide, hmarks mark hmark, List.Subset.trans hdigits (List.subset_append_left _ _)⟩
  exact convertChars_radix (hasRadix_cons hmark _) (List.cons_ne_nil _ _)
    (fun c hc => integerCharacters_spec c (hbody hc)) (integerSuffixes_spec suffix hsuffix).1 keepSuffix

/-! ## Floating constants -/

/-- The suffix that is left of one of a floating constant. -/
def targetFloatingSuffix (suffix : List Char) : List Char :=
  if suffix ∈ [['l'], ['L']] then [] else suffix

theorem floatingSuffixes_spec : ∀ suffix ∈ floatingSuffixes,
    (∀ c ∈ suffix, c ∉ ['x', 'X', 'b', 'B']) ∧ targetFloatingSuffix suffix ∈ floatingSuffixes ∧
      targetFloatingSuffix (targetFloatingSuffix suffix) = targetFloatingSuffix suffix := by
  decide

/-- A floating constant keeps everything but the suffix of a `long double`. -/
theorem IsFloating.convertChars {body suffix : List Char} (h : IsFloating body)
    (hsuffix : suffix ∈ floatingSuffixes) :
    convertChars (body ++ suffix) true = .ok (body ++ targetFloatingSuffix suffix) := by
  have hcharacters : ∀ c ∈ floatingCharacters, c ∉ ['x', 'X', 'b', 'B'] ∧ c.toLower ≠ 'l' := by decide
  have hradix : hasRadix (body ++ suffix) = false := by
    refine hasRadix_eq_false fun c hc => ?_
    rcases List.mem_append.mp hc with hmem | hmem
    · exact (hcharacters c (h.subset hmem)).1
    · exact (floatingSuffixes_spec suffix hsuffix).1 c hmem
  have hfloating : looksFloating (body ++ suffix) = true := by
    unfold looksFloating
    rcases h.mark with hmem | hmem | hmem
    · simp [hmem]
    all_goals
      have hletter : (body ++ suffix).any (fun c => c == 'e' || c == 'E') = true :=
        List.any_eq_true.mpr ⟨_, List.mem_append_left suffix hmem, rfl⟩
      rw [hletter, Bool.or_true, Bool.true_or]
  have hbody : endsWith body 'l' = false := by
    unfold endsWith
    cases hlast : body.getLast? with
    | none => rfl
    | some c => simpa using (hcharacters c (h.subset (List.mem_of_getLast? hlast))).2
  unfold Literal.convertChars
  rw [hradix, hfloating]
  show Except.ok (if endsWith (body ++ suffix) 'l' then (body ++ suffix).dropLast else body ++ suffix) = _
  simp only [floatingSuffixes, List.mem_cons, List.not_mem_nil, or_false] at hsuffix
  rcases hsuffix with rfl | rfl | rfl | rfl | rfl
  · rw [List.append_nil, hbody]
    simp [targetFloatingSuffix]
  all_goals simp [endsWith, targetFloatingSuffix]

/-! ## Hexadecimal floating constants -/

/-- What hexadecimal floating constants consist of apart from their mark and suffix. -/
def hexadecimalFloatingCharacters : List Char := hexadecimalDigits ++ ['.', 'p', 'P', '+', '-']

theorem IsBinaryExponent.subset {exponent : List Char} (h : IsBinaryExponent exponent) :
    exponent ⊆ hexadecimalFloatingCharacters := by
  obtain ⟨hletter, hsign, -, hdigits⟩ := h
  have hletters : ['p', 'P'] ⊆ hexadecimalFloatingCharacters := by decide
  have hsigns : ∀ sign ∈ [[], ['+'], ['-']], sign ⊆ hexadecimalFloatingCharacters := by decide
  have hdecimal : decimalDigits ⊆ hexadecimalFloatingCharacters := by decide
  rw [List.cons_subset, List.append_subset]
  exact ⟨hletters hletter, hsigns _ hsign, List.Subset.trans hdigits hdecimal⟩

/-- Behind its mark a hexadecimal floating constant is a run of digits and points and an exponent. -/
theorem eq_cons_of_isHexadecimalFloating {body : List Char} (h : IsHexadecimalFloating body) :
    ∃ mark run exponent, mark ∈ ['x', 'X'] ∧ body = '0' :: mark :: (run ++ exponent) ∧
      run ⊆ '.' :: hexadecimalDigits ∧ IsBinaryExponent exponent := by
  have hdigits : hexadecimalDigits ⊆ '.' :: hexadecimalDigits := List.subset_cons_self _ _
  cases h with
  | @pointed mark whole fraction exponent hmark _ hwhole hfraction hexponent =>
    refine ⟨mark, whole ++ '.' :: fraction, exponent, hmark, by simp, ?_, hexponent⟩
    rw [List.append_subset, List.cons_subset]
    exact ⟨List.Subset.trans hwhole hdigits, List.mem_cons_self .., List.Subset.trans hfraction hdigits⟩
  | scaled hmark _ hwhole hexponent =>
    exact ⟨_, _, _, hmark, rfl, List.Subset.trans hwhole hdigits, hexponent⟩

theorem IsHexadecimalFloating.subset {body : List Char} (h : IsHexadecimalFloating body) :
    body ⊆ ['x', 'X'] ++ hexadecimalFloatingCharacters := by
  obtain ⟨mark, run, exponent, hmark, rfl, hrun, hexponent⟩ := eq_cons_of_isHexadecimalFloating h
  have hpoints : '.' :: hexadecimalDigits ⊆ hexadecimalFloatingCharacters := by decide
  rw [List.cons_subset, List.cons_subset, List.append_subset]
  exact ⟨by decide, List.mem_append_left _ hmark,
    List.subset_append_of_subset_right _ (List.Subset.trans hrun hpoints),
    List.subset_append_of_subset_right _ hexponent.subset⟩

/-- The suffixes that are left of those of hexadecimal floating constants. -/
def hexadecimalFloatingSuffixes : List (List Char) := [[], ['f'], ['F'], ['L']]

/-- A hexadecimal floating constant is taken for an integer, which makes no difference but for the suffix
of a `long double`. -/
theorem convertChars_hexadecimal {body suffix : List Char} (h : IsHexadecimalFloating body)
    (hsuffix : suffix ∈ floatingSuffixes) :
    ∃ letters ∈ hexadecimalFloatingSuffixes, convertChars (body ++ suffix) true = .ok (body ++ letters) ∧
      convertChars (body ++ letters) true = .ok (body ++ letters) := by
  have hplain : ∀ c ∈ ['x', 'X'] ++ hexadecimalFloatingCharacters, isSuffixLetter c = false ∧ c ≠ '\n' := by
    decide
  have hbody : ∀ c ∈ body, isSuffixLetter c = false ∧ c ≠ '\n' := fun c hc => hplain c (h.subset hc)
  have hne : body ≠ [] := by
    obtain ⟨mark, run, exponent, -, rfl, -⟩ := eq_cons_of_isHexadecimalFloating h
    exact List.cons_ne_nil _ _
  have hradix : ∀ rest, hasRadix (body ++ rest) = true := by
    obtain ⟨mark, run, exponent, hmark, rfl, -⟩ := eq_cons_of_isHexadecimalFloating h
    exact fun _ => hasRadix_cons (List.mem_append_left ['b', 'B'] hmark) _
  have hnone : convertChars (body ++ []) true = .ok (body ++ []) :=
    convertChars_radix (hradix _) hne hbody (by decide) true
  -- the suffix of a `float` is no integer suffix and so counts as a digit
  have hfloat : ∀ letter ∈ ['f', 'F'], convertChars (body ++ [letter]) true = .ok (body ++ [letter]) := by
    intro letter hletter
    have hletters : ∀ c ∈ ['f', 'F'], isSuffixLetter c = false ∧ c ≠ '\n' := by decide
    have hplainLetter : ∀ c ∈ body ++ [letter], isSuffixLetter c = false ∧ c ≠ '\n' := by
      rw [List.forall_mem_append, List.forall_mem_singleton]
      exact ⟨hbody, hletters letter hletter⟩
    have hradixLetter : hasRadix (body ++ [letter] ++ []) = true := by
      rw [List.append_nil]
      exact hradix [letter]
    have hconvert := convertChars_radix hradixLetter (by simp) hplainLetter (by simp) true
    simpa [keptSuffix, targetSuffix] using hconvert
  have hlong : ∀ letter ∈ ['l', 'L'], convertChars (body ++ [letter]) true = .ok (body ++ ['L']) := by
    have hletters : ∀ letter ∈ ['l', 'L'], (∀ c ∈ [letter], isSuffixLetter c = true) ∧
        keptSuffix true [letter] = ['L'] := by decide
    intro letter hletter
    rw [convertChars_radix (hradix _) hne hbody (hletters letter hletter).1 true,
      (hletters letter hletter).2]
  simp only [floatingSuffixes, List.mem_cons, List.not_mem_nil, or_false] at hsuffix
  rcases hsuffix with rfl | rfl | rfl | rfl | rfl
  · exact ⟨[], by decide, hnone, hnone⟩
  · exact ⟨['f'], by decide, hfloat 'f' (by decide), hfloat 'f' (by decide)⟩
  · exact ⟨['F'], by decide, hfloat 'F' (by decide), hfloat 'F' (by decide)⟩
  · exact ⟨['L'], by decide, hlong 'l' (by decide), hlong 'L' (by decide)⟩
  · exact ⟨['L'], by decide, hlong 'L' (by decide), hlong 'L' (by decide)⟩

end CInterop.Macro.Literal
