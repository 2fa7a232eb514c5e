import CInterop.Proofs.Macro.Literal
import Mathlib.Data.List.Induction

/-!
# The value of integer constants

An integer constant of C stands for the number of its digits in the base of its beginning: a leading zero
alone makes it octal. In the target a leading zero means nothing, and only the marks of the hexadecimal and
binary bases are known. The counterpart of a constant stands there for the same number.

The one exception are octal constants that are too long to be written in decimal. Constants in the other
bases are copied, so that none of them is too long.
-/

namespace CInterop.Macro.Literal

/-! ## What digits stand for -/

theorem digitValue_decimal {c : Char} (h : c ∈ decimalDigits) : digitValue c = c.toNat - '0'.toNat :=
  if_pos h

/-- Decimal digits have the value that they have as characters. -/
theorem foldl_digitValue {base : Nat} {digits : List Char} (h : digits ⊆ decimalDigits) (n : Nat) :
    digits.foldl (fun n c => base * n + digitValue c) n =
      digits.foldl (fun n c => base * n + (c.toNat - '0'.toNat)) n := by
  induction digits generalizing n with
  | nil => rfl
  | cons c digits ih =>
    rw [List.cons_subset] at h
    rw [List.foldl_cons, List.foldl_cons, digitValue_decimal h.1, ih h.2]

theorem toDigits_subset (n : Nat) : Nat.toDigits 10 n ⊆ decimalDigits := fun _ hc =>
  mem_decimalDigits (Nat.isDigit_of_mem_toDigits (by decide) (by decide) hc)

/-- What a number is written as stands for it. -/
theorem valueIn_toDigits (n : Nat) : valueIn 10 (Nat.toDigits 10 n) = n := by
  rw [valueIn, foldl_digitValue (toDigits_subset n), ← Nat.ofDigitChars_eq_foldl,
    Nat.ofDigitChars_ten_toDigits]

/-! ## Constants and their values -/

/-- The text is an integer literal of the target without its suffix, and this is its value there. -/
inductive TargetDenotes : List Char → Nat → Prop where
  | decimal {digits : List Char} : digits ≠ [] → digits ⊆ decimalDigits →
      TargetDenotes digits (valueIn 10 digits)
  | hexadecimal {mark : Char} {digits : List Char} : mark ∈ ['x', 'X'] → digits ≠ [] →
      digits ⊆ hexadecimalDigits → TargetDenotes ('0' :: mark :: digits) (valueIn 16 digits)
  | binary {mark : Char} {digits : List Char} : mark ∈ ['b', 'B'] → digits ≠ [] →
      digits ⊆ binaryDigits → TargetDenotes ('0' :: mark :: digits) (valueIn 2 digits)

/-- A literal of the target has one value. -/
theorem TargetDenotes.unique {cs : List Char} {n m : Nat} (h : TargetDenotes cs n)
    (h' : TargetDenotes cs m) : n = m := by
  have hmarks : ∀ mark ∈ ['x', 'X', 'b', 'B'], mark ∉ decimalDigits := by decide
  have hbases : ∀ mark ∈ ['x', 'X'], mark ∉ ['b', 'B'] := by decide
  cases h with
  | decimal _ hdigits =>
    cases h' with
    | decimal => rfl
    | hexadecimal hmark =>
      exact absurd (hdigits (by simp)) (hmarks _ (List.mem_append_left ['b', 'B'] hmark))
    | binary hmark =>
      exact absurd (hdigits (by simp)) (hmarks _ (List.mem_append_right ['x', 'X'] hmark))
  | hexadecimal hmark =>
    cases h' with
    | decimal _ hdigits =>
      exact absurd (hdigits (by simp)) (hmarks _ (List.mem_append_left ['b', 'B'] hmark))
    | hexadecimal => rfl
    | binary hmark' => exact absurd hmark' (hbases _ hmark)
  | binary hmark =>
    cases h' with
    | decimal _ hdigits =>
      exact absurd (hdigits (by simp)) (hmarks _ (List.mem_append_right ['x', 'X'] hmark))
    | hexadecimal hmark' => exact absurd hmark (hbases _ hmark')
    | binary => rfl

/-- The constant is octal, and the decimal form of its value is longer than is written. -/
def IsOverlong (body : List Char) : Prop :=
  ∃ digits, body = '0' :: digits ∧ digits ⊆ octalDigits ∧ 10 ^ maxDigits ≤ valueIn 8 digits

/-- The suffix of the target has a letter for each of the two things that a suffix of C can say. -/
structure Carries (suffix letters : List Char) : Prop where
  known : letters ∈ [[], ['U'], ['L'], ['U', 'L']]
  unsigned : 'U' ∈ letters ↔ 'u' ∈ suffix ∨ 'U' ∈ suffix
  long : 'L' ∈ letters ↔ 'l' ∈ suffix ∨ 'L' ∈ suffix

theorem carries_targetSuffix {suffix : List Char} (h : suffix ∈ integerSuffixes) :
    Carries suffix (targetSuffix suffix) := by
  have hall : ∀ suffix ∈ integerSuffixes, targetSuffix suffix ∈ [[], ['U'], ['L'], ['U', 'L']] ∧
      ('U' ∈ targetSuffix suffix ↔ 'u' ∈ suffix ∨ 'U' ∈ suffix) ∧
      ('L' ∈ targetSuffix suffix ↔ 'l' ∈ suffix ∨ 'L' ∈ suffix) := by decide
  obtain ⟨hknown, hunsigned, hlong⟩ := hall suffix h
  exact ⟨hknown, hunsigned, hlong⟩

/-! ## Counterparts -/

/-- The form has the value, and if it is decimal, no zero stands in front of it without need. -/
structure IsFormOf (n : Nat) (form : List Char) : Prop where
  value : TargetDenotes form n
  noZero : form ⊆ decimalDigits → form.head? = some '0' → form = ['0']

theorem isFormOf_decimal {first : Char} {digits : List Char} (hfirst : first ∈ decimalDigits)
    (hne : first ≠ '0') (hdigits : digits ⊆ decimalDigits) :
    IsFormOf (valueIn 10 (first :: digits)) (first :: digits) where
  value := .decimal (List.cons_ne_nil _ _) (List.cons_subset.mpr ⟨hfirst, hdigits⟩)
  noZero := fun _ hzero => absurd (Option.some.inj hzero) hne

/-- What a number is written as is a form of it. -/
theorem isFormOf_toDigits (n : Nat) : IsFormOf n (Nat.toDigits 10 n) where
  value := by
    have hdenotes := TargetDenotes.decimal Nat.toDigits_ne_nil (toDigits_subset n)
    rwa [valueIn_toDigits] at hdenotes
  noZero := by
    intro _ hzero
    by_cases hn : n = 0
    · subst hn
      exact Nat.toDigits_zero 10
    · exact absurd hzero (Json.head?_toDigits_ne_zero (Nat.pos_of_ne_zero hn))

/-- Behind the mark of a base no zero is superfluous. -/
theorem isFormOf_marked {mark : Char} {digits : List Char} {n : Nat} (hmark : mark ∈ ['x', 'X', 'b', 'B'])
    (hvalue : TargetDenotes ('0' :: mark :: digits) n) : IsFormOf n ('0' :: mark :: digits) where
  value := hvalue
  noZero := by
    intro hsubset _
    have hmarks : ∀ mark ∈ ['x', 'X', 'b', 'B'], mark ∉ decimalDigits := by decide
    exact absurd (hsubset (List.mem_cons_of_mem _ (List.mem_cons_self ..))) (hmarks mark hmark)

/-- A form is an integer constant of C with the same value, and it is not overlong. -/
theorem IsFormOf.denotes {form : List Char} {n : Nat} (h : IsFormOf n form) :
    Denotes form n ∧ ¬ IsOverlong form := by
  have hmarks : ∀ mark ∈ ['x', 'X', 'b', 'B'], mark ∉ octalDigits := by decide
  obtain ⟨hvalue, hzero⟩ := h
  cases hvalue with
  | decimal hne hdigits =>
    by_cases hfirst : form.head? = some '0'
    · -- a zero alone is octal in C
      obtain rfl := hzero hdigits hfirst
      refine ⟨.octal (List.nil_subset _), ?_⟩
      rintro ⟨others, hcons, -, hlong⟩
      obtain rfl := (List.cons.inj hcons).2
      exact absurd hlong (Nat.not_le_of_lt (Nat.pow_pos (by decide)))
    · cases form with
      | nil => exact absurd rfl hne
      | cons first rest =>
        have hfirst' : first ≠ '0' := by simpa using hfirst
        obtain ⟨hmem, hrest⟩ := List.cons_subset.mp hdigits
        refine ⟨.decimal hmem hfirst' hrest, ?_⟩
        rintro ⟨others, hcons, -⟩
        exact hfirst' (List.cons.inj hcons).1
  | hexadecimal hmark hne hdigits =>
    refine ⟨.hexadecimal hmark hne hdigits, ?_⟩
    rintro ⟨others, hcons, hoctal, -⟩
    obtain rfl := (List.cons.inj hcons).2
    exact hmarks _ (List.mem_append_left ['b', 'B'] hmark) (hoctal (List.mem_cons_self ..))
  | binary hmark hne hdigits =>
    refine ⟨.binary hmark hne hdigits, ?_⟩
    rintro ⟨others, hcons, hoctal, -⟩
    obtain rfl := (List.cons.inj hcons).2
    exact hmarks _ (List.mem_append_right ['x', 'X'] hmark) (hoctal (List.mem_cons_self ..))

/-- A form stays as it is. -/
theorem IsFormOf.convertChars {form suffix : List Char} {n : Nat} (h : IsFormOf n form)
    (hsuffix : suffix ∈ integerSuffixes) (keepSuffix : Bool) :
    convertChars (form ++ suffix) keepSuffix = .ok (form ++ keptSuffix keepSuffix suffix) := by
  obtain ⟨hvalue, hzero⟩ := h
  cases hvalue with
  | decimal hne hdigits =>
    refine convertChars_of_not_isOctal hne hdigits ?_ hsuffix keepSuffix
    by_cases hfirst : form.head? = some '0'
    · obtain rfl := hzero hdigits hfirst
      rfl
    · simp [isOctal, hfirst]
  | hexadecimal hmark _ hdigits =>
    exact convertChars_marked (List.mem_append_left ['b', 'B'] hmark) hdigits hsuffix keepSuffix
  | binary hmark _ hdigits =>
    exact convertChars_marked (List.mem_append_right ['x', 'X'] hmark)
      (List.Subset.trans hdigits binaryDigits_subset) hsuffix keepSuffix

/-- An integer constant that is not overlong keeps its value, and what its suffix says is kept apart. -/
theorem Denotes.convertChars {body suffix : List Char} {n : Nat} (h : Denotes body n)
    (hfits : ¬ IsOverlong body) (hsuffix : suffix ∈ integerSuffixes) (keepSuffix : Bool) :
    ∃ form, IsFormOf n form ∧
      convertChars (body ++ suffix) keepSuffix = .ok (form ++ keptSuffix keepSuffix suffix) := by
  cases h with
  | decimal hfirst hne hdigits =>
    have hform := isFormOf_decimal hfirst hne hdigits
    exact ⟨_, hform, hform.convertChars hsuffix keepSuffix⟩
  | @octal digits hdigits =>
    have hform := isFormOf_toDigits (valueIn 8 digits)
    refine ⟨_, hform, ?_⟩
    by_cases hempty : digits = []
    · -- a zero alone is decimal in the target and octal in C, which makes no difference
      subst hempty
      exact hform.convertChars hsuffix keepSuffix
    · have hsize : valueIn 8 digits < 10 ^ maxDigits :=
        Nat.lt_of_not_le fun hlong => hfits ⟨digits, rfl, hdigits, hlong⟩
      have hplain : '0' :: digits ⊆ decimalDigits :=
        List.cons_subset.mpr ⟨by decide, List.Subset.trans hdigits octalDigits_subset⟩
      rw [convertChars_decimalForm (List.cons_ne_nil _ _) hplain hsuffix,
        decimalForm_octal hempty hdigits, if_pos hsize]
      rfl
  | hexadecimal hmark hne hdigits =>
    have hform := isFormOf_marked (List.mem_append_left ['b', 'B'] hmark)
      (.hexadecimal hmark hne hdigits)
    exact ⟨_, hform, hform.convertChars hsuffix keepSuffix⟩
  | binary hmark hne hdigits =>
    have hform := isFormOf_marked (List.mem_append_right ['x', 'X'] hmark) (.binary hmark hne hdigits)
    exact ⟨_, hform, hform.convertChars hsuffix keepSuffix⟩

/-- An overlong constant has no counterpart. -/
theorem convertChars_overlong {body suffix : List Char} (h : IsOverlong body)
    (hsuffix : suffix ∈ integerSuffixes) (keepSuffix : Bool) :
    convertChars (body ++ suffix) keepSuffix = .error .tooLong := by
  obtain ⟨digits, rfl, hdigits, hlong⟩ := h
  have hempty : digits ≠ [] := by
    rintro rfl
    exact absurd hlong (Nat.not_le_of_lt (Nat.pow_pos (by decide)))
  have hplain : '0' :: digits ⊆ decimalDigits :=
    List.cons_subset.mpr ⟨by decide, List.Subset.trans hdigits octalDigits_subset⟩
  rw [convertChars_decimalForm (List.cons_ne_nil _ _) hplain hsuffix, decimalForm_octal hempty hdigits,
    if_neg (Nat.not_lt.mpr hlong)]
  rfl

/-- The counterpart of an integer constant has the value of the constant, and the suffix that says the
same if suffixes are kept and none otherwise. Only an octal constant that is too long has none. -/
theorem convert_denotes {body suffix : List Char} {n : Nat} (h : Denotes body n)
    (hsuffix : suffix ∈ integerSuffixes) (keepSuffix : Bool) :
    (IsOverlong body → convert (String.ofList (body ++ suffix)) keepSuffix = .error .tooLong) ∧
    (¬ IsOverlong body → ∃ digits letters,
      convert (String.ofList (body ++ suffix)) keepSuffix = .ok (String.ofList (digits ++ letters)) ∧
      TargetDenotes digits n ∧
      (digits ⊆ decimalDigits → digits.head? = some '0' → digits = ['0']) ∧
      (keepSuffix = true → Carries suffix letters) ∧ (keepSuffix = false → letters = [])) := by
  rw [convert, String.toList_ofList]
  refine ⟨fun hlong => ?_, fun hfits => ?_⟩
  · rw [convertChars_overlong hlong hsuffix]
    rfl
  · obtain ⟨form, hform, hconvert⟩ := h.convertChars hfits hsuffix keepSuffix
    refine ⟨form, keptSuffix keepSuffix suffix, ?_, hform.value, hform.noZero, ?_, ?_⟩
    · rw [hconvert]
      rfl
    · rintro rfl
      exact carries_targetSuffix hsuffix
    · rintro rfl
      rfl

/-- An octal constant with a suffix of both kinds. -/
theorem convert_denotes_fifteen :
    Denotes ['0', '1', '7'] 15 ∧ ¬ IsOverlong ['0', '1', '7'] ∧ ['u', 'L', 'L'] ∈ integerSuffixes ∧
    ∃ digits letters, convert "017uLL" true = .ok (String.ofList (digits ++ letters)) ∧
      TargetDenotes digits 15 ∧ Carries ['u', 'L', 'L'] letters := by
  have hdenotes : Denotes ['0', '1', '7'] 15 := .octal (by decide)
  have hfits : ¬ IsOverlong ['0', '1', '7'] := by
    rintro ⟨digits, hcons, -, hlong⟩
    obtain rfl := (List.cons.inj hcons).2
    exact absurd hlong (Nat.not_le_of_lt (Nat.lt_of_lt_of_le (by decide : valueIn 8 ['1', '7'] < 10 ^ 2)
      (Nat.pow_le_pow_right (by decide) (by decide))))
  have hsuffix : ['u', 'L', 'L'] ∈ integerSuffixes := by decide
  obtain ⟨digits, letters, hconvert, hvalue, -, hcarries, -⟩ :=
    (convert_denotes hdenotes hsuffix true).2 hfits
  exact ⟨hdenotes, hfits, hsuffix, digits, letters, hconvert, hvalue, hcarries rfl⟩

/-- Octal digits stand for less than the power of eight with as many digits. -/
theorem valueIn_octal_lt {digits : List Char} (h : digits ⊆ octalDigits) :
    valueIn 8 digits < 8 ^ digits.length := by
  have hsmall : ∀ c ∈ octalDigits, digitValue c < 8 := by decide
  induction digits using List.reverseRecOn with
  | nil => decide
  | append_singleton digits c ih =>
    rw [List.append_subset, List.cons_subset] at h
    have hlast := hsmall c h.2.1
    have hfront := ih h.1
    have happend : valueIn 8 (digits ++ [c]) = 8 * valueIn 8 digits + digitValue c := by
      rw [valueIn, List.foldl_append]
      rfl
    rw [happend, List.length_append, List.length_singleton, Nat.pow_succ]
    omega

/-- An overlong constant has more octal digits than its value may have decimal ones. -/
theorem IsOverlong.length {body : List Char} (h : IsOverlong body) : maxDigits < body.length := by
  obtain ⟨digits, rfl, hdigits, hlong⟩ := h
  have hless : 10 ^ maxDigits < 10 ^ digits.length :=
    Nat.lt_of_le_of_lt hlong (Nat.lt_of_lt_of_le (valueIn_octal_lt hdigits)
      (Nat.pow_le_pow_left (by decide) _))
  have hlength := (Nat.pow_lt_pow_iff_right (by decide)).mp hless
  rw [List.length_cons]
  omega

end CInterop.Macro.Literal
