import CInterop.Json.Parser
import CInterop.Json.Printer
import Mathlib.Data.List.TakeDrop

/-!
# Written strings and integers are read back

What the writer puts down for a text or an integer is read as that text or integer, whatever follows
it: a string ends at its closing quote, and an integer where no digit, point or exponent follows. An escape
is read as the character that it stands for, unless it stands for half of one.
-/

namespace CInterop

-- Facts about the characters of a list are decided on that list. Mathlib as a whole brings an instance
-- that goes through all characters there are, and that one must not come first.
attribute [scoped instance (high)] List.decidableBAll

namespace Json

/-! ## Strings -/

/-- The writer's hexadecimal digits have the value that they were made from. -/
theorem hexValue?_digitChar : ∀ d < 16, hexValue? (Nat.digitChar d) = some d := by decide

/-- Four digits of an escape below 256 are read back, as long as something follows them. -/
theorem hex4?_hexByte {n : Nat} (hn : n < 256) {rest : List Char} (hrest : rest ≠ []) :
    hex4? ('0' :: '0' :: (hexByte n ++ rest)) = some (n, rest) := by
  have hzero : hexValue? '0' = some 0 := by decide
  have hhigh := hexValue?_digitChar (n / 16 % 16) (Nat.mod_lt _ (by decide))
  have hlow := hexValue?_digitChar (n % 16) (Nat.mod_lt _ (by decide))
  have hvalue : ((0 * 16 + 0) * 16 + n / 16 % 16) * 16 + n % 16 = n := by omega
  simp only [hexByte, List.cons_append, List.nil_append, hex4?]
  rw [if_neg (by simpa using hrest), hzero, hhigh, hlow]
  exact congrArg (fun m => some (m, rest)) hvalue

/-- A control character written as an escape is read back. -/
theorem unicodeEscape_hexByte {c : Char} (hc : c.toNat < 0x20) {rest : List Char} (hrest : rest ≠ []) :
    unicodeEscape ('u' :: '0' :: '0' :: (hexByte c.toNat ++ rest)) = .ok (c, rest) := by
  have hunit : unitChar c.toNat = c := by
    have hhigh : isHighSurrogate c.toNat = false := by simp [isHighSurrogate]; omega
    have hlow : isLowSurrogate c.toNat = false := by simp [isLowSurrogate]; omega
    simp [unitChar, hhigh, hlow]
  have hhigh : isHighSurrogate c.toNat = false := by simp [isHighSurrogate]; omega
  unfold unicodeEscape
  simp only [List.drop_succ_cons, List.drop_zero, hex4?_hexByte (Nat.lt_trans hc (by decide)) hrest]
  split
  · rw [hhigh, Bool.false_and, if_neg (by decide), hunit]
  · rw [hunit]

/-- One step of the reader takes a whole written character, as long as the string goes on. -/
theorem stringBody_escapeChar (opening : List Char) (n : Nat) (before : List Char) (c : Char)
    {rest : List Char} (hrest : rest ≠ []) :
    stringBody opening (n + 1) before (escapeChar c ++ rest)
      = stringBody opening n (c :: before) rest := by
  unfold escapeChar
  split
  case h_8 =>
    by_cases hc : c.toNat < 0x20
    · rw [if_pos hc]
      simp only [List.cons_append, List.nil_append, stringBody, unicodeEscape_hexByte hc hrest]
    · rw [if_neg hc, List.singleton_append, stringBody]
      · rw [if_neg (by omega)]
      all_goals simp_all
  all_goals rfl

/-- The reader takes the characters of a written text up to the closing quote. -/
theorem stringBody_flatMap (opening : List Char) (cs rest : List Char) :
    ∀ (n : Nat) (before : List Char), cs.length < n →
      stringBody opening n before (cs.flatMap escapeChar ++ '"' :: rest)
        = .ok (String.ofList (before.reverse ++ cs), rest) := by
  induction cs with
  | nil =>
    intro n before hn
    obtain ⟨n, rfl⟩ := Nat.exists_eq_succ_of_ne_zero (Nat.ne_of_gt hn)
    simp [stringBody]
  | cons c cs ih =>
    intro n before hn
    obtain ⟨n, rfl⟩ := Nat.exists_eq_succ_of_ne_zero (Nat.ne_of_gt (Nat.zero_lt_of_lt hn))
    rw [List.flatMap_cons, List.append_assoc, stringBody_escapeChar _ _ _ _ (by simp),
      ih n (c :: before) (by simpa using hn)]
    simp

/-- No character is written as nothing. -/
theorem length_le_flatMap_escapeChar (cs : List Char) :
    cs.length ≤ (cs.flatMap escapeChar).length := by
  induction cs with
  | nil => simp
  | cons c cs ih =>
    have hc : 1 ≤ (escapeChar c).length := by
      unfold escapeChar
      split <;> (try split) <;> simp
    rw [List.flatMap_cons, List.length_append, List.length_cons]
    omega

/-- A written string is read back. -/
theorem string_escaped (text : String) (rest : List Char) :
    string (text.toList.flatMap escapeChar ++ '"' :: rest) = .ok (text, rest) := by
  have hlength := length_le_flatMap_escapeChar text.toList
  rw [string, stringBody_flatMap _ _ _ _ _ (by rw [List.length_append]; omega)]
  simp

/-! ## Halves of surrogate pairs

The reader puts something in the place of half a pair. A text in which `hasHalfPair` finds none is read
without that, escape by escape.
-/

/-- The character is that of a code unit that stands alone or of a whole pair. -/
inductive IsEscaped (c : Char) : Prop where
  | unit (n : Nat) (high : isHighSurrogate n = false) (low : isLowSurrogate n = false)
      (char : c = Char.ofNat n)
  | pair (high low : Nat) (first : isHighSurrogate high = true) (second : isLowSurrogate low = true)
      (char : c = pairChar high low)

theorem eq_cons_of_hex4? {cs rest : List Char} {n : Nat} (h : hex4? cs = some (n, rest)) :
    (∃ a b c d, cs = a :: b :: c :: d :: rest) ∧ rest ≠ [] := by
  unfold hex4? at h
  split at h
  · rename_i a b c d rest'
    split at h
    · cases h
    · rename_i hempty
      simp only [Option.bind_eq_bind, Option.bind_eq_some_iff] at h
      obtain ⟨_, -, _, -, _, -, _, -, heq⟩ := h
      cases heq
      exact ⟨⟨a, b, c, d, rfl⟩, by simpa using hempty⟩
  · cases h

theorem hasHalfPair_escape {digits rest : List Char} {unit : Nat} (h : hex4? digits = some (unit, rest))
    (pending : Bool) :
    hasHalfPair pending ('\\' :: 'u' :: digits) =
      if isLowSurrogate unit then !pending || hasHalfPair false rest
      else pending || hasHalfPair (isHighSurrogate unit) rest := by
  obtain ⟨⟨_, _, _, _, rfl⟩, -⟩ := eq_cons_of_hex4? h
  rw [hasHalfPair, h]
  rfl

/-- Behind the first half of a pair the second one follows at once. -/
theorem low_of_hasHalfPair {cs : List Char} (h : hasHalfPair true cs = false) :
    ∃ digits low rest, cs = '\\' :: 'u' :: digits ∧ hex4? digits = some (low, rest) ∧
      isLowSurrogate low = true ∧ hasHalfPair false rest = false := by
  unfold hasHalfPair at h
  split at h
  · rename_i a b c d rest
    dsimp only at h
    split at h
    · rename_i hlow
      rw [Bool.not_true, Bool.false_or] at h
      cases hdigits : hex4? (a :: b :: c :: d :: rest) with
      | none =>
        rw [hdigits] at hlow
        cases hlow
      | some found =>
        obtain ⟨low, rest'⟩ := found
        rw [hdigits] at hlow
        obtain ⟨⟨_, _, _, _, heq⟩, -⟩ := eq_cons_of_hex4? hdigits
        cases heq
        exact ⟨_, low, rest, rfl, hdigits, hlow, h⟩
    · cases h
  · cases h
  · cases h
  · cases h

/-- In a text without half a pair, an escape is read as the character that it stands for. -/
theorem unicodeEscape_exact {c : Char} {digits rest : List Char}
    (hwhole : hasHalfPair false ('\\' :: 'u' :: digits) = false)
    (h : unicodeEscape ('u' :: digits) = .ok (c, rest)) :
    IsEscaped c ∧ hasHalfPair false rest = false := by
  unfold unicodeEscape at h
  rw [List.drop_succ_cons, List.drop_zero] at h
  cases hdigits : hex4? digits with
  | none =>
    rw [hdigits] at h
    cases h
  | some found =>
    obtain ⟨unit, after⟩ := found
    rw [hasHalfPair_escape hdigits] at hwhole
    rw [hdigits] at h
    dsimp only at h
    by_cases hlow : isLowSurrogate unit = true
    · rw [if_pos hlow] at hwhole
      cases hwhole
    · rw [if_neg hlow, Bool.false_or] at hwhole
      cases hhigh : isHighSurrogate unit with
      | false =>
        have halone : (Except.ok (unitChar unit, after) : Except Failure _) = .ok (c, rest) := by
          rw [hhigh] at h
          split at h <;> exact h
        obtain ⟨rfl, rfl⟩ := Prod.mk.inj (Except.ok.inj halone)
        rw [hhigh] at hwhole
        refine ⟨.unit unit hhigh (by simpa using hlow) ?_, hwhole⟩
        simp [unitChar, hhigh, hlow]
      | true =>
        rw [hhigh] at hwhole
        obtain ⟨digits', low, rest', rfl, hsecond, hlow', hrest⟩ := low_of_hasHalfPair hwhole
        have hlength : 4 < digits'.length := by
          obtain ⟨⟨_, _, _, _, rfl⟩, hne⟩ := eq_cons_of_hex4? hsecond
          have hpos := List.length_pos_iff.mpr hne
          simp only [List.length_cons]
          omega
        rw [hhigh] at h
        simp only [hlength, decide_true, Bool.and_self, if_true, hsecond, hlow'] at h
        obtain ⟨rfl, rfl⟩ := Prod.mk.inj (Except.ok.inj h)
        exact ⟨.pair unit low hhigh hlow' rfl, hrest⟩

/-! ## Integers -/

/-- Whether the text begins with something that a number in front of it would take in. -/
def continuesNumber : List Char → Bool
  | [] => false
  | c :: _ => c.isDigit || c == '.' || c == 'e' || c == 'E'

/-- Whether an integer has few enough digits for the reader. -/
def IsShort (n : Int) : Prop := (Nat.toDigits 10 n.natAbs).length ≤ maxIntegerDigits

instance (n : Int) : Decidable (IsShort n) := inferInstanceAs (Decidable (_ ≤ _))

/-- A power of ten has more digits than its exponent. -/
theorem not_isShort_pow : ¬ IsShort (Int.ofNat (Nat.pow 10 maxIntegerDigits)) := by
  have hlong : ∀ k, 0 < k → ¬ (Nat.toDigits 10 (Nat.pow 10 k)).length ≤ k := by
    intro k hk h
    rw [Nat.length_toDigits_le_iff (by decide) hk] at h
    exact absurd h (Nat.lt_irrefl _)
  unfold IsShort
  rw [Int.ofNat_eq_natCast, Int.natAbs_natCast]
  exact hlong _ (by decide)

theorem digitsValue_eq_ofDigitChars (cs : List Char) : digitsValue cs = Nat.ofDigitChars 10 cs 0 := by
  rw [digitsValue, Nat.ofDigitChars_eq_foldl]

theorem digitsValue_toDigits (n : Nat) : digitsValue (Nat.toDigits 10 n) = n := by
  rw [digitsValue_eq_ofDigitChars, Nat.ofDigitChars_ten_toDigits]

theorem fraction?_eq_none {rest : List Char} (h : continuesNumber rest = false) :
    fraction? rest = none := by
  unfold fraction?
  split
  · simp [continuesNumber] at h
  · rfl

theorem exponent?_eq_none {rest : List Char} (h : continuesNumber rest = false) :
    exponent? rest = none := by
  cases rest with
  | nil => rfl
  | cons c rest =>
    simp only [continuesNumber, Bool.or_eq_false_iff] at h
    unfold exponent?
    exact if_neg (by simp [h])

/-- A run of characters of one sort is taken as a whole in front of a character of another. -/
theorem span_append {α : Type} {p : α → Bool} {ds rest : List α} (hds : ∀ c ∈ ds, p c = true)
    (hrest : ∀ c ∈ rest.head?, p c = false) : (ds ++ rest).span p = (ds, rest) := by
  rw [List.span_eq_takeWhile_dropWhile, List.takeWhile_append_of_pos hds,
    List.dropWhile_append_of_pos hds]
  cases rest with
  | nil => rw [List.takeWhile_nil, List.dropWhile_nil, List.append_nil]
  | cons c rest =>
    have hc : ¬ p c = true := by simp [hrest c rfl]
    rw [List.takeWhile_cons_of_neg hc, List.dropWhile_cons_of_neg hc, List.append_nil]

/-- The run of digits in front of something else is taken as a whole. -/
theorem digits_append {ds rest : List Char} (hds : ∀ c ∈ ds, c.isDigit = true)
    (hrest : continuesNumber rest = false) : digits (ds ++ rest) = (ds, rest) := by
  have hstop : ∀ c ∈ rest.head?, c.isDigit = false := by
    cases rest with
    | nil => simp
    | cons c rest => simp_all [continuesNumber]
  exact span_append hds hstop

/-- A number without fraction and exponent is an integer, if it is short enough. -/
theorem unsignedNumber_digits (negative : Bool) (start : List Char) (n : Nat) {rest : List Char}
    (hrest : continuesNumber rest = false) :
    unsignedNumber negative start (Nat.toDigits 10 n) rest
      = if IsShort n then .ok (.int (if negative then -(n : Int) else n), rest)
        else fail .tooManyDigits start := by
  have hiff : IsShort n ↔ (Nat.toDigits 10 n).length ≤ maxIntegerDigits := by
    unfold IsShort
    rw [Int.natAbs_natCast]
  unfold unsignedNumber
  rw [fraction?_eq_none hrest]
  simp only [Option.elim_none, exponent?_eq_none hrest, digitsValue_toDigits]
  by_cases hshort : IsShort n
  · have hle := hiff.mp hshort
    rw [if_pos hshort, if_neg (by omega)]
  · have hlt := mt hiff.mpr hshort
    rw [if_neg hshort, if_pos (by omega)]

/-- Only zero is written with a leading zero. -/
theorem head?_toDigits_ne_zero {n : Nat} (hn : 0 < n) : (Nat.toDigits 10 n).head? ≠ some '0' := by
  induction n using Nat.strongRecOn with
  | ind n ih =>
    by_cases hten : n < 10
    · have hdigit : ∀ d < 10, 0 < d → Nat.digitChar d ≠ '0' := by decide
      rw [Nat.toDigits_of_lt_base hten, List.head?_singleton]
      exact fun h => hdigit n hten hn (Option.some.inj h)
    · have hhead := ih (n / 10) (by omega) (by omega)
      rw [Nat.toDigits_of_base_le (by decide) (by omega), List.head?_append]
      cases h : Nat.toDigits 10 (n / 10) with
      | nil => exact absurd h Nat.toDigits_ne_nil
      | cons d ds =>
        rw [h] at hhead
        exact hhead

/-- The first digit of a natural number. -/
theorem toDigits_eq_cons (n : Nat) :
    ∃ d ds, Nat.toDigits 10 n = d :: ds ∧ d.isDigit = true ∧ ∀ c ∈ ds, c.isDigit = true := by
  have hdigits : ∀ c ∈ Nat.toDigits 10 n, c.isDigit = true :=
    fun c hc => Nat.isDigit_of_mem_toDigits (by decide) (by decide) hc
  cases h : Nat.toDigits 10 n with
  | nil => exact absurd h Nat.toDigits_ne_nil
  | cons d ds =>
    rw [h] at hdigits
    exact ⟨d, ds, rfl, hdigits d (by simp), fun c hc => hdigits c (by simp [hc])⟩

/-- The digits of a natural number are read as the number. -/
theorem number_toDigits (negative : Bool) (start : List Char) (n : Nat) {rest : List Char}
    (hrest : continuesNumber rest = false) :
    number negative start (Nat.toDigits 10 n ++ rest)
      = if IsShort n then .ok (.int (if negative then -(n : Int) else n), rest)
        else fail .tooManyDigits start := by
  rw [← unsignedNumber_digits negative start n hrest]
  by_cases hn : n = 0
  · subst hn
    rw [Nat.toDigits_zero]
    rfl
  · obtain ⟨d, ds, hcons, hd, hds⟩ := toDigits_eq_cons n
    -- a leading zero would be read as a number of its own
    have hzero : d ≠ '0' := by
      have hhead := head?_toDigits_ne_zero (Nat.pos_of_ne_zero hn)
      rw [hcons] at hhead
      simpa using hhead
    have hall : ∀ c ∈ d :: ds, c.isDigit = true := by simpa [hd] using hds
    rw [hcons, List.cons_append]
    unfold number
    split
    · rename_i h
      exact absurd (List.cons.inj h).1 hzero
    · rename_i h
      obtain ⟨rfl, rfl⟩ := List.cons.inj h
      rw [if_pos hd, ← List.cons_append, digits_append hall hrest]
    · contradiction

/-- Neither a digit nor a sign before a digit begins one of the words that are values. -/
theorem atom_number (negative : Bool) {c : Char} (hc : c.isDigit = true) (cs : List Char) :
    atom (if negative then '-' :: c :: cs else c :: cs)
      = number negative (if negative then '-' :: c :: cs else c :: cs) (c :: cs) := by
  have hne : ∀ w : Char, w.isDigit = false → w ≠ c := by
    rintro w hw rfl
    exact absurd (hc.symm.trans hw) (by decide)
  have hminus : c ≠ '-' := (hne '-' (by decide)).symm
  have hn := hne 'n' (by decide)
  have ht := hne 't' (by decide)
  have hf := hne 'f' (by decide)
  have hN := hne 'N' (by decide)
  have hI := hne 'I' (by decide)
  cases negative <;> simp [atom, afterWord?, hn, ht, hf, hN, hI, hminus, hminus.symm]

/-- An integer is written with a sign or a digit at its head. -/
theorem toString_eq_cons (n : Int) :
    ∃ c cs, (toString n).toList = c :: cs ∧ (c = '-' ∨ c.isDigit = true) := by
  rw [Int.toString_eq_repr, Int.repr_eq_if]
  by_cases hn : 0 ≤ n
  · obtain ⟨d, ds, hcons, hd, -⟩ := toDigits_eq_cons n.toNat
    rw [if_pos hn, Nat.toList_repr]
    exact ⟨d, ds, hcons, .inr hd⟩
  · rw [if_neg hn, String.toList_append]
    exact ⟨'-', _, rfl, .inl rfl⟩

/-- A written integer is read back, if it is short enough. -/
theorem atom_toString (n : Int) {rest : List Char} (hrest : continuesNumber rest = false) :
    ∃ left, atom ((toString n).toList ++ rest)
      = if IsShort n then .ok (.int n, rest) else fail .tooManyDigits left := by
  obtain ⟨d, ds, hcons, hd, -⟩ := toDigits_eq_cons n.natAbs
  rw [Int.toString_eq_repr, Int.repr_eq_if]
  by_cases hn : 0 ≤ n
  · have habs : n.toNat = n.natAbs := by omega
    have hread := number_toDigits false (d :: (ds ++ rest)) n.natAbs hrest
    rw [hcons, List.cons_append] at hread
    rw [if_pos hn, habs, Nat.toList_repr, hcons, List.cons_append]
    have hatom := atom_number false hd (ds ++ rest)
    rw [if_neg (by decide)] at hatom
    refine ⟨d :: (ds ++ rest), ?_⟩
    rw [hatom, hread]
    simp only [Bool.false_eq_true, if_false, Int.natAbs_of_nonneg hn]
  · have habs : (-n).toNat = n.natAbs := by omega
    have hshort : IsShort (n.natAbs : Int) ↔ IsShort n := by
      unfold IsShort
      rw [Int.natAbs_natCast]
    have hvalue : -(n.natAbs : Int) = n := by omega
    have hread := number_toDigits true ('-' :: d :: (ds ++ rest)) n.natAbs hrest
    rw [hcons, List.cons_append] at hread
    rw [if_neg hn, habs, String.toList_append, Nat.toList_repr, hcons]
    refine ⟨'-' :: d :: (ds ++ rest), ?_⟩
    show atom ('-' :: d :: (ds ++ rest)) = _
    have hatom := atom_number true hd (ds ++ rest)
    rw [if_pos rfl] at hatom
    rw [hatom, hread]
    simp only [hshort, if_true, hvalue]

end Json

end CInterop
