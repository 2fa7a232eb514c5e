import Mathlib.Algebra.Group.Nat.Defs
import CInterop.Number.EnglishWords

/-!
# Reading number words

The words of a number can be read back, one after the other: the words of a group of three digits add up
until the name of a power of a thousand closes the group. So no two numbers have the same words, and as no
word has an underscore in it, neither have they the same text with underscores between the words.
-/

namespace CInterop.EnglishWords

theorem getD_mem {words : List String} {k : Nat} (hk : k < words.length) :
    words.getD k "" ∈ words := by
  rw [List.getD_eq_getElem?_getD, List.getElem?_eq_getElem hk]
  exact List.getElem_mem hk

theorem idxOf_getD {words : List String} (hnodup : words.Nodup) {k : Nat} (hk : k < words.length) :
    words.idxOf (words.getD k "") = k := by
  rw [List.getD_eq_getElem?_getD, List.getElem?_eq_getElem hk]
  exact hnodup.idxOf_getElem k hk

/-! ## Reading one word -/

/-- What was read: the groups that are closed, and the one that is not. -/
structure Reading where
  closed : Nat
  group : Nat
deriving DecidableEq

/-- Reads one word more. Words that stand for no number, the sign and `and`, are passed over. -/
def Reading.next (r : Reading) (word : String) : Reading :=
  if word = "hundred" then { r with group := 100 * r.group }
  else if word ∈ small then { r with group := r.group + small.idxOf word }
  else if word ∈ tens then { r with group := r.group + 10 * tens.idxOf word }
  else if word ∈ powers then ⟨r.closed + r.group * 1000 ^ (powers.idxOf word + 1), 0⟩
  else r

/-- Reads words one after the other. -/
def Reading.all (r : Reading) (words : List String) : Reading := words.foldl next r

namespace Reading

variable {r : Reading}

theorem all_append (words more : List String) : r.all (words ++ more) = (r.all words).all more :=
  List.foldl_append

theorem all_cons (word : String) (words : List String) :
    r.all (word :: words) = (r.next word).all words := rfl

theorem next_small {k : Nat} (hk : k < 20) :
    r.next (small.getD k "") = { r with group := r.group + k } := by
  have hword : ∀ k < 20, small.getD k "" ≠ "hundred" ∧ small.getD k "" ∈ small ∧
      small.idxOf (small.getD k "") = k := by decide +kernel
  obtain ⟨hhundred, hmem, hindex⟩ := hword k hk
  rw [next, if_neg hhundred, if_pos hmem, hindex]

theorem next_tens {k : Nat} (hlow : 2 ≤ k) (hk : k < 10) :
    r.next (tens.getD k "") = { r with group := r.group + 10 * k } := by
  have hword : ∀ k < 10, 2 ≤ k → tens.getD k "" ≠ "hundred" ∧ tens.getD k "" ∉ small ∧
      tens.getD k "" ∈ tens ∧ tens.idxOf (tens.getD k "") = k := by decide +kernel
  obtain ⟨hhundred, hsmall, hmem, hindex⟩ := hword k hk hlow
  rw [next, if_neg hhundred, if_neg hsmall, if_pos hmem, hindex]

/-- The names of the powers are different and in no other list, and two words are in no list at all. -/
theorem powers_apart : powers.Nodup ∧
    (∀ word ∈ powers, word ≠ "hundred" ∧ word ∉ small ∧ word ∉ tens) ∧
    ∀ word ∈ ["and", "minus"], word ≠ "hundred" ∧ word ∉ small ∧ word ∉ tens ∧ word ∉ powers := by
  decide +kernel

theorem next_powers {k : Nat} (hk : k < 101) :
    r.next (powers.getD k "") = ⟨r.closed + r.group * 1000 ^ (k + 1), 0⟩ := by
  obtain ⟨hnodup, hword, -⟩ := powers_apart
  have hlength : k < powers.length := by rw [length_powers]; exact hk
  have hmem := getD_mem hlength
  obtain ⟨hhundred, hsmall, htens⟩ := hword _ hmem
  rw [next, if_neg hhundred, if_neg hsmall, if_neg htens, if_pos hmem, idxOf_getD hnodup hlength]

theorem next_hundred : r.next "hundred" = { r with group := 100 * r.group } := if_pos rfl

/-- A word that is in no list is passed over. -/
theorem next_of_not_mem {word : String}
    (h : word ≠ "hundred" ∧ word ∉ small ∧ word ∉ tens ∧ word ∉ powers) : r.next word = r := by
  obtain ⟨hhundred, hsmall, htens, hpowers⟩ := h
  rw [next, if_neg hhundred, if_neg hsmall, if_neg htens, if_neg hpowers]

theorem next_and : r.next "and" = r := next_of_not_mem (powers_apart.2.2 "and" (by simp))

theorem next_minus : r.next "minus" = r := next_of_not_mem (powers_apart.2.2 "minus" (by simp))

/-! ## Reading a number -/

theorem all_belowHundred {n : Nat} (hn : n < 100) :
    r.all (belowHundred n) = { r with group := r.group + n } := by
  unfold belowHundred
  split
  · exact next_small ‹_›
  · rw [all_cons, next_tens (by omega) (by omega)]
    split
    · show ({ r with group := _ } : Reading) = _
      congr 1
      omega
    · refine (next_small (by omega)).trans ?_
      congr 1
      show r.group + 10 * (n / 10) + n % 10 = r.group + n
      omega

theorem all_belowThousand {n : Nat} (closed : Nat) (hn : n < 1000) :
    (Reading.mk closed 0).all (belowThousand n) = ⟨closed, n⟩ := by
  unfold belowThousand
  split
  · exact (all_belowHundred ‹_›).trans (by rw [Nat.zero_add])
  · rw [all_cons, next_small (by omega), all_cons, next_hundred]
    split
    · show Reading.mk closed (100 * (0 + n / 100)) = _
      congr 1
      omega
    · rw [all_cons, next_and, all_belowHundred (Nat.mod_lt _ (by decide))]
      congr 1
      show 100 * (0 + n / 100) + n % 100 = n
      omega

/-- The words of a number add it to what was read before. -/
theorem all_groups (power : Nat) (hpower : power ≤ 101) {n : Nat} (hn : n < 1000 ^ (power + 1))
    (closed : Nat) :
    ((Reading.mk closed 0).all (groups power n)).closed +
      ((Reading.mk closed 0).all (groups power n)).group = closed + n := by
  induction power generalizing n closed with
  | zero => rw [groups, all_belowThousand closed hn]
  | succ power ih =>
    unfold groups
    have hunit : Nat.pow 1000 (power + 1) = 1000 ^ (power + 1) := rfl
    rw [hunit]
    dsimp only
    split
    · exact ih (by omega) ‹_› closed
    · have hquotient : n / 1000 ^ (power + 1) < 1000 := Nat.div_lt_of_lt_mul hn
      have hrest : n % 1000 ^ (power + 1) < 1000 ^ (power + 1) :=
        Nat.mod_lt _ (Nat.pow_pos (by decide))
      have hsum : n / 1000 ^ (power + 1) * 1000 ^ (power + 1) + n % 1000 ^ (power + 1) = n :=
        Nat.div_add_mod' n _
      rw [all_append, all_append, all_belowThousand closed hquotient, all_cons,
        next_powers (by omega)]
      generalize n / 1000 ^ (power + 1) * 1000 ^ (power + 1) = high at hsum ⊢
      generalize n % 1000 ^ (power + 1) = rest at hrest hsum ⊢
      split
      · show closed + high + 0 = _
        omega
      · split
        · rw [all_cons, next_and]
          show ((Reading.mk (closed + high) 0).all (belowHundred rest)).closed +
            ((Reading.mk (closed + high) 0).all (belowHundred rest)).group = _
          rw [all_belowHundred ‹_›]
          show closed + high + (0 + rest) = _
          omega
        · refine (ih (by omega) hrest (closed + high)).trans ?_
          omega

end Reading

/-- The value of what is read. -/
def value (words : List String) : Nat :=
  ((Reading.mk 0 0).all words).closed + ((Reading.mk 0 0).all words).group

theorem cardinal?_eq_some {n : Int} {words : List String} (h : cardinal? n = some words) :
    n.natAbs < 1000 ^ 102 ∧ words = (if n < 0 then ["minus"] else []) ++ groups 101 n.natAbs := by
  unfold cardinal? at h
  split at h
  · cases h
    exact ⟨‹_›, rfl⟩
  · cases h

theorem value_of_cardinal? {n : Int} {words : List String} (h : cardinal? n = some words) :
    value words = n.natAbs := by
  obtain ⟨hlimit, rfl⟩ := cardinal?_eq_some h
  have hgroups := Reading.all_groups 101 (Nat.le_refl _) hlimit 0
  rw [Nat.zero_add] at hgroups
  unfold value
  split
  · rw [List.singleton_append, Reading.all_cons, Reading.next_minus]
    exact hgroups
  · exact hgroups

/-- No two numbers have the same words. -/
theorem cardinal?_injective {n m : Int} {words : List String} (hn : cardinal? n = some words)
    (hm : cardinal? m = some words) : n = m := by
  have hvalue : n.natAbs = m.natAbs := (value_of_cardinal? hn).symm.trans (value_of_cardinal? hm)
  have hsame := (cardinal?_eq_some hn).2.symm.trans (cardinal?_eq_some hm).2
  rw [hvalue] at hsame
  -- the sign is one word more
  by_cases hneg : n < 0 <;> by_cases hneg' : m < 0
  · omega
  · rw [if_pos hneg, if_neg hneg'] at hsame
    exact absurd hsame (List.cons_ne_self _ _)
  · rw [if_neg hneg, if_pos hneg'] at hsame
    exact absurd hsame.symm (List.cons_ne_self _ _)
  · omega

/-! ## Words without underscores -/

/-- All words there are. -/
def vocabulary : List String := "minus" :: "and" :: "hundred" :: (small ++ tens ++ powers)

theorem underscore_not_mem_powers {word : String} (h : word ∈ powers) : '_' ∉ word.toList := by
  -- the parts of the names, so that none is put together
  have hparts : ∀ part ∈ ["thousand", "cent", "illion"] ++ firstStems ++ unitStems ++ tenStems,
      '_' ∉ part.toList := by decide +kernel
  have happend {a b : String} (ha : '_' ∉ a.toList) (hb : '_' ∉ b.toList) :
      '_' ∉ (a ++ b).toList := by
    rw [String.toList_append, List.mem_append]
    exact not_or.mpr ⟨ha, hb⟩
  rcases List.mem_cons.mp h with rfl | h
  · exact hparts _ (by simp)
  obtain ⟨stem, hstem, rfl⟩ := List.mem_map.mp h
  refine happend ?_ (hparts _ (by simp))
  rcases List.mem_append.mp hstem with hstem | hcent
  · rcases List.mem_append.mp hstem with hfirst | htens
    · exact hparts _ (by simp [hfirst])
    · obtain ⟨ten, hten, hnames⟩ := List.mem_flatMap.mp htens
      obtain ⟨unit, hunit, rfl⟩ := List.mem_map.mp hnames
      exact happend (hparts _ (by simp [hunit])) (hparts _ (by simp [hten]))
  · obtain rfl := List.mem_singleton.mp hcent
    exact hparts _ (by simp)

theorem underscore_not_mem {word : String} (h : word ∈ vocabulary) : '_' ∉ word.toList := by
  have hshort : ∀ word ∈ "minus" :: "and" :: "hundred" :: (small ++ tens), '_' ∉ word.toList := by
    decide +kernel
  rcases List.mem_append.mp (show word ∈ ("minus" :: "and" :: "hundred" :: (small ++ tens)) ++ powers
    from h) with h | h
  · exact hshort word h
  · exact underscore_not_mem_powers h

theorem small_subset : small ⊆ vocabulary := fun _ h => by simp [vocabulary, h]

theorem tens_subset : tens ⊆ vocabulary := fun _ h => by simp [vocabulary, h]

theorem powers_subset : powers ⊆ vocabulary := fun _ h => by simp [vocabulary, h]

theorem belowHundred_subset {n : Nat} (hn : n < 100) : belowHundred n ⊆ vocabulary := by
  unfold belowHundred
  split
  · exact List.cons_subset.mpr ⟨small_subset (getD_mem ‹_›), List.nil_subset _⟩
  · refine List.cons_subset.mpr ⟨tens_subset (getD_mem (show n / 10 < 10 by omega)), ?_⟩
    split
    · exact List.nil_subset _
    · exact List.cons_subset.mpr
        ⟨small_subset (getD_mem (show n % 10 < 20 by omega)), List.nil_subset _⟩

theorem belowThousand_subset {n : Nat} (hn : n < 1000) : belowThousand n ⊆ vocabulary := by
  unfold belowThousand
  split
  · exact belowHundred_subset ‹_›
  · refine List.cons_subset.mpr ⟨small_subset (getD_mem (show n / 100 < 20 by omega)), ?_⟩
    refine List.cons_subset.mpr ⟨by simp [vocabulary], ?_⟩
    split
    · exact List.nil_subset _
    · exact List.cons_subset.mpr
        ⟨by simp [vocabulary], belowHundred_subset (Nat.mod_lt _ (by decide))⟩

theorem groups_subset (power : Nat) (hpower : power ≤ 101) {n : Nat} (hn : n < 1000 ^ (power + 1)) :
    groups power n ⊆ vocabulary := by
  induction power generalizing n with
  | zero => exact belowThousand_subset hn
  | succ power ih =>
    unfold groups
    have hunit : Nat.pow 1000 (power + 1) = 1000 ^ (power + 1) := rfl
    rw [hunit]
    dsimp only
    split
    · exact ih (by omega) ‹_›
    · have hquotient : n / 1000 ^ (power + 1) < 1000 := Nat.div_lt_of_lt_mul hn
      have hrest : n % 1000 ^ (power + 1) < 1000 ^ (power + 1) :=
        Nat.mod_lt _ (Nat.pow_pos (by decide))
      have hpower : power < powers.length := by rw [length_powers]; omega
      refine List.append_subset.mpr ⟨List.append_subset.mpr ⟨belowThousand_subset hquotient, ?_⟩, ?_⟩
      · exact List.cons_subset.mpr ⟨powers_subset (getD_mem hpower), List.nil_subset _⟩
      · split
        · exact List.nil_subset _
        · split
          · exact List.cons_subset.mpr ⟨by simp [vocabulary], belowHundred_subset ‹_›⟩
          · exact ih (by omega) hrest

theorem cardinal?_subset {n : Int} {words : List String} (h : cardinal? n = some words) :
    words ⊆ vocabulary := by
  obtain ⟨hlimit, rfl⟩ := cardinal?_eq_some h
  refine List.append_subset.mpr ⟨?_, groups_subset 101 (Nat.le_refl _) hlimit⟩
  split
  · exact List.cons_subset.mpr ⟨by simp [vocabulary], List.nil_subset _⟩
  · exact List.nil_subset _

theorem groups_ne_nil (power n : Nat) : groups power n ≠ [] := by
  have hthousand (n : Nat) : belowThousand n ≠ [] := by
    unfold belowThousand belowHundred
    split
    · split <;> exact List.cons_ne_nil _ _
    · exact List.cons_ne_nil _ _
  induction power generalizing n with
  | zero => exact hthousand n
  | succ power ih =>
    unfold groups
    dsimp only
    split
    · exact ih n
    · exact List.append_ne_nil_of_left_ne_nil
        (List.append_ne_nil_of_left_ne_nil (hthousand _) _) _

theorem cardinal?_ne_nil {n : Int} {words : List String} (h : cardinal? n = some words) :
    words ≠ [] := by
  rw [(cardinal?_eq_some h).2]
  exact List.append_ne_nil_of_right_ne_nil _ (groups_ne_nil _ _)

/-! ## Words behind a name -/

/-- The text is made of a name and number words behind it. -/
def joined (name : String) (words : List String) : String :=
  name ++ "_" ++ String.intercalate "_" words

section

variable {name name' : String} {words words' : List String}

theorem splitOn_injective {text text' : List Char} (h : text.splitOn '_' = text'.splitOn '_') :
    text = text' := by
  calc
    text = ['_'].intercalate (text.splitOn '_') := (List.intercalate_splitOn '_').symm
    _ = ['_'].intercalate (text'.splitOn '_') := by rw [h]
    _ = text' := List.intercalate_splitOn '_'

theorem splitOn_joined (hsub : words ⊆ vocabulary) (hne : words ≠ []) :
    (joined name words).toList.splitOn '_' = name.toList.splitOn '_' ++ words.map String.toList := by
  have hwords : (['_'].intercalate (words.map String.toList)).splitOn '_' =
      words.map String.toList := by
    refine List.splitOn_intercalate '_' (fun text htext => ?_) (mt List.map_eq_nil_iff.mp hne)
    obtain ⟨word, hword, rfl⟩ := List.mem_map.mp htext
    exact underscore_not_mem (hsub hword)
  have htext : (joined name words).toList =
      name.toList ++ '_' :: ['_'].intercalate (words.map String.toList) := by
    rw [joined, String.toList_append, String.toList_append, String.toList_intercalate,
      List.append_assoc]
    rfl
  rw [htext, List.splitOn_append_cons_self, hwords]

/-- Number words behind number words are behind the name all together. -/
theorem joined_joined (name : String) (hsub : words ++ words' ⊆ vocabulary) (hne : words ≠ [])
    (hne' : words' ≠ []) : joined (joined name words) words' = joined name (words ++ words') := by
  obtain ⟨hwords, hwords'⟩ := List.append_subset.mp hsub
  refine String.toList_inj.mp (splitOn_injective ?_)
  rw [splitOn_joined hwords' hne', splitOn_joined hwords hne,
    splitOn_joined hsub (List.append_ne_nil_of_left_ne_nil hne _), List.map_append, List.append_assoc]

/-- A name that begins like another one ends where it does, or goes on into the number words. -/
theorem joined_of_splitOn {more : List (List Char)} (hsub : words ⊆ vocabulary)
    (hname : name'.toList.splitOn '_' = name.toList.splitOn '_' ++ more)
    (hwords : words.map String.toList = more ++ words'.map String.toList) :
    (name = name' ∧ words = words') ∨
      ∃ first, first ≠ [] ∧ words = first ++ words' ∧ name' = joined name first := by
  obtain ⟨first, rest, rfl, rfl, hrest⟩ := List.map_eq_append_iff.mp hwords
  obtain rfl : rest = words' := (List.map_inj_right fun _ _ h => String.toList_inj.mp h).mp hrest
  rcases List.eq_nil_or_concat first with rfl | ⟨_, _, hfirst⟩
  · rw [List.map_nil, List.append_nil] at hname
    exact .inl ⟨(String.toList_inj.mp (splitOn_injective hname)).symm, rfl⟩
  · have hne : first ≠ [] := by
      rw [hfirst, List.concat_eq_append]
      exact List.append_ne_nil_of_right_ne_nil _ (List.cons_ne_nil _ _)
    refine .inr ⟨first, hne, rfl, String.toList_inj.mp (splitOn_injective ?_)⟩
    rw [hname, splitOn_joined (List.append_subset.mp hsub).1 hne]

/-- From the text, the name and the words are known, unless one name is the other with number words
behind it. -/
theorem joined_eq (hsub : words ⊆ vocabulary) (hne : words ≠ []) (hsub' : words' ⊆ vocabulary)
    (hne' : words' ≠ []) (h : joined name words = joined name' words') :
    (name = name' ∧ words = words') ∨
      (∃ first, first ≠ [] ∧ words = first ++ words' ∧ name' = joined name first) ∨
      ∃ first, first ≠ [] ∧ words' = first ++ words ∧ name = joined name' first := by
  have hsplit : (joined name words).toList.splitOn '_' = (joined name' words').toList.splitOn '_' := by
    rw [h]
  rw [splitOn_joined hsub hne, splitOn_joined hsub' hne', List.append_eq_append_iff] at hsplit
  rcases hsplit with ⟨more, hname, hwords⟩ | ⟨more, hname, hwords⟩
  · rcases joined_of_splitOn hsub hname hwords with hsame | hlonger
    · exact .inl hsame
    · exact .inr (.inl hlonger)
  · rcases joined_of_splitOn hsub' hname hwords with ⟨rfl, rfl⟩ | hlonger
    · exact .inl ⟨rfl, rfl⟩
    · exact .inr (.inr hlonger)

end

end CInterop.EnglishWords
