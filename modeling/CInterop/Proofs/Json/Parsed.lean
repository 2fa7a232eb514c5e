import Mathlib.Algebra.Group.Nat.Defs
import CInterop.Proofs.Json.RoundTrip
import CInterop.Proofs.Success

/-!
# Values that were read

Whatever text they come from, values that were read have no member twice and no integer that is too long.
Apart from floating-point numbers they are therefore values that can be written and read back.
-/

namespace CInterop.Json

mutual

/-- Whether a value holds no floating-point number. -/
def Exact : Json → Prop
  | null | bool _ | int _ | str _ => True
  | real _ => False
  | arr items => ExactItems items
  | obj members => ExactMembers members

def ExactItems : List Json → Prop
  | [] => True
  | item :: rest => Exact item ∧ ExactItems rest

def ExactMembers : List (String × Json) → Prop
  | [] => True
  | (_, item) :: rest => Exact item ∧ ExactMembers rest

end

/-- A value that is read back from what it is written as. -/
def Writable (v : Json) : Prop := v.Plain ∧ ∀ n ∈ v.integers, IsShort n

/-! ## Arrays and objects -/

theorem exact_arr {items : List Json} : (arr items).Exact ↔ ∀ item ∈ items, item.Exact := by
  show ExactItems items ↔ _
  induction items with
  | nil => simp [ExactItems]
  | cons item rest ih => rw [ExactItems, ih, List.forall_mem_cons]

theorem exact_obj {members : List (String × Json)} :
    (obj members).Exact ↔ ∀ m ∈ members, m.2.Exact := by
  show ExactMembers members ↔ _
  induction members with
  | nil => simp [ExactMembers]
  | cons m rest ih => rw [ExactMembers, ih, List.forall_mem_cons]

theorem writable_null : Writable .null := ⟨trivial, by simp [integers]⟩

theorem writable_bool (b : Bool) : Writable (.bool b) := ⟨trivial, by simp [integers]⟩

theorem writable_str (text : String) : Writable (.str text) := ⟨trivial, by simp [integers]⟩

theorem writable_int {n : Int} (h : IsShort n) : Writable (.int n) := by
  refine ⟨trivial, fun m hm => ?_⟩
  obtain rfl := List.mem_singleton.mp hm
  exact h

theorem writable_arr {items : List Json} : Writable (arr items) ↔ ∀ item ∈ items, Writable item := by
  show (PlainItems items ∧ ∀ n ∈ itemIntegers items, IsShort n) ↔ _
  induction items with
  | nil => simp [PlainItems, itemIntegers]
  | cons item rest ih =>
    rw [PlainItems, itemIntegers, List.forall_mem_append, List.forall_mem_cons, ← ih, Writable]
    exact and_and_and_comm

theorem writable_obj {members : List (String × Json)} :
    Writable (obj members) ↔ (members.map (·.1)).Nodup ∧ ∀ m ∈ members, Writable m.2 := by
  have hmembers : (PlainMembers members ∧ ∀ n ∈ memberIntegers members, IsShort n) ↔
      ∀ m ∈ members, Writable m.2 := by
    induction members with
    | nil => simp [PlainMembers, memberIntegers]
    | cons m rest ih =>
      rw [PlainMembers, memberIntegers, List.forall_mem_append, List.forall_mem_cons, ← ih, Writable]
      exact and_and_and_comm
  rw [← hmembers, Writable]
  exact and_assoc

/-! ## Members that were inserted -/

theorem map_fst_insertMember (key : String) (item : Json) (members : List (String × Json)) :
    (insertMember key item members).map (·.1)
      = if key ∈ members.map (·.1) then members.map (·.1) else members.map (·.1) ++ [key] := by
  induction members with
  | nil => simp [insertMember]
  | cons m rest ih =>
    by_cases hkey : m.1 = key
    · simp [insertMember, hkey]
    · rw [insertMember, if_neg hkey, List.map_cons, ih]
      have hne : key ≠ m.1 := fun h => hkey h.symm
      by_cases hmem : key ∈ rest.map (·.1)
      · simp [hmem]
      · simp [hmem, hne]

theorem nodup_insertMember {key : String} {item : Json} {members : List (String × Json)}
    (h : (members.map (·.1)).Nodup) : ((insertMember key item members).map (·.1)).Nodup := by
  rw [map_fst_insertMember]
  split
  · exact h
  · rename_i hmem
    rw [List.nodup_append]
    refine ⟨h, by simp, fun a ha b hb => ?_⟩
    obtain rfl := List.mem_singleton.mp hb
    rintro rfl
    exact hmem ha

theorem mem_insertMember {key : String} {item : Json} {members : List (String × Json)}
    {m : String × Json} (h : m ∈ insertMember key item members) : m ∈ members ∨ m.2 = item := by
  induction members with
  | nil =>
    obtain rfl := List.mem_singleton.mp h
    exact .inr rfl
  | cons first rest ih =>
    rw [insertMember] at h
    split at h
    · rcases List.mem_cons.mp h with rfl | hmem
      · exact .inr rfl
      · exact .inl (List.mem_cons_of_mem _ hmem)
    · rcases List.mem_cons.mp h with rfl | hmem
      · exact .inl (List.mem_cons_self)
      · rcases ih hmem with hmem | hitem
        · exact .inl (List.mem_cons_of_mem _ hmem)
        · exact .inr hitem

/-! ## Numbers -/

/-- Digits stand for a number below the power of ten for their length. -/
theorem digitsValue_lt {cs : List Char} (h : ∀ c ∈ cs, c.isDigit = true) :
    digitsValue cs < 10 ^ cs.length := by
  -- after `n` was read, the digits that are left give a number below the next one
  have hfrom : ∀ n, cs.foldl (fun n c => 10 * n + (c.toNat - '0'.toNat)) n < (n + 1) * 10 ^ cs.length := by
    induction cs with
    | nil => simp
    | cons c cs ih =>
      intro n
      have hdigit : c.toNat - '0'.toNat ≤ 9 := by
        have hc := h c (by simp)
        simp only [Char.isDigit, Bool.and_eq_true, decide_eq_true_eq, UInt32.le_iff_toNat_le] at hc
        have hhigh : c.toNat ≤ 57 := hc.2
        have hzero : '0'.toNat = 48 := rfl
        omega
      have hrest := ih (fun d hd => h d (by simp [hd])) (10 * n + (c.toNat - '0'.toNat))
      rw [List.foldl_cons, List.length_cons, Nat.pow_succ']
      calc _ < (10 * n + (c.toNat - '0'.toNat) + 1) * 10 ^ cs.length := hrest
        _ ≤ (n + 1) * 10 * 10 ^ cs.length := Nat.mul_le_mul_right _ (by omega)
        _ = (n + 1) * (10 * 10 ^ cs.length) := Nat.mul_assoc _ _ _
  simpa [digitsValue] using hfrom 0

/-- A number that was read from few enough digits is short. -/
theorem isShort_digitsValue {cs : List Char} (h : ∀ c ∈ cs, c.isDigit = true)
    (hlength : cs.length ≤ maxIntegerDigits) (negative : Bool) :
    IsShort (if negative then -(digitsValue cs : Int) else digitsValue cs) := by
  have habs : (if negative then -(digitsValue cs : Int) else digitsValue cs).natAbs = digitsValue cs := by
    cases negative
    · simp
    · simp
  unfold IsShort
  rw [habs, Nat.length_toDigits_le_iff (by decide) (by decide)]
  exact Nat.lt_of_lt_of_le (digitsValue_lt h) (Nat.pow_le_pow_right (by decide) hlength)

/-! ## The reader -/

/-- The value can be written and read back if it holds no floating-point number. -/
def Readable (v : Json) : Prop := v.Exact → Writable v

theorem readable_unsignedNumber {negative : Bool} {start whole rest after : List Char} {v : Json}
    (hwhole : ∀ c ∈ whole, c.isDigit = true)
    (h : unsignedNumber negative start whole rest = .ok (v, after)) : Readable v := by
  unfold unsignedNumber at h
  split at h
  · split at h
    · cases h
    · rename_i hlength
      cases h
      intro _
      exact writable_int (isShort_digitsValue hwhole (by omega) negative)
  · cases h
    exact fun hexact => absurd hexact id

theorem isDigit_of_mem_digits {c : Char} {cs : List Char} (h : c ∈ (digits cs).1) :
    c.isDigit = true := by
  have hdigits : digits cs = (cs.takeWhile Char.isDigit, cs.dropWhile Char.isDigit) :=
    List.span_eq_takeWhile_dropWhile _ _
  rw [hdigits] at h
  exact List.all_eq_true.mp List.all_takeWhile c h

theorem readable_number {negative : Bool} {start cs after : List Char} {v : Json}
    (h : number negative start cs = .ok (v, after)) : Readable v := by
  unfold number at h
  split at h
  · exact readable_unsignedNumber (by decide) h
  · split at h
    · dsimp only at h
      exact readable_unsignedNumber (fun c hc => isDigit_of_mem_digits hc) h
    · cases h
  · cases h

theorem readable_atom {cs after : List Char} {v : Json} (h : atom cs = .ok (v, after)) : Readable v := by
  unfold atom at h
  repeat' split at h
  · cases h
    exact fun _ => writable_null
  · cases h
    exact fun _ => writable_bool true
  · cases h
    exact fun _ => writable_bool false
  · cases h
    exact fun hexact => absurd hexact id
  · cases h
    exact fun hexact => absurd hexact id
  · cases h
    exact fun hexact => absurd hexact id
  · exact readable_number h
  · exact readable_number h

mutual

/-- Every value that is read is readable. -/
theorem readable_value (n : Nat) {cs rest : List Char} {v : Json} (h : value n cs = .ok (v, rest)) :
    Readable v := by
  match n with
  | 0 => cases h
  | n + 1 =>
    unfold value at h
    split at h
    · rw [bind_eq_ok] at h
      obtain ⟨⟨text, after⟩, -, heq⟩ := h
      cases heq
      exact fun _ => writable_str text
    · split at h
      · cases h
        exact fun _ => writable_arr.mpr (by simp)
      · rw [bind_eq_ok] at h
        obtain ⟨⟨items, after⟩, hitems, heq⟩ := h
        cases heq
        have hall := readable_items n hitems
        exact fun hexact => writable_arr.mpr fun item hitem =>
          hall item hitem (exact_arr.mp hexact item hitem)
    · split at h
      · cases h
        exact fun _ => writable_obj.mpr (by simp)
      · rw [bind_eq_ok] at h
        obtain ⟨⟨members, after⟩, hmembers, heq⟩ := h
        cases heq
        obtain ⟨hkeys, hall⟩ := readable_members n hmembers List.nodup_nil (by simp)
        exact fun hexact => writable_obj.mpr ⟨hkeys, fun m hm => hall m hm (exact_obj.mp hexact m hm)⟩
    · exact readable_atom h

theorem readable_items (n : Nat) {cs rest : List Char} {list : List Json}
    (h : items n cs = .ok (list, rest)) : ∀ item ∈ list, Readable item := by
  match n with
  | 0 => cases h
  | n + 1 =>
    rw [items, bind_eq_ok] at h
    obtain ⟨⟨first, after⟩, hfirst, hrest⟩ := h
    dsimp only at hrest
    split at hrest
    · cases hrest
      exact List.forall_mem_singleton.mpr (readable_value n hfirst)
    · rw [bind_eq_ok] at hrest
      obtain ⟨⟨others, last⟩, hothers, heq⟩ := hrest
      cases heq
      exact List.forall_mem_cons.mpr ⟨readable_value n hfirst, readable_items n hothers⟩
    · cases hrest

/-- Members are added to those before them, whose values may be given up for later ones. -/
theorem readable_members (n : Nat) {before list : List (String × Json)} {cs rest : List Char}
    (h : members n before cs = .ok (list, rest)) (hkeys : (before.map (·.1)).Nodup)
    (hbefore : ∀ m ∈ before, Readable m.2) :
    (list.map (·.1)).Nodup ∧ ∀ m ∈ list, Readable m.2 := by
  match n with
  | 0 => cases h
  | n + 1 =>
    unfold members at h
    split at h
    · rw [bind_eq_ok] at h
      obtain ⟨⟨key, afterKey⟩, -, h⟩ := h
      dsimp only at h
      split at h
      · rw [bind_eq_ok] at h
        obtain ⟨⟨item, afterItem⟩, hitem, h⟩ := h
        dsimp only at h
        have hadded : ∀ m ∈ insertMember key item before, Readable m.2 := by
          intro m hm
          rcases mem_insertMember hm with hmem | heq
          · exact hbefore m hmem
          · rw [heq]
            exact readable_value n hitem
        split at h
        · cases h
          exact ⟨nodup_insertMember hkeys, hadded⟩
        · exact readable_members n h (nodup_insertMember hkeys) hadded
        · cases h
      · cases h
    · cases h

end

/-- A value that was read from a text is one that can be written and read back, if it holds no
floating-point number. -/
theorem writable_of_parse {text : String} {v : Json} (h : parse text = .ok v) (hexact : v.Exact) :
    Writable v := by
  unfold parse at h
  split at h
  · rename_i v' hread
    cases h
    unfold readText at hread
    dsimp only at hread
    split at hread
    · cases hread
    · rw [bind_eq_ok] at hread
      obtain ⟨⟨v', rest⟩, hvalue, hread⟩ := hread
      dsimp only at hread
      split at hread
      · cases hread
        exact readable_value _ hvalue hexact
      · cases hread
  · cases h

end CInterop.Json
