import CInterop.Proofs.Json.Lexical

/-!
# Written values are read back

The reader inverts the writer on every value without floating-point numbers and repeated members. The
one thing that can go wrong is an integer that is too long to be converted, and it goes wrong for every
such integer, at whatever depth it stands.
-/

namespace CInterop.Json

/-! ## The values in question -/

mutual

/-- Whether a value holds no floating-point number and no object with two members of one name. -/
def Plain : Json → Prop
  | null | bool _ | int _ | str _ => True
  | real _ => False
  | arr items => PlainItems items
  | obj members => (members.map (·.1)).Nodup ∧ PlainMembers members

def PlainItems : List Json → Prop
  | [] => True
  | item :: rest => Plain item ∧ PlainItems rest

def PlainMembers : List (String × Json) → Prop
  | [] => True
  | (_, item) :: rest => Plain item ∧ PlainMembers rest

end

mutual

/-- The integers in a value, from left to right. -/
def integers : Json → List Int
  | int n => [n]
  | arr items => itemIntegers items
  | obj members => memberIntegers members
  | null | bool _ | real _ | str _ => []

def itemIntegers : List Json → List Int
  | [] => []
  | item :: rest => integers item ++ itemIntegers rest

def memberIntegers : List (String × Json) → List Int
  | [] => []
  | (_, item) :: rest => integers item ++ memberIntegers rest

end

/-- Reading `cs` gives `a` and what is left, if all the integers are short; otherwise it fails at one
that is not. -/
def Reads {α : Type} (result : Except Failure (α × List Char)) (a : α) (ns : List Int)
    (rest : List Char) : Prop :=
  ∃ left, result = if ∀ n ∈ ns, IsShort n then .ok (a, rest) else fail .tooManyDigits left

theorem Reads.pure {α : Type} (a : α) (rest : List Char) : Reads (.ok (a, rest)) a [] rest :=
  ⟨[], by simp⟩

/-- One thing after the other; a failure of the first is the failure of both. -/
theorem Reads.bind {α β : Type} {first : Except Failure (α × List Char)}
    {next : α × List Char → Except Failure (β × List Char)} {a : α} {b : β} {ns ms : List Int}
    {mid rest : List Char} (hfirst : Reads first a ns mid) (hnext : Reads (next (a, mid)) b ms rest) :
    Reads (first >>= next) b (ns ++ ms) rest := by
  obtain ⟨left, hfirst⟩ := hfirst
  obtain ⟨left', hnext⟩ := hnext
  by_cases hns : ∀ n ∈ ns, IsShort n
  · refine ⟨left', ?_⟩
    rw [hfirst, if_pos hns]
    show next (a, mid) = _
    -- only the integers of the second part are left to be judged
    have hboth : (∀ n ∈ ns ++ ms, IsShort n) ↔ ∀ n ∈ ms, IsShort n := by
      rw [List.forall_mem_append, and_iff_right hns]
    simp only [hnext, hboth]
  · refine ⟨left, ?_⟩
    rw [hfirst, if_neg hns, if_neg fun h => hns fun n hn => h n (List.mem_append_left _ hn)]
    rfl

/-- What only puts a result together keeps the rest. -/
theorem Reads.bind_pure {α β : Type} {first : Except Failure (α × List Char)}
    {next : α × List Char → Except Failure (β × List Char)} {a : α} {b : β} {ns : List Int}
    {rest : List Char} (hfirst : Reads first a ns rest) (hnext : next (a, rest) = .ok (b, rest)) :
    Reads (first >>= next) b ns rest := by
  rw [← List.append_nil ns]
  exact hfirst.bind (hnext ▸ Reads.pure b rest)

/-! ## Blanks and first characters -/

theorem skipSpace_cons {c : Char} (hc : isSpace c = false) (cs : List Char) :
    skipSpace (c :: cs) = c :: cs := by
  rw [skipSpace, List.dropWhile_cons_of_neg (by simp [hc])]

theorem skipSpace_newLine (depth : Nat) (cs : List Char) :
    skipSpace (newLine depth ++ cs) = skipSpace cs := by
  have hspace : ∀ c ∈ newLine depth, isSpace c = true := by
    intro c hc
    rcases List.mem_cons.1 hc with rfl | hc
    · rfl
    · rw [List.eq_of_mem_replicate hc]
      rfl
  rw [skipSpace, List.dropWhile_append_of_pos hspace, skipSpace]

/-- A digit is neither a blank nor one of the characters that begin or end other values. -/
theorem isDigit_ne {c w : Char} (hc : c.isDigit = true) (hw : w.isDigit = false) : c ≠ w := by
  rintro rfl
  exact absurd (hc.symm.trans hw) (by decide)

/-- A written value begins with a character that is neither a blank nor the end of an array nor a
byte order mark. -/
theorem render_eq_cons {v : Json} (hv : v.Plain) (depth : Nat) :
    ∃ c cs, render depth v = c :: cs ∧ isSpace c = false ∧ c ≠ ']' ∧ c ≠ '\uFEFF' := by
  cases v with
  | null => exact ⟨'n', _, rfl, rfl, by decide, by decide⟩
  | bool b => cases b with
    | true => exact ⟨'t', _, rfl, rfl, by decide, by decide⟩
    | false => exact ⟨'f', _, rfl, rfl, by decide, by decide⟩
  | int n =>
    obtain ⟨c, cs, hcons, rfl | hc⟩ := toString_eq_cons n
    · exact ⟨'-', cs, hcons, rfl, by decide, by decide⟩
    · have hne := fun w => isDigit_ne (w := w) hc
      refine ⟨c, cs, hcons, ?_, hne ']' rfl, hne '\uFEFF' rfl⟩
      simp [isSpace, hne ' ' rfl, hne '\t' rfl, hne '\n' rfl, hne '\r' rfl]
  | real x => exact absurd hv id
  | str text => exact ⟨'"', _, rfl, rfl, by decide, by decide⟩
  | arr items => cases items with
    | nil => exact ⟨'[', _, rfl, rfl, by decide, by decide⟩
    | cons item rest => exact ⟨'[', _, rfl, rfl, by decide, by decide⟩
  | obj members => cases members with
    | nil => exact ⟨'\x7b', _, rfl, rfl, by decide, by decide⟩
    | cons m rest => exact ⟨'\x7b', _, rfl, rfl, by decide, by decide⟩

/-- What does not begin like a string, an array or an object is read as an atom. -/
theorem value_eq_atom {c : Char} (hstring : c ≠ '"') (harray : c ≠ '[') (hobject : c ≠ '\x7b')
    (n : Nat) (cs : List Char) : value (n + 1) (c :: cs) = atom (c :: cs) := by
  rw [value]
  all_goals simp_all

/-- A member with a new name comes last. -/
theorem insertMember_of_notMem {key : String} {members : List (String × Json)}
    (h : key ∉ members.map (·.1)) (item : Json) :
    insertMember key item members = members ++ [(key, item)] := by
  induction members with
  | nil => rfl
  | cons m rest ih =>
    rw [List.map_cons, List.mem_cons, not_or] at h
    rw [insertMember, if_neg (Ne.symm h.1), ih h.2, List.cons_append]

theorem bind_ok {α β : Type} (a : α) (next : α → Except Failure β) :
    (Except.ok a : Except Failure α) >>= next = next a := rfl

/-! ## Values, items and members -/

/-- A written integer is read back as a value. -/
theorem value_int (i : Int) (n : Nat) {rest : List Char} (hrest : continuesNumber rest = false) :
    Reads (value (n + 1) ((toString i).toList ++ rest)) (int i) [i] rest := by
  obtain ⟨left, hread⟩ := atom_toString i hrest
  obtain ⟨c, cs, hcons, hc⟩ := toString_eq_cons i
  have hne : ∀ w : Char, '-' ≠ w → w.isDigit = false → c ≠ w := by
    intro w hminus hw
    rcases hc with rfl | hc
    · exact hminus
    · exact isDigit_ne hc hw
  rw [hcons, List.cons_append] at hread ⊢
  rw [value_eq_atom (hne _ (by decide) rfl) (hne _ (by decide) rfl) (hne _ (by decide) rfl), hread]
  exact ⟨left, by simp⟩

mutual

theorem value_render (v : Json) (hv : v.Plain) (depth n : Nat) (rest : List Char)
    (hrest : continuesNumber rest = false) (hn : 2 * (render depth v ++ rest).length < n) :
    Reads (value n (render depth v ++ rest)) v v.integers rest := by
  obtain ⟨n, rfl⟩ := Nat.exists_eq_succ_of_ne_zero (Nat.ne_of_gt (Nat.zero_lt_of_lt hn))
  cases v with
  | null => exact ⟨[], rfl⟩
  | bool b => cases b <;> exact ⟨[], rfl⟩
  | int i => exact value_int i n hrest
  | real x => exact absurd hv id
  | str text =>
    refine ⟨[], ?_⟩
    rw [render, quote, List.cons_append, List.append_assoc, List.singleton_append, value,
      string_escaped]
    rfl
  | arr items => cases items with
    | nil => exact ⟨[], rfl⟩
    | cons item others =>
      obtain ⟨c, cs, hcons, hspace, hclose, -⟩ := render_eq_cons hv.1 (depth + 1)
      simp only [render, List.cons_append, List.append_assoc, List.nil_append, List.length_cons] at hn ⊢
      have hitems := items_render item others hv.1 hv.2 (depth + 1) depth n rest
        (by rw [List.length_append] at hn; omega)
      -- the first item does not begin with the bracket that would close an empty array
      rw [hcons, List.cons_append] at hitems
      simp only [value]
      rw [skipSpace_newLine, hcons, List.cons_append, skipSpace_cons hspace]
      split
      · rename_i h
        exact absurd (List.cons.inj h).1 hclose
      · exact hitems.bind_pure rfl
  | obj members => cases members with
    | nil => exact ⟨[], rfl⟩
    | cons m others =>
      obtain ⟨key, item⟩ := m
      simp only [render, List.cons_append, List.append_assoc, List.nil_append, List.length_cons] at hn ⊢
      have hmembers := members_render [] key item others hv.1 hv.2.1 hv.2.2 (depth + 1) depth n rest
        (by rw [List.length_append] at hn; omega)
      simp only [value]
      rw [skipSpace_newLine, quote, List.cons_append, skipSpace_cons rfl]
      rw [quote, List.cons_append] at hmembers
      exact hmembers.bind_pure rfl
termination_by n

theorem items_render (item : Json) (others : List Json) (hitem : item.Plain)
    (hothers : PlainItems others) (depth outer n : Nat) (rest : List Char)
    (hn : 2 * (render depth item ++
      (renderItems depth others ++ (newLine outer ++ ']' :: rest))).length + 1 < n) :
    Reads (items n (render depth item ++ (renderItems depth others ++ (newLine outer ++ ']' :: rest))))
      (item :: others) (itemIntegers (item :: others)) rest := by
  obtain ⟨n, rfl⟩ := Nat.exists_eq_succ_of_ne_zero (Nat.ne_of_gt (Nat.zero_lt_of_lt hn))
  rw [items]
  cases others with
  | nil =>
    refine (value_render item hitem depth n _ rfl (by omega)).bind ?_
    simp only [renderItems, List.nil_append, skipSpace_newLine, skipSpace_cons (c := ']') rfl]
    exact Reads.pure [item] rest
  | cons next others =>
    refine (value_render item hitem depth n _ rfl (by omega)).bind ?_
    obtain ⟨c, cs, hcons, hspace, -⟩ := render_eq_cons hothers.1 depth
    simp only [renderItems, List.cons_append, List.append_assoc, skipSpace_cons (c := ',') rfl,
      skipSpace_newLine, List.length_append, List.length_cons] at hn ⊢
    have hitems := items_render next others hothers.1 hothers.2 depth outer n rest
      (by simp only [List.length_append, List.length_cons]; omega)
    rw [hcons, List.cons_append] at hitems ⊢
    rw [skipSpace_cons hspace]
    exact hitems.bind_pure rfl
termination_by n

theorem members_render (before : List (String × Json)) (key : String) (item : Json)
    (others : List (String × Json)) (hkeys : ((before ++ (key, item) :: others).map (·.1)).Nodup)
    (hitem : item.Plain) (hothers : PlainMembers others) (depth outer n : Nat) (rest : List Char)
    (hn : 2 * (quote key ++ ':' :: ' ' :: (render depth item ++
      (renderMembers depth others ++ (newLine outer ++ '\x7d' :: rest)))).length + 1 < n) :
    Reads (members n before (quote key ++ ':' :: ' ' :: (render depth item ++
      (renderMembers depth others ++ (newLine outer ++ '\x7d' :: rest)))))
      (before ++ (key, item) :: others) (memberIntegers ((key, item) :: others)) rest := by
  obtain ⟨n, rfl⟩ := Nat.exists_eq_succ_of_ne_zero (Nat.ne_of_gt (Nat.zero_lt_of_lt hn))
  have hnew : key ∉ before.map (·.1) := by
    rw [List.map_append, List.nodup_append] at hkeys
    exact fun hmem => hkeys.2.2 key hmem key (by simp) rfl
  obtain ⟨c, cs, hcons, hspace, -⟩ := render_eq_cons hitem depth
  -- exactly one blank stands before the value of a member
  have hblank : ∀ more,
      skipSpace (' ' :: (render depth item ++ more)) = render depth item ++ more := by
    intro more
    rw [hcons, List.cons_append, skipSpace, List.dropWhile_cons_of_pos rfl]
    exact skipSpace_cons hspace _
  rw [List.length_append, List.length_cons, List.length_cons] at hn
  rw [quote, List.cons_append, List.append_assoc, List.singleton_append, members, string_escaped]
  simp only [bind_ok, skipSpace_cons (c := ':') rfl, hblank]
  cases others with
  | nil =>
    refine (value_render item hitem depth n _ rfl (by omega)).bind ?_
    simp only [renderMembers, List.nil_append, skipSpace_newLine, skipSpace_cons (c := '\x7d') rfl,
      insertMember_of_notMem hnew]
    exact Reads.pure (before ++ [(key, item)]) rest
  | cons m others =>
    obtain ⟨nextKey, next⟩ := m
    refine (value_render item hitem depth n _ rfl (by omega)).bind ?_
    simp only [renderMembers, List.cons_append, List.append_assoc, List.nil_append,
      skipSpace_cons (c := ',') rfl, skipSpace_newLine, List.length_append, List.length_cons] at hn ⊢
    -- the key is new, so the member comes last among those that were read
    have hmembers := members_render (before ++ [(key, item)]) nextKey next others
      (by simpa using hkeys) hothers.1 hothers.2 depth outer n rest
      (by simp only [List.length_append, List.length_cons]; omega)
    rw [List.append_assoc, List.singleton_append] at hmembers
    rw [insertMember_of_notMem hnew]
    rw [quote, List.cons_append] at hmembers ⊢
    rw [skipSpace_cons rfl]
    exact hmembers
termination_by n

end

/-! ## Texts -/

/-- The reader inverts the writer where every integer is short, and refuses the text otherwise. -/
theorem readText_toText {v : Json} (hv : v.Plain) :
    ∃ left, readText v.toText.toList
      = if ∀ n ∈ v.integers, IsShort n then .ok v else .error ⟨.tooManyDigits, left⟩ := by
  obtain ⟨c, cs, hcons, hspace, -, hmark⟩ := render_eq_cons hv 0
  obtain ⟨left, hread⟩ := value_render v hv 0 (2 * (render 0 v ++ ['\n']).length + 1) ['\n'] rfl
    (Nat.lt_succ_self _)
  refine ⟨left, ?_⟩
  rw [hcons, List.cons_append] at hread
  rw [toText, String.toList_ofList, hcons, List.cons_append, readText, if_neg (by simpa using hmark),
    skipSpace_cons hspace]
  show (value _ _ >>= _) = _
  rw [hread]
  split
  · rfl
  · rfl

theorem parse_toText {v : Json} (hv : v.Plain) (hshort : ∀ n ∈ v.integers, IsShort n) :
    parse v.toText = .ok v := by
  obtain ⟨left, hread⟩ := readText_toText hv
  rw [parse, hread, if_pos hshort]

/-- An integer that is too long cannot be read back. -/
theorem parse_toText_of_long {v : Json} (hv : v.Plain) (hlong : ¬ ∀ n ∈ v.integers, IsShort n) :
    ∃ error, parse v.toText = .error error ∧ error.fault = .tooManyDigits := by
  obtain ⟨left, hread⟩ := readText_toText hv
  rw [parse, hread, if_neg hlong]
  exact ⟨_, rfl, rfl⟩

end CInterop.Json
