import CInterop.Proofs.Extraction.Course

/-!
# What tags may be called

A tag is called by its own name or by one that is made up for it: from the names that it shares with
something else, from a field and its record, or from a place. New names are compared with the ordinary
names only, and places are told without their files. So two tags may be given one name, unless the
source keeps the names apart that nothing else does. What it must keep apart is a condition on the
header; what is proved from it is that no two tags are given one name.
-/

namespace CInterop.Extraction

open FrontEnd Header

/-! ## Names that are made up of others -/

/-- A text with an underscore before its last part can be read in one way. -/
theorem eq_and_eq_of_underscore {a b a' b' : String} (hb : '_' ∉ b.toList) (hb' : '_' ∉ b'.toList)
    (h : a ++ "_" ++ b = a' ++ "_" ++ b') : a = a' ∧ b = b' := by
  have hlists : a.toList ++ '_' :: b.toList = a'.toList ++ '_' :: b'.toList := by
    have hlists := congrArg String.toList h
    rwa [String.toList_append, String.toList_append, String.toList_append, String.toList_append,
      List.append_assoc, List.append_assoc] at hlists
  -- where one text began earlier with its last part, that part would have an underscore
  have hnone {between cs cs' : List Char} (hcs : '_' ∉ cs)
      (h : '_' :: cs = between ++ '_' :: cs') : between = [] ∧ cs = cs' := by
    cases between with
    | nil => exact ⟨rfl, (List.cons.inj h).2⟩
    | cons _ between =>
      refine absurd ?_ hcs
      rw [(List.cons.inj h).2]
      exact List.mem_append_right _ List.mem_cons_self
  rcases List.append_eq_append_iff.mp hlists with ⟨between, ha, hrest⟩ | ⟨between, ha, hrest⟩
  · obtain ⟨rfl, hlast⟩ := hnone hb hrest
    rw [List.append_nil] at ha
    exact ⟨String.toList_inj.mp ha.symm, String.toList_inj.mp hlast⟩
  · obtain ⟨rfl, hlast⟩ := hnone hb' hrest
    rw [List.append_nil] at ha
    exact ⟨String.toList_inj.mp ha, String.toList_inj.mp hlast.symm⟩

theorem isDigit_of_mem_repr {n : Nat} {ch : Char} (h : ch ∈ n.repr.toList) : ch.isDigit = true := by
  rw [Nat.toList_repr] at h
  exact Nat.isDigit_of_mem_toDigits (by decide) (by decide) h

/-- An integer is written with a sign and digits. -/
theorem eq_or_isDigit_of_mem_repr {n : Int} {ch : Char} (h : ch ∈ n.repr.toList) :
    ch = '-' ∨ ch.isDigit = true := by
  rw [Int.repr_eq_if] at h
  split at h
  · exact .inr (isDigit_of_mem_repr h)
  · rw [String.toList_append] at h
    rcases List.mem_append.mp h with hsign | hm
    · exact .inl (List.mem_singleton.mp hsign)
    · exact .inr (isDigit_of_mem_repr hm)

theorem underscore_notMem_repr (n : Int) : '_' ∉ n.repr.toList := by
  intro h
  rcases eq_or_isDigit_of_mem_repr h with h | h
  · exact absurd h (by decide)
  · exact absurd h (by decide)

theorem natRepr_inj {n n' : Nat} (h : n.repr = n'.repr) : n = n' := by
  have hdigits : Nat.toDigits 10 n = Nat.toDigits 10 n' := by
    rw [← Nat.toList_repr, h, Nat.toList_repr]
  rw [← Nat.ofDigitChars_ten_toDigits (n := n), hdigits, Nat.ofDigitChars_ten_toDigits]

/-- Different integers are written differently. -/
theorem intRepr_inj {n n' : Int} (h : n.repr = n'.repr) : n = n' := by
  have hsign (m m' : Nat) : m.repr ≠ "-" ++ m'.repr := by
    intro h
    have hmem : '-' ∈ m.repr.toList := by
      rw [h, String.toList_append]
      exact List.mem_append_left _ (List.mem_singleton_self _)
    exact absurd (isDigit_of_mem_repr hmem) (by decide)
  rw [Int.repr_eq_if, Int.repr_eq_if] at h
  split at h <;> split at h
  · have := natRepr_inj h
    omega
  · exact absurd h (hsign _ _)
  · exact absurd h.symm (hsign _ _)
  · have := natRepr_inj ((String.append_right_inj "-").mp h)
    omega

theorem label_mem (k : EntityKind) : k.label ∈ ["Struct", "Union", "Enum"] := by
  unfold EntityKind.label
  split <;> decide

theorem keyword_mem (k : EntityKind) : k.keyword ∈ ["struct", "union", "enum"] := by
  unfold EntityKind.keyword
  split <;> decide

theorem underscore_notMem_label (k : EntityKind) : '_' ∉ k.label.toList := by
  have hall : ∀ label ∈ ["Struct", "Union", "Enum"], '_' ∉ label.toList := by decide
  exact hall _ (label_mem k)

/-- A label is no number. -/
theorem label_ne_repr (k : EntityKind) (n : Int) : k.label ≠ n.repr := by
  intro h
  have hall : ∀ label ∈ ["Struct", "Union", "Enum"],
      (label.toList.all fun ch => ch == '-' || ch.isDigit) = false := by decide
  have hnot := hall _ (label_mem k)
  rw [List.all_eq_false] at hnot
  obtain ⟨ch, hmem, hother⟩ := hnot
  rw [h] at hmem
  rcases eq_or_isDigit_of_mem_repr hmem with h | h
  · exact hother (by rw [h]; rfl)
  · exact hother (by rw [h, Bool.or_true])

/-- The name of an anonymous tag by its place. -/
def placeName (e : Entity) : String := s!"Anonymous_{e.kind.label}_{e.line}_{e.column}"

/-- The name of an anonymous tag by a field of a record. -/
def fieldName (record : String) (f e : Entity) : String := s!"{record}_{f.spelling}_{e.kind.label}"

theorem placeName_inj {e e' : Entity} (h : placeName e = placeName e') :
    e.kind.label = e'.kind.label ∧ e.line = e'.line ∧ e.column = e'.column := by
  obtain ⟨h, hcolumn⟩ := eq_and_eq_of_underscore (underscore_notMem_repr _) (underscore_notMem_repr _) h
  obtain ⟨h, hline⟩ := eq_and_eq_of_underscore (underscore_notMem_repr _) (underscore_notMem_repr _) h
  exact ⟨(String.append_right_inj _).mp h, intRepr_inj hline, intRepr_inj hcolumn⟩

theorem fieldName_inj {record record' : String} {f f' e e' : Entity}
    (h : fieldName record f e = fieldName record' f' e') :
    record ++ "_" ++ f.spelling = record' ++ "_" ++ f'.spelling :=
  (eq_and_eq_of_underscore (underscore_notMem_label _) (underscore_notMem_label _) h).1

theorem fieldName_ne_placeName {record : String} {f e e' : Entity} :
    fieldName record f e ≠ placeName e' := fun h =>
  label_ne_repr _ _
    (eq_and_eq_of_underscore (underscore_notMem_label _) (underscore_notMem_repr _) h).2

/-- A new name is the first one that is tried, with underscores after it only if that is taken. -/
theorem exists_toList_freshName (taken : List String) (steps : Nat) (name : String) :
    ∃ n, (freshName taken steps name).toList = name.toList ++ List.replicate n '_' ∧
      (name ∉ taken → n = 0) := by
  induction steps generalizing name with
  | zero => exact ⟨0, by rw [List.replicate_zero, List.append_nil]; rfl, fun _ => rfl⟩
  | succ steps ih =>
    unfold freshName
    split
    · rename_i htaken
      obtain ⟨n, hn, -⟩ := ih (name ++ "_")
      refine ⟨n + 1, ?_, fun hfree => absurd (List.contains_iff_mem.mp htaken) hfree⟩
      rw [hn, String.toList_append, List.append_assoc, List.replicate_succ]
      rfl
    · exact ⟨0, by rw [List.replicate_zero, List.append_nil], fun _ => rfl⟩

theorem exists_toList_newTagName (c : Setting) (keyword name : String) :
    ∃ n, (c.newTagName keyword name).toList =
        keyword.toList ++ '_' :: name.toList ++ List.replicate n '_' ∧
      (s!"{keyword}_{name}" ∉ c.ordinaryNames → n = 0) := by
  obtain ⟨n, hn, hfree⟩ :=
    exists_toList_freshName c.ordinaryNames c.ordinaryNames.length s!"{keyword}_{name}"
  refine ⟨n, hn.trans ?_, hfree⟩
  show (keyword ++ "_" ++ name).toList ++ _ = _
  rw [String.toList_append, String.toList_append, List.append_assoc keyword.toList]
  rfl

/-- A new name begins like its keyword. -/
theorem head?_newTagName (c : Setting) (k : EntityKind) (name : String) :
    (c.newTagName k.keyword name).toList.head? = k.keyword.toList.head? := by
  obtain ⟨n, hn, -⟩ := exists_toList_newTagName c k.keyword name
  have hall : ∀ keyword ∈ ["struct", "union", "enum"], keyword.toList ≠ [] := by decide
  rw [hn, List.append_assoc, List.head?_append_of_ne_nil _ (hall _ (keyword_mem k))]

theorem keyword_eq_of_newTagName {c : Setting} {k k' : EntityKind} {name name' : String}
    (h : c.newTagName k.keyword name = c.newTagName k'.keyword name') : k.keyword = k'.keyword := by
  have hall : ∀ keyword ∈ ["struct", "union", "enum"], ∀ keyword' ∈ ["struct", "union", "enum"],
      keyword.toList.head? = keyword'.toList.head? → keyword = keyword' := by decide
  refine hall _ (keyword_mem k) _ (keyword_mem k') ?_
  rw [← head?_newTagName c k name, h, head?_newTagName]

theorem newTagName_ne_placeName {c : Setting} {k : EntityKind} {name : String} {e : Entity} :
    c.newTagName k.keyword name ≠ placeName e := by
  intro h
  have hall : ∀ keyword ∈ ["struct", "union", "enum"], keyword.toList.head? ≠ some 'A' := by decide
  refine hall _ (keyword_mem k) ?_
  rw [← head?_newTagName c k name, h]
  show ("Anonymous_" ++ e.kind.label ++ "_" ++ e.line.repr ++ "_" ++ e.column.repr).toList.head? = _
  simp only [String.toList_append, List.append_assoc]
  rfl

/-! ## What the source says -/

/-- The tags that types name. -/
def Setting.tags (c : Setting) : List Entity :=
  (List.range c.translation.types.size).filterMap fun n => c.translation.tag? ⟨some n⟩

/-- The entity is a function, a variable, a macro or a typedef at the top level. -/
structure IsOrdinary (c : Setting) (d : Entity) : Prop where
  top : d ∈ c.translation.topLevel
  kind : d.kind ∈ [EntityKind.function, .global, .constant, .typedef]

/-- The name is in the source, for a tag or for something ordinary. -/
inductive IsSpelled (c : Setting) : String → Prop where
  | tag {e : Entity} : IsTag c e → isAnonymous e = false → IsSpelled c e.spelling
  | ordinary {d : Entity} : IsOrdinary c d → IsSpelled c d.spelling

/-- The typedef is one that an anonymous tag may be named by. -/
structure NamesByTypedef (c : Setting) (d e : Entity) : Prop where
  top : d ∈ c.translation.topLevel
  kind : d.kind = .typedef
  tag : c.translation.tag? d.underlying = some e
  anonymous : isAnonymous e = true

/-- The field is one that an anonymous tag may be named by. -/
structure NamesByField (c : Setting) (owner f e : Entity) : Prop where
  record : IsTag c owner
  field : f ∈ fieldsOf c owner
  tag : c.translation.tag? f.type = some e
  anonymous : isAnonymous e = true

/-- The tag is without a name, and no typedef gives it one. -/
structure IsNameless (c : Setting) (e : Entity) : Prop where
  tag : IsTag c e
  anonymous : isAnonymous e = true
  unnamed : ∀ d, ¬ NamesByTypedef c d e

/-- The tag has a name that something ordinary has as well. -/
structure IsRenamed (c : Setting) (e : Entity) : Prop where
  tag : IsTag c e
  named : isAnonymous e = false
  ordinary : e.spelling ∈ c.ordinaryNames

/-- The name that is chosen for such a tag. -/
def Setting.newNameOf (c : Setting) (e : Entity) : String := c.newTagName e.kind.keyword e.spelling

section

variable {c : Setting} {d e owner f : Entity} {name : String}

theorem isTag_iff_mem_tags : IsTag c e ↔ e ∈ c.tags := by
  unfold Setting.tags
  simp only [List.mem_filterMap, List.mem_range]
  constructor
  · rintro ⟨⟨index⟩, htag⟩
    have hnone : c.type ⟨index⟩ ≠ {} := by
      intro hdefault
      have hunwrap : c.translation.unwrap ⟨index⟩ = ⟨index⟩ := by
        unfold Translation.unwrap Translation.unwrapWithin
        refine if_neg fun helaborated => ?_
        change (c.type ⟨index⟩).kind = .elaborated at helaborated
        rw [hdefault] at helaborated
        cases helaborated
      rcases kind_of_tag? htag with h | h <;> rw [hunwrap, hdefault] at h <;> cases h
    cases index with
    | none => exact absurd rfl hnone
    | some n =>
      refine ⟨n, ?_, htag⟩
      by_contra hle
      refine hnone ?_
      show (c.translation.types[n]?).getD {} = {}
      rw [Array.getElem?_eq_none (by omega)]
      rfl
  · rintro ⟨n, -, htag⟩
    exact ⟨⟨some n⟩, htag⟩

theorem IsTag.mem (h : IsTag c e) : e ∈ c.tags := isTag_iff_mem_tags.mp h

theorem NamesByTypedef.isOrdinary (h : NamesByTypedef c d e) : IsOrdinary c d :=
  ⟨h.top, by rw [h.kind]; decide⟩

theorem NamesByTypedef.isTag (h : NamesByTypedef c d e) : IsTag c e := ⟨_, h.tag⟩

theorem NamesByField.isTag (h : NamesByField c owner f e) : IsTag c e := ⟨_, h.tag⟩

instance : Decidable (IsTag c e) := decidable_of_iff _ isTag_iff_mem_tags.symm

instance : Decidable (IsOrdinary c d) :=
  decidable_of_iff (d ∈ c.translation.topLevel ∧
      d.kind ∈ [EntityKind.function, .global, .constant, .typedef])
    ⟨fun h => ⟨h.1, h.2⟩, fun h => ⟨h.top, h.kind⟩⟩

instance : Decidable (NamesByTypedef c d e) :=
  decidable_of_iff (d ∈ c.translation.topLevel ∧ d.kind = .typedef ∧
      c.translation.tag? d.underlying = some e ∧ isAnonymous e = true)
    ⟨fun h => ⟨h.1, h.2.1, h.2.2.1, h.2.2.2⟩, fun h => ⟨h.top, h.kind, h.tag, h.anonymous⟩⟩

instance : Decidable (NamesByField c owner f e) :=
  decidable_of_iff (IsTag c owner ∧ f ∈ fieldsOf c owner ∧
      c.translation.tag? f.type = some e ∧ isAnonymous e = true)
    ⟨fun h => ⟨h.1, h.2.1, h.2.2.1, h.2.2.2⟩, fun h => ⟨h.record, h.field, h.tag, h.anonymous⟩⟩

instance : Decidable (IsNameless c e) :=
  decidable_of_iff (IsTag c e ∧ isAnonymous e = true ∧
      ∀ d ∈ c.translation.topLevel, ¬ NamesByTypedef c d e)
    ⟨fun h => ⟨h.1, h.2.1, fun d hd => h.2.2 d hd.top hd⟩,
      fun h => ⟨h.tag, h.anonymous, fun d _ => h.unnamed d⟩⟩

instance : Decidable (IsRenamed c e) :=
  decidable_of_iff (IsTag c e ∧ isAnonymous e = false ∧ e.spelling ∈ c.ordinaryNames)
    ⟨fun h => ⟨h.1, h.2.1, h.2.2⟩, fun h => ⟨h.tag, h.named, h.ordinary⟩⟩

instance : Decidable (IsSpelled c name) :=
  decidable_of_iff ((∃ e ∈ c.tags, isAnonymous e = false ∧ e.spelling = name) ∨
      ∃ d ∈ c.translation.topLevel, IsOrdinary c d ∧ d.spelling = name) <| by
    constructor
    · rintro (⟨e, htag, hnamed, rfl⟩ | ⟨d, -, hd, rfl⟩)
      · exact .tag (isTag_iff_mem_tags.mpr htag) hnamed
      · exact .ordinary hd
    · rintro (⟨htag, hnamed⟩ | ⟨hd⟩)
      · exact .inl ⟨_, isTag_iff_mem_tags.mp htag, hnamed, rfl⟩
      · exact .inr ⟨_, hd.top, hd, rfl⟩

end

/-! ## What tags may be called -/

/-- A name for the tag that is in the source. -/
inductive IsNameOf (c : Setting) (e : Entity) : String → Prop where
  | own : IsTag c e → isAnonymous e = false → e.spelling ∉ c.ordinaryNames → IsNameOf c e e.spelling
  | typedef {d : Entity} : NamesByTypedef c d e → IsNameOf c e d.spelling

/-- What a tag may be called. -/
inductive MayBeCalled (c : Setting) : Entity → String → Prop where
  | spelled {e : Entity} {name : String} : IsNameOf c e name → MayBeCalled c e name
  | renamed {e : Entity} : IsRenamed c e → MayBeCalled c e (c.newNameOf e)
  | field {owner f e : Entity} {record : String} : NamesByField c owner f e →
      MayBeCalled c owner record → MayBeCalled c e (fieldName record f e)
  | place {e : Entity} : IsNameless c e → MayBeCalled c e (placeName e)

section

variable {c : Setting} {e : Entity} {name : String}

theorem IsNameOf.isSpelled (h : IsNameOf c e name) : IsSpelled c name := by
  cases h with
  | own htag hnamed _ => exact .tag htag hnamed
  | typedef hd => exact .ordinary hd.isOrdinary

theorem MayBeCalled.isTag (h : MayBeCalled c e name) : IsTag c e := by
  cases h with
  | spelled h =>
    cases h with
    | own htag _ _ => exact htag
    | typedef hd => exact hd.isTag
  | renamed h => exact h.tag
  | field h _ => exact ⟨_, h.tag⟩
  | place h => exact h.tag

/-- These are all names that tags may have: with the name of a record there are those of its fields. -/
structure Covers (c : Setting) (names : List (Entity × String)) : Prop where
  own : ∀ e ∈ c.tags, isAnonymous e = false → e.spelling ∉ c.ordinaryNames → (e, e.spelling) ∈ names
  typedef : ∀ e ∈ c.tags, ∀ d ∈ c.translation.topLevel, NamesByTypedef c d e →
    (e, d.spelling) ∈ names
  renamed : ∀ e ∈ c.tags, IsRenamed c e → (e, c.newNameOf e) ∈ names
  field : ∀ e ∈ c.tags, ∀ p ∈ names, ∀ f ∈ fieldsOf c p.1, NamesByField c p.1 f e →
    (e, fieldName p.2 f e) ∈ names
  place : ∀ e ∈ c.tags, IsNameless c e → (e, placeName e) ∈ names

theorem MayBeCalled.mem {names : List (Entity × String)} (hnames : Covers c names)
    (h : MayBeCalled c e name) : (e, name) ∈ names := by
  induction h with
  | spelled h =>
    cases h with
    | own htag hnamed hfree => exact hnames.own _ htag.mem hnamed hfree
    | typedef hd => exact hnames.typedef _ hd.isTag.mem _ hd.top hd
  | renamed h => exact hnames.renamed _ h.tag.mem h
  | field h _ ih => exact hnames.field _ h.isTag.mem _ ih _ h.field h
  | place h => exact hnames.place _ h.tag.mem h

end

/-! ## Names are unambiguous -/

/-- The source keeps apart what new names are not compared with and what places do not tell. -/
structure TellsApart (c : Setting) : Prop where
  /-- No tag is where an anonymous one is. -/
  spots : ∀ e ∈ c.tags, ∀ e' ∈ c.tags, isAnonymous e = true → e.spot = e'.spot → e = e'
  /-- Tags with names have different ones. -/
  spellings : ∀ e ∈ c.tags, ∀ e' ∈ c.tags, isAnonymous e = false → isAnonymous e' = false →
    e.spelling = e'.spelling → e = e'
  /-- The name that a typedef gives to an anonymous tag is given to nothing else. -/
  typedefs : ∀ e ∈ c.tags, ∀ d ∈ c.translation.topLevel, ∀ d' ∈ c.translation.topLevel,
    NamesByTypedef c d e → IsOrdinary c d' → d'.spelling = d.spelling →
      d'.kind = .typedef ∧ c.translation.tag? d'.underlying = some e
  /-- A tag that is called like something predefined or like such a typedef is renamed. -/
  ordinary : ∀ e ∈ c.tags, ∀ d ∈ c.translation.topLevel, isAnonymous e = false → IsOrdinary c d →
    (d.file = none ∨ ∃ e' ∈ c.tags, NamesByTypedef c d e') → d.spelling = e.spelling →
      e.spelling ∈ c.ordinaryNames
  /-- Of the names in the source only those that a new name is compared with could be the same. -/
  renamed : ∀ e ∈ c.tags, IsRenamed c e → IsSpelled c (c.newNameOf e) →
    c.newNameOf e ∈ c.ordinaryNames
  /-- A new name gets no underscores where a tag has a name with more of them. -/
  underscores : ∀ e ∈ c.tags, ∀ e' ∈ c.tags, IsRenamed c e → IsRenamed c e' →
    e.kind.keyword = e'.kind.keyword →
    ∀ n, e'.spelling.toList = e.spelling.toList ++ List.replicate (n + 1) '_' →
      s!"{e.kind.keyword}_{e.spelling}" ∉ c.ordinaryNames
  /-- Fields of one record have different names. -/
  fields : ∀ owner ∈ c.tags, ∀ f ∈ fieldsOf c owner, ∀ f' ∈ fieldsOf c owner, ∀ e ∈ c.tags,
    ∀ e' ∈ c.tags, NamesByField c owner f e → NamesByField c owner f' e' →
      f.spelling = f'.spelling → e = e'
  /-- A name that is made up of those of a record and a field tells where that of the field begins. -/
  joins : ∀ owner owner' f f' e e' record record', NamesByField c owner f e →
    MayBeCalled c owner record → NamesByField c owner' f' e' → MayBeCalled c owner' record' →
    fieldName record f e = fieldName record' f' e' → f.spelling = f'.spelling
  /-- It is neither in the source nor a new name. -/
  fieldNames : ∀ owner f e record, NamesByField c owner f e → MayBeCalled c owner record →
    ¬ IsSpelled c (fieldName record f e) ∧
      ∀ e' ∈ c.tags, IsRenamed c e' → c.newNameOf e' ≠ fieldName record f e
  /-- Nameless tags of one sort are in different lines or columns, whatever files they are in. -/
  places : ∀ e ∈ c.tags, ∀ e' ∈ c.tags, IsNameless c e → IsNameless c e' →
    e.kind.label = e'.kind.label → e.line = e'.line → e.column = e'.column → e = e'
  /-- Nothing in the source is called like a place. -/
  placeNames : ∀ e ∈ c.tags, IsNameless c e → ¬ IsSpelled c (placeName e)

section

variable {c : Setting} {d e e' : Entity} {name name' : String}

/-- What is ordinary, is called like a tag and takes no ordinary name is a typedef of the tag. -/
theorem TellsApart.typedef_of_free (hc : TellsApart c) (hd : IsOrdinary c d) (htag : IsTag c e)
    (hnamed : isAnonymous e = false) (hfree : e.spelling ∉ c.ordinaryNames)
    (heq : d.spelling = e.spelling) :
    d.kind = .typedef ∧ c.translation.tag? d.underlying = some e := by
  have hfile : d.file.isSome = true := by
    rw [Option.isSome_iff_ne_none]
    exact fun hnone => hfree (hc.ordinary _ htag.mem _ hd.top hnamed hd (.inl hnone) heq)
  -- it would take an ordinary name if it were no typedef that repeats the name of its tag
  have htakes : c.takesOrdinaryName d = false := by
    by_contra htakes
    rw [Bool.not_eq_false] at htakes
    exact hfree (heq ▸ List.mem_map_of_mem (List.mem_filter.mpr ⟨hd.top, htakes⟩))
  unfold Setting.takesOrdinaryName at htakes
  rw [hfile, Bool.true_and] at htakes
  have hkind : d.kind = .typedef := by
    rcases hd with ⟨-, hkind⟩
    simp only [List.mem_cons, List.not_mem_nil, or_false] at hkind
    rcases hkind with h | h | h | h
    · rw [h] at htakes; cases htakes
    · rw [h] at htakes; cases htakes
    · rw [h] at htakes; cases htakes
    · exact h
  rw [hkind] at htakes
  cases hunderlying : c.translation.tag? d.underlying with
  | none => rw [hunderlying] at htakes; cases htakes
  | some tag =>
    rw [hunderlying] at htakes
    have hspelling : tag.spelling = d.spelling := by simpa using htakes
    have htag' : isAnonymous tag = false := by
      by_contra hanonymous
      rw [Bool.not_eq_false] at hanonymous
      have hnames : NamesByTypedef c d tag := ⟨hd.top, hkind, hunderlying, hanonymous⟩
      exact hfree (hc.ordinary _ htag.mem _ hd.top hnamed hd (.inr ⟨_, hnames.isTag.mem, hnames⟩) heq)
    refine ⟨hkind, congrArg some ?_⟩
    have hmem : tag ∈ c.tags := IsTag.mem ⟨_, hunderlying⟩
    exact hc.spellings _ hmem _ htag.mem htag' hnamed (hspelling.trans heq)

theorem TellsApart.eq_of_isNameOf (hc : TellsApart c) (h : IsNameOf c e name)
    (h' : IsNameOf c e' name') (heq : name = name') : e = e' := by
  have hmixed {d e e' : Entity} (htag : IsTag c e) (hnamed : isAnonymous e = false)
      (hfree : e.spelling ∉ c.ordinaryNames) (hd : NamesByTypedef c d e') :
      d.spelling ≠ e.spelling := fun heq =>
    hfree (hc.ordinary _ htag.mem _ hd.top hnamed hd.isOrdinary (.inr ⟨_, hd.isTag.mem, hd⟩) heq)
  cases h with
  | own htag hnamed hfree =>
    cases h' with
    | own htag' hnamed' _ => exact hc.spellings _ htag.mem _ htag'.mem hnamed hnamed' heq
    | typedef hd' => exact absurd heq.symm (hmixed htag hnamed hfree hd')
  | typedef hd =>
    cases h' with
    | own htag' hnamed' hfree' => exact absurd heq (hmixed htag' hnamed' hfree' hd)
    | typedef hd' =>
      have h := (hc.typedefs _ hd.isTag.mem _ hd.top _ hd'.top hd hd'.isOrdinary heq.symm).2
      rw [hd'.tag] at h
      exact (Option.some.inj h).symm

theorem TellsApart.notSpelled_newNameOf (hc : TellsApart c) (h : IsRenamed c e) :
    ¬ IsSpelled c (c.newNameOf e) := fun hspelled =>
  freshName_notMem _ _ (hc.renamed _ h.tag.mem h hspelled)

/-- New names tell which tags they are for. -/
theorem TellsApart.eq_of_newNameOf (hc : TellsApart c) (h : IsRenamed c e) (h' : IsRenamed c e')
    (heq : c.newNameOf e = c.newNameOf e') : e = e' := by
  have hkeyword : e.kind.keyword = e'.kind.keyword := keyword_eq_of_newTagName heq
  obtain ⟨n, hn, hfree⟩ := exists_toList_newTagName c e.kind.keyword e.spelling
  obtain ⟨n', hn', hfree'⟩ := exists_toList_newTagName c e'.kind.keyword e'.spelling
  have hlists : e.spelling.toList ++ List.replicate n '_' =
      e'.spelling.toList ++ List.replicate n' '_' := by
    have hlists := hn.symm.trans ((congrArg String.toList heq).trans hn')
    rw [hkeyword, List.append_assoc, List.append_assoc] at hlists
    exact (List.cons.inj (List.append_cancel_left hlists)).2
  -- where one name got more underscores, the other one had them
  have hmore {e e' : Entity} {n k : Nat} (h : IsRenamed c e) (h' : IsRenamed c e')
      (hkeyword : e.kind.keyword = e'.kind.keyword)
      (hfree : s!"{e.kind.keyword}_{e.spelling}" ∉ c.ordinaryNames → n + k + 1 = 0)
      (hlists : e.spelling.toList ++ List.replicate (n + k + 1) '_' =
        e'.spelling.toList ++ List.replicate n '_') : False := by
    rw [Nat.add_assoc, Nat.add_comm, List.replicate_add, ← List.append_assoc] at hlists
    have hspelling := List.append_cancel_right hlists
    have := hfree (hc.underscores _ h.tag.mem _ h'.tag.mem h h' hkeyword _ hspelling.symm)
    omega
  rcases Nat.lt_trichotomy n n' with hlt | rfl | hlt
  · obtain ⟨k, rfl⟩ := Nat.exists_eq_add_of_lt hlt
    exact (hmore h' h hkeyword.symm hfree' hlists.symm).elim
  · have hspelling := String.toList_inj.mp (List.append_cancel_right hlists)
    exact hc.spellings _ h.tag.mem _ h'.tag.mem h.named h'.named hspelling
  · obtain ⟨k, rfl⟩ := Nat.exists_eq_add_of_lt hlt
    exact (hmore h h' hkeyword hfree hlists).elim

/-- No two tags are called by one name. -/
theorem TellsApart.eq_of_mayBeCalled (hc : TellsApart c) (h : MayBeCalled c e name)
    (h' : MayBeCalled c e' name') (heq : name = name') : e = e' := by
  -- the names of owners are compared in the same way, from the outermost record inwards
  induction h generalizing e' name' with
  | spelled h =>
    cases h' with
    | spelled h' => exact hc.eq_of_isNameOf h h' heq
    | renamed h' => exact absurd (heq ▸ h.isSpelled) (hc.notSpelled_newNameOf h')
    | field h' howner' => exact absurd (heq ▸ h.isSpelled) (hc.fieldNames _ _ _ _ h' howner').1
    | place h' => exact absurd (heq ▸ h.isSpelled) (hc.placeNames _ h'.tag.mem h')
  | renamed h =>
    cases h' with
    | spelled h' => exact absurd (heq ▸ h'.isSpelled) (hc.notSpelled_newNameOf h)
    | renamed h' => exact hc.eq_of_newNameOf h h' heq
    | field h' howner' => exact absurd heq ((hc.fieldNames _ _ _ _ h' howner').2 _ h.tag.mem h)
    | place h' => exact absurd heq newTagName_ne_placeName
  | field h howner ih =>
    cases h' with
    | spelled h' => exact absurd (heq ▸ h'.isSpelled) (hc.fieldNames _ _ _ _ h howner).1
    | renamed h' => exact absurd heq.symm ((hc.fieldNames _ _ _ _ h howner).2 _ h'.tag.mem h')
    | field h' howner' =>
      have hfield := hc.joins _ _ _ _ _ _ _ _ h howner h' howner' heq
      have hrecord := fieldName_inj heq
      rw [hfield] at hrecord
      obtain rfl := ih howner'
        ((String.append_left_inj _).mp ((String.append_left_inj _).mp hrecord))
      exact hc.fields _ h.record.mem _ h.field _ h'.field _ h.isTag.mem _ h'.isTag.mem h h' hfield
    | place h' => exact absurd heq fieldName_ne_placeName
  | place h =>
    cases h' with
    | spelled h' => exact absurd (heq ▸ h'.isSpelled) (hc.placeNames _ h.tag.mem h)
    | renamed h' => exact absurd heq.symm newTagName_ne_placeName
    | field h' howner' => exact absurd heq.symm fieldName_ne_placeName
    | place h' =>
      obtain ⟨hlabel, hline, hcolumn⟩ := placeName_inj heq
      exact hc.places _ h.tag.mem _ h'.tag.mem h h' hlabel hline hcolumn

/-- What is ordinary and called like a tag is a typedef of the tag. -/
theorem TellsApart.typedef_of_mayBeCalled (hc : TellsApart c) (h : MayBeCalled c e name)
    (hd : IsOrdinary c d) (heq : d.spelling = name) :
    d.kind = .typedef ∧ c.translation.tag? d.underlying = some e := by
  cases h with
  | spelled h =>
    cases h with
    | own htag hnamed hfree => exact hc.typedef_of_free hd htag hnamed hfree heq
    | typedef hd' => exact hc.typedefs _ hd'.isTag.mem _ hd'.top _ hd.top hd' hd heq
  | renamed h => exact absurd (heq ▸ .ordinary hd) (hc.notSpelled_newNameOf h)
  | field h howner => exact absurd (heq ▸ .ordinary hd) (hc.fieldNames _ _ _ _ h howner).1
  | place h => exact absurd (heq ▸ .ordinary hd) (hc.placeNames _ h.tag.mem h)

end

end CInterop.Extraction
