import Mathlib.Algebra.Order.BigOperators.Group.List
import Mathlib.Algebra.Order.Ring.Nat
import CInterop.Proofs.Extraction.Course
import CInterop.Proofs.Extraction.Telling

/-!
# What is left to be entered

Resolving a type gives up no name that is reserved, and a tag whose name was decided keeps it. So less
and less is left to be entered. An entity can be entered under its own spelling, as a typedef, and under
the name it has as a tag. That name changes once at most: where tags share a place, one of them may be
named by what was decided for the other.
-/

namespace CInterop.Extraction

open FrontEnd Header

variable {c : Setting} {s s' s'' : State} {e : Entity}

/-! ## Names of tags -/

/-- The name of a tag with a name of its own, as far as it is decided by the state. -/
def Setting.ownNameOf (c : Setting) (s : State) (e : Entity) : String :=
  if c.ordinaryNames.contains e.spelling then
    (s.tagRenames.lookup (e.kind.keyword, e.spelling)).getD (c.newTagName e.kind.keyword e.spelling)
  else e.spelling

/-- The name of a tag, as far as it is decided by the state. -/
def Setting.nameOf (c : Setting) (s : State) (e : Entity) : String :=
  (s.tagNames.lookup e.spot).getD
    (if isAnonymous e then s!"Anonymous_{e.kind.label}_{e.line}_{e.column}" else c.ownNameOf s e)

/-- What was reserved stays reserved, and what was decided about names stays decided. -/
structure Retains (c : Setting) (s s' : State) : Prop where
  names : s.registry.names ⊆ s'.registry.names
  tagNames : ∀ spot name, s.tagNames.lookup spot = some name → s'.tagNames.lookup spot = some name
  ownNames : ∀ e, c.ownNameOf s' e = c.ownNameOf s e

namespace Retains

theorem refl (c : Setting) (s : State) : Retains c s s :=
  ⟨List.Subset.refl _, fun _ _ h => h, fun _ => rfl⟩

theorem trans (h : Retains c s s') (h' : Retains c s' s'') : Retains c s s'' :=
  ⟨List.Subset.trans h.names h'.names, fun spot name hlookup =>
    h'.tagNames spot name (h.tagNames spot name hlookup),
    fun e => (h'.ownNames e).trans (h.ownNames e)⟩

/-- A change that decides nothing about tags. -/
theorem of_names (hnames : s.registry.names ⊆ s'.registry.names) (htags : s'.tagNames = s.tagNames)
    (hrenames : s'.tagRenames = s.tagRenames) : Retains c s s' := by
  refine ⟨hnames, fun spot name hlookup => htags ▸ hlookup, fun e => ?_⟩
  unfold Setting.ownNameOf
  rw [hrenames]

/-- The name of a tag changes only if it is decided for its place. -/
theorem nameOf (h : Retains c s s') (hdecided : (s.tagNames.lookup e.spot).isSome = true ∨
    s'.tagNames.lookup e.spot = none) : c.nameOf s' e = c.nameOf s e := by
  unfold Setting.nameOf
  cases hlookup : s.tagNames.lookup e.spot with
  | some name => rw [h.tagNames _ _ hlookup]; rfl
  | none =>
    rcases hdecided with hsome | hnone
    · rw [hlookup] at hsome
      cases hsome
    · rw [hnone, h.ownNames]

end Retains

namespace Build

variable {α β : Type} {x : Build α}

/-- The step keeps names, wherever it starts and however it ends. -/
def Retaining (c : Setting) (x : Build α) : Prop := ∀ s, Retains c s (after x s)

theorem Retaining.of_ok {a : α} (h : Retaining c x) (hx : x s = .ok a s') : Retains c s s' := by
  have hs := h s
  unfold after at hs
  rwa [hx] at hs

namespace Retaining

theorem pure (a : α) : Retaining c (pure a : Build α) := fun s => .refl c s

theorem throw (stop : Stop) : Retaining c (throw stop : Build α) := fun s => .refl c s

theorem get : Retaining c (MonadState.get : Build State) := fun s => .refl c s

/-- A change that leaves the registry and the names of tags alone. -/
theorem aside {g : State → State} (hregistry : ∀ s, (g s).registry = s.registry)
    (htags : ∀ s, (g s).tagNames = s.tagNames) (hrenames : ∀ s, (g s).tagRenames = s.tagRenames) :
    Retaining c (modify g) :=
  fun s => .of_names (hregistry s ▸ List.Subset.refl _) (htags s) (hrenames s)

theorem bind {f : α → Build β} (hx : Retaining c x) (hf : ∀ a, Retaining c (f a)) :
    Retaining c (x >>= f) :=
  fun s => after_bind Retains.trans (hx s) fun a s' _ => hf a s'

end Retaining

/-! ## Single steps -/

theorem retaining_report (cause : Cause) (place : String) : Retaining c (report cause place) :=
  .aside (fun _ => rfl) (fun _ => rfl) fun _ => rfl

theorem retaining_reserve (name : String) : Retaining c (reserve name) := by
  refine fun s => .of_names ?_ rfl rfl
  show s.registry.names ⊆ (s.registry.reserve name).names
  rw [Registry.names_reserve]
  split
  · exact List.Subset.refl _
  · exact List.subset_append_left _ _

theorem retaining_declare (node : Declaration) : Retaining c (declare node) := by
  intro s
  have hreserve := (retaining_reserve (c := c) node.name s).names
  refine .of_names ?_ rfl rfl
  show s.registry.names ⊆ (s.registry.declare node).names
  rw [Registry.names_declare]
  exact hreserve

theorem retaining_announceIgnored (c : Setting) (e : Entity) (name : String) :
    Retaining c (announceIgnored c e name) := by
  unfold announceIgnored
  refine Retaining.get.bind fun s => ?_
  split
  · exact .bind (.aside (fun _ => rfl) (fun _ => rfl) fun _ => rfl) fun _ => retaining_report _ _
  · exact .pure _

theorem lookup_cons_of_ne {κ ν : Type} [BEq κ] [LawfulBEq κ] {k k' : κ} (v : ν) (kvs : List (κ × ν))
    (h : k ≠ k') : ((k', v) :: kvs).lookup k = kvs.lookup k := by
  have hne : (k == k') = false := beq_eq_false_iff_ne.mpr h
  rw [List.lookup_cons, hne]

theorem retaining_nameTag (e : Entity) (name : String) : Retaining c (nameTag e name) := by
  intro s
  show Retains c s (if (s.tagNames.lookup e.spot).isSome then s
    else { s with tagNames := (e.spot, name) :: s.tagNames })
  split
  · exact .refl c s
  · rename_i hnew
    refine ⟨List.Subset.refl _, fun spot other hlookup => ?_, fun _ => rfl⟩
    -- the place that gets a name had none
    rw [lookup_cons_of_ne, hlookup]
    rintro rfl
    rw [hlookup] at hnew
    exact hnew rfl

/-- A new name for a tag is the one that the tag has had all along. -/
theorem retains_renamed (hlookup : s.tagRenames.lookup (e.kind.keyword, e.spelling) = none) :
    Retains c s { s with
      tagRenames := ((e.kind.keyword, e.spelling), c.newTagName e.kind.keyword e.spelling) ::
        s.tagRenames } := by
  refine ⟨List.Subset.refl _, fun _ _ h => h, fun other => ?_⟩
  unfold Setting.ownNameOf
  dsimp only
  by_cases hsame : (other.kind.keyword, other.spelling) = (e.kind.keyword, e.spelling)
  · obtain ⟨hkeyword, hspelling⟩ := Prod.mk.inj hsame
    rw [hkeyword, hspelling, List.lookup_cons_self, hlookup]
    rfl
  · rw [lookup_cons_of_ne _ _ hsame]

/-- The own name of a tag is the one that the state decides. -/
theorem ownTagName_eq_ok (c : Setting) (e : Entity) (s : State) :
    ∃ s', ownTagName c e s = .ok (c.ownNameOf s e) s' ∧ s'.registry = s.registry ∧ Retains c s s' := by
  unfold ownTagName Setting.ownNameOf
  by_cases hordinary : c.ordinaryNames.contains e.spelling = true
  · rw [if_neg (by simpa using hordinary), if_pos hordinary]
    cases hlookup : s.tagRenames.lookup (e.kind.keyword, e.spelling) with
    | some renamed =>
      refine ⟨s, ?_, rfl, .refl c s⟩
      dsimp only [bind, EStateM.bind, get, getThe, MonadStateOf.get, EStateM.get]
      rw [hlookup]
      rfl
    | none =>
      refine ⟨?left, ?ok, ?registry, ?retains⟩
      case ok =>
        dsimp only [bind, EStateM.bind, get, getThe, MonadStateOf.get, EStateM.get]
        rw [hlookup]
        rfl
      case registry => rfl
      case retains => exact (retains_renamed hlookup).trans (.of_names (List.Subset.refl _) rfl rfl)
  · rw [if_pos (by simpa using hordinary), if_neg hordinary]
    exact ⟨s, rfl, rfl, .refl c s⟩

/-- The name of a tag is the one that the state decides. -/
theorem tagName_eq_ok (c : Setting) (e : Entity) (s : State) :
    ∃ s', tagName c e s = .ok (c.nameOf s e) s' ∧ s'.registry = s.registry ∧ Retains c s s' := by
  unfold tagName Setting.nameOf
  cases hlookup : s.tagNames.lookup e.spot with
  | some name =>
    refine ⟨s, ?_, rfl, .refl c s⟩
    dsimp only [bind, EStateM.bind, get, getThe, MonadStateOf.get, EStateM.get]
    rw [hlookup]
    rfl
  | none =>
    by_cases hanonymous : isAnonymous e = true
    · refine ⟨?left, ?ok, ?registry, ?retains⟩
      case ok =>
        dsimp only [bind, EStateM.bind, get, getThe, MonadStateOf.get, EStateM.get]
        rw [hlookup]
        dsimp only
        rw [if_pos hanonymous, if_pos hanonymous]
        rfl
      case registry =>
        dsimp only
        split <;> rfl
      case retains => exact retaining_nameTag e _ s
    · obtain ⟨s', hok, hregistry, hretains⟩ := ownTagName_eq_ok c e s
      refine ⟨s', ?_, hregistry, hretains⟩
      dsimp only [bind, EStateM.bind, get, getThe, MonadStateOf.get, EStateM.get]
      rw [hlookup]
      dsimp only
      rw [if_neg hanonymous, if_neg hanonymous]
      exact hok

theorem retaining_ownTagName (e : Entity) : Retaining c (ownTagName c e) := by
  intro s
  obtain ⟨s', hok, -, hretains⟩ := ownTagName_eq_ok c e s
  unfold after
  rw [hok]
  exact hretains

theorem admits_retaining (c : Setting) : Admits (Retaining c) where
  pure := .pure
  bind := .bind
  get := .get
  unresolved _ := .throw _
  say _ := .aside (fun _ => rfl) (fun _ => rfl) fun _ => rfl
  unmappable _ _ _ := retaining_report _ _
  nameTag := retaining_nameTag

theorem registers_retaining (c : Setting) : Registers c (Retaining c) where
  toAdmits := admits_retaining c
  reserve := retaining_reserve
  noteResolved _ := .aside (fun _ => rfl) (fun _ => rfl) fun _ => rfl
  announceIgnored := retaining_announceIgnored c
  ownTagName := retaining_ownTagName
  declare node _ := retaining_declare node
  declareRecord h _ _ := ((admits_retaining c).fieldsWithin (.throw _) h _ _ _ _).bind fun _ =>
    (retaining_declare _).bind fun _ => .pure _

/-- Resolving a type keeps names. -/
theorem retaining_resolveWithin (c : Setting) (steps : Nat) (t : TypeRef) :
    Retaining c (resolveWithin c steps t) :=
  (registers_retaining c).resolveWithin (.throw _) steps t

end Build

/-! ## How much is left -/

/-- The entities of the table and the one that stands for none. -/
def Setting.everyEntity (c : Setting) : List Entity := {} :: c.translation.entities.toList

theorem entity_mem_everyEntity (c : Setting) (r : EntityRef) : c.entity r ∈ c.everyEntity := by
  unfold Setting.entity Translation.entity Setting.everyEntity
  cases hfound : r.index?.bind (c.translation.entities[·]?) with
  | none => exact List.mem_cons_self
  | some e =>
    obtain ⟨i, -, hi⟩ := Option.bind_eq_some_iff.mp hfound
    exact List.mem_cons_of_mem _ (Array.mem_toList_iff.mpr (Array.mem_of_getElem? hi))

/-- One as long as the name is not reserved. -/
def State.missing (s : State) (name : String) : Nat := if name ∈ s.registry.names then 0 else 1

/-- How often an entity can still be entered at most: under the name it has as a tag, under its spelling,
and under another name once one is decided for its place. -/
def Setting.entriesLeft (c : Setting) (s : State) (e : Entity) : Nat :=
  (if (s.tagNames.lookup e.spot).isSome then 0 else 1) + s.missing (c.nameOf s e) + s.missing e.spelling

/-- How often something can still be entered at most. -/
def Setting.remaining (c : Setting) (s : State) : Nat := (c.everyEntity.map (c.entriesLeft s)).sum

theorem remaining_le (c : Setting) (s : State) :
    c.remaining s ≤ 3 * (c.translation.entities.size + 1) := by
  have hentry (e : Entity) : c.entriesLeft s e ≤ 3 := by
    unfold Setting.entriesLeft State.missing
    split <;> split <;> split <;> omega
  calc c.remaining s ≤ (c.everyEntity.map (c.entriesLeft s)).length • 3 :=
        List.sum_le_card_nsmul _ 3 (List.forall_mem_map.mpr fun e _ => hentry e)
    _ = 3 * (c.translation.entities.size + 1) := by
        simp [Setting.everyEntity, Nat.mul_comm]

namespace Retains

/-- Where no name is decided for the place of an entity, its names stay as they are. Where one is, that
is one entry less, in place of which there may be one under the new name. -/
theorem entriesLeft_cases (h : Retains c s s') (e : Entity) :
    c.nameOf s' e = c.nameOf s e ∧
        (s.tagNames.lookup e.spot).isSome = (s'.tagNames.lookup e.spot).isSome ∨
      (s.tagNames.lookup e.spot).isSome = false ∧ (s'.tagNames.lookup e.spot).isSome = true := by
  cases hbefore : s.tagNames.lookup e.spot with
  | some name =>
    refine .inl ⟨h.nameOf (.inl (by rw [hbefore]; rfl)), ?_⟩
    rw [h.tagNames _ _ hbefore]
  | none =>
    cases hafter : s'.tagNames.lookup e.spot with
    | some name => exact .inr ⟨rfl, rfl⟩
    | none => exact .inl ⟨h.nameOf (.inr hafter), rfl⟩

theorem missing_le (h : Retains c s s') (name : String) : s'.missing name ≤ s.missing name := by
  unfold State.missing
  by_cases hbefore : name ∈ s.registry.names
  · rw [if_pos hbefore, if_pos (h.names hbefore)]
  · rw [if_neg hbefore]
    split <;> omega

theorem entriesLeft_le (h : Retains c s s') (e : Entity) : c.entriesLeft s' e ≤ c.entriesLeft s e := by
  have hspelling := h.missing_le e.spelling
  unfold Setting.entriesLeft
  rcases h.entriesLeft_cases e with ⟨hsame, hdecided⟩ | ⟨hbefore, hafter⟩
  · have hname := h.missing_le (c.nameOf s e)
    rw [hsame, hdecided]
    omega
  · have hname : s'.missing (c.nameOf s' e) ≤ 1 := by unfold State.missing; split <;> omega
    rw [hbefore, hafter, if_pos rfl, if_neg Bool.false_ne_true]
    omega

/-- An entity that is entered can be entered once less. -/
theorem entriesLeft_lt (h : Retains c s s') {name : String}
    (hname : name = c.nameOf s e ∨ name = e.spelling) (hbefore : name ∉ s.registry.names)
    (hafter : name ∈ s'.registry.names) : c.entriesLeft s' e < c.entriesLeft s e := by
  have hmissing : s'.missing name < s.missing name := by
    unfold State.missing
    rw [if_neg hbefore, if_pos hafter]
    exact Nat.zero_lt_one
  have htag := h.missing_le (c.nameOf s e)
  have hspelling := h.missing_le e.spelling
  unfold Setting.entriesLeft
  rcases h.entriesLeft_cases e with ⟨hsame, hdecided⟩ | ⟨hundecided, hdecided⟩
  · rw [hsame, hdecided]
    rcases hname with rfl | rfl <;> omega
  · -- what is entered under the old name makes up for the new one
    have hnew : s'.missing (c.nameOf s' e) ≤ 1 := by unfold State.missing; split <;> omega
    rw [hundecided, hdecided, if_pos rfl, if_neg Bool.false_ne_true]
    rcases hname with rfl | rfl <;> omega

theorem remaining_le (h : Retains c s s') : c.remaining s' ≤ c.remaining s :=
  List.sum_le_sum fun e _ => h.entriesLeft_le e

/-- With everything that is entered less is left. -/
theorem remaining_lt (h : Retains c s s') {name : String} (hmem : e ∈ c.everyEntity)
    (hname : name = c.nameOf s e ∨ name = e.spelling) (hbefore : name ∉ s.registry.names)
    (hafter : name ∈ s'.registry.names) : c.remaining s' < c.remaining s :=
  List.sum_lt_sum _ _ (fun e _ => h.entriesLeft_le e) ⟨e, hmem, h.entriesLeft_lt hname hbefore hafter⟩

end Retains

end CInterop.Extraction
