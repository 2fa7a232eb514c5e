import CInterop.Proofs.Extraction.Provenance
import CInterop.Proofs.Rank

/-!
# References between types

A type refers to others directly, such as a pointer to what it points to, or through the declaration that
it is the type of, such as a record to the types of its fields. In C there is no endless chain of direct
references: whoever walks on from type to type comes through a declaration again and again. Nor is there
an endless chain of members without names, each in the type of the one before.

So the types that are reached from a type without a declaration between them have ranks, and there are no
more ranks than types.
-/

namespace CInterop.Extraction

open FrontEnd Header

/-- The ways in which a type refers to another one. -/
inductive Reference where
  | named
  | pointee
  | element
  | result
  | argument
  | canonical
  | field
  | integerType
  | underlying
deriving DecidableEq, Repr

/-- Whether the way leads through the declaration of a record, an enumeration or a typedef. -/
def Reference.isDeclared : Reference → Bool
  | .field | .integerType | .underlying => true
  | _ => false

/-- The tag that a record or an enumeration is the type of. -/
def Setting.tagOf (c : Setting) (t : TypeRef) : Entity :=
  c.entity (c.translation.definitionOf (c.type t).declaration)

/-- The typedef that a type is named by. -/
def Setting.typedefOf (c : Setting) (t : TypeRef) : Entity := c.entity (c.type t).declaration

/-- The type refers to another one in the given way. A step to the canonical form of a typedef leads past
its declaration, and a type that is canonical does not refer to itself. -/
inductive Refers (c : Setting) (t : TypeRef) : Reference → TypeRef → Prop where
  | named : (c.type t).kind = .elaborated → Refers c t .named (c.type t).named
  | pointee : (c.type t).kind = .pointer → Refers c t .pointee (c.type t).pointee
  | element : (c.type t).kind.isArray = true → Refers c t .element (c.type t).element
  | result : (c.type t).kind.isFunction = true → Refers c t .result (c.type t).result
  | argument {t' : TypeRef} : (c.type t).kind = .prototype → t' ∈ (c.type t).parameters →
      Refers c t .argument t'
  | canonical : c.canonical t ≠ t → Refers c t .canonical (c.canonical t)
  | field {r : EntityRef} : (c.type t).kind = .record → r ∈ (c.type (c.tagOf t).type).fields →
      Refers c t .field (c.entity r).type
  | integerType : (c.type t).kind = .enumeration → Refers c t .integerType (c.tagOf t).integerType
  | underlying : (c.type t).kind = .typedef → Refers c t .underlying (c.typedefOf t).underlying

/-- Every endless chain of references leads through declarations again and again. -/
def PassesDeclarations (c : Setting) : Prop :=
  ∀ (chain : Nat → TypeRef) (way : Nat → Reference),
    (∀ i, Refers c (chain i) (way i) (chain (i + 1))) → ∀ n, ∃ i ≥ n, (way i).isDeclared = true

/-- A member without a name of one type is of the other. -/
def Nests (c : Setting) (t t' : TypeRef) : Prop :=
  ∃ r ∈ (c.type t).fields, isName (c.entity r).spelling = false ∧ t' = c.canonical (c.entity r).type

/-- Members without names are nested finitely. -/
def NestsFinitely (c : Setting) : Prop :=
  ¬∃ chain : Nat → TypeRef, ∀ i, Nests c (chain i) (chain (i + 1))

variable {c : Setting} {t t' : TypeRef} {way : Reference}

/-! ## Types of the table -/

/-- The types of the table. -/
def Setting.listedTypes (c : Setting) : Finset TypeRef :=
  (Finset.range c.translation.types.size).image fun i => ⟨some i⟩

theorem card_listedTypes_le (c : Setting) : c.listedTypes.card ≤ c.translation.types.size :=
  Finset.card_image_le.trans (Finset.card_range _).le

/-- A type that is not in the table is none. -/
theorem type_of_not_listed (h : t ∉ c.listedTypes) : c.type t = {} := by
  unfold Setting.type Translation.type
  cases hindex : t.index? with
  | none => rfl
  | some i =>
    have hsize : c.translation.types.size ≤ i := by
      by_contra hlt
      refine h (Finset.mem_image.mpr ⟨i, Finset.mem_range.mpr (by omega), ?_⟩)
      rw [← hindex]
    rw [Option.bind_some, Array.getElem?_eq_none hsize]
    rfl

theorem canonical_of_not_listed (h : t ∉ c.listedTypes) : c.canonical t = t := by
  have hindex : (c.translation.type t).canonical.index?.isNone = true := by
    show (c.type t).canonical.index?.isNone = true
    rw [type_of_not_listed h]
    rfl
  exact if_pos hindex

theorem Nests.listed (h : Nests c t t') : t ∈ c.listedTypes := by
  by_contra hnot
  obtain ⟨r, hr, -⟩ := h
  rw [type_of_not_listed hnot] at hr
  exact List.not_mem_nil hr

/-- A type refers to another one, and no declaration is between them. -/
def RefersDirectly (c : Setting) (t t' : TypeRef) : Prop :=
  ∃ way : Reference, way.isDeclared = false ∧ Refers c t way t'

theorem PassesDeclarations.wellFounded (h : PassesDeclarations c) :
    WellFounded (Function.swap (RefersDirectly c)) := by
  refine wellFounded_of_no_chain ?_
  rintro ⟨chain, hchain⟩
  choose way hdirect hrefers using hchain
  obtain ⟨i, -, hdeclared⟩ := h chain way hrefers 0
  rw [hdirect i] at hdeclared
  cases hdeclared

/-- The types that a type refers to directly. -/
def Setting.directReferences (c : Setting) (t : TypeRef) : List TypeRef :=
  let info := c.type t
  (if info.kind = .elaborated then [info.named] else []) ++
    (if info.kind = .pointer then [info.pointee] else []) ++
    (if info.kind.isArray then [info.element] else []) ++
    (if info.kind.isFunction then [info.result] else []) ++
    (if info.kind = .prototype then info.parameters else []) ++
    (if c.canonical t ≠ t then [c.canonical t] else [])

/-- The types of the members without names of a type. -/
def Setting.nestedTypes (c : Setting) (t : TypeRef) : List TypeRef :=
  ((c.type t).fields.filter fun r => !isName (c.entity r).spelling).map fun r =>
    c.canonical (c.entity r).type

theorem RefersDirectly.mem (h : RefersDirectly c t t') : t' ∈ c.directReferences t := by
  obtain ⟨way, hdirect, h⟩ := h
  unfold Setting.directReferences
  cases h with
  | argument hkind hmem => simp [hkind, hmem]
  | named h | pointee h | element h | result h | canonical h => simp [h]
  | field | integerType | underlying => cases hdirect

theorem Nests.mem (h : Nests c t t') : t' ∈ c.nestedTypes t := by
  obtain ⟨r, hr, hunnamed, rfl⟩ := h
  exact List.mem_map.mpr ⟨r, List.mem_filter.mpr ⟨hr, by rw [hunnamed]; rfl⟩, rfl⟩

theorem RefersDirectly.listed (h : RefersDirectly c t t') : t ∈ c.listedTypes := by
  by_contra hnot
  have hmem := h.mem
  unfold Setting.directReferences at hmem
  simp [type_of_not_listed hnot, canonical_of_not_listed hnot, TypeKind.isArray, TypeKind.isFunction] at hmem

theorem mem_listedTypes : t ∈ c.listedTypes ↔ ∃ i < c.translation.types.size, ⟨some i⟩ = t := by
  simp [Setting.listedTypes]

/-- A rank that direct references lower rules out endless chains of them. -/
theorem passesDeclarations_of_rank (rank : TypeRef → Nat)
    (h : ∀ i < c.translation.types.size,
      ∀ t' ∈ c.directReferences ⟨some i⟩, rank t' < rank ⟨some i⟩) : PassesDeclarations c := by
  intro chain way hrefers n
  by_contra hnot
  push Not at hnot
  -- from there on the chain is one of direct references
  have hdirect (i : Nat) : RefersDirectly c (chain (n + i)) (chain (n + (i + 1))) :=
    ⟨way (n + i), Bool.eq_false_iff.mpr (hnot (n + i) (by omega)), hrefers (n + i)⟩
  refine no_chain_of_rank rank (R := RefersDirectly c) (fun t t' hstep => ?_)
    ⟨fun i => chain (n + i), hdirect⟩
  obtain ⟨i, hi, rfl⟩ := mem_listedTypes.mp hstep.listed
  exact h i hi t' hstep.mem

/-- A rank that members without names lower rules out endless chains of them. -/
theorem nestsFinitely_of_rank (rank : TypeRef → Nat)
    (h : ∀ i < c.translation.types.size,
      ∀ t' ∈ c.nestedTypes ⟨some i⟩, rank t' < rank ⟨some i⟩) : NestsFinitely c := by
  refine no_chain_of_rank rank fun t t' hstep => ?_
  obtain ⟨i, hi, rfl⟩ := mem_listedTypes.mp hstep.listed
  exact h i hi t' hstep.mem

/-! ## What resolving a type goes on with -/

/-- A type that the node of a function type names. -/
inductive IsPart (c : Setting) (t : TypeRef) : TypeRef → Prop where
  | result : IsPart c t (c.type t).result
  | argument {t' : TypeRef} : (c.type t).kind = .prototype → t' ∈ (c.type t).parameters → IsPart c t t'

/-- To resolve the type the other one is resolved, before anything is entered. -/
inductive GoesOn (c : Setting) (t : TypeRef) : TypeRef → Prop where
  | named : (c.type t).kind = .elaborated → GoesOn c t (c.type t).named
  | pointee : (c.type t).kind = .pointer → GoesOn c t (c.type t).pointee
  | signature {t' : TypeRef} : (c.type t).kind = .pointer →
      (c.type (c.canonical (c.type t).pointee)).kind.isFunction = true →
      IsPart c (c.canonical (c.type t).pointee) t' → GoesOn c t t'
  | element : (c.type t).kind.isArray = true → GoesOn c t (c.type t).element
  | part {t' : TypeRef} : (c.type t).kind.isFunction = true → IsPart c t t' → GoesOn c t t'
  | canonical : (c.type t).kind.isVague = true → (c.type (c.canonical t)).kind ≠ (c.type t).kind →
      GoesOn c t (c.canonical t)
  /-- A typedef that gives a tag its own name is resolved to the tag. -/
  | underlying : (c.type t).kind = .typedef →
      (c.translation.tag? (c.typedefOf t).underlying).isSome = true → GoesOn c t (c.typedefOf t).underlying

theorem refersDirectly_of_isPart (hkind : (c.type t).kind.isFunction = true) (h : IsPart c t t') :
    RefersDirectly c t t' := by
  cases h with
  | result => exact ⟨.result, rfl, .result hkind⟩
  | argument hprototype hmem => exact ⟨.argument, rfl, .argument hprototype hmem⟩

/-- What resolving a type goes on with is referred to directly, at the end of one or more steps, unless it
is the tag that a typedef names. -/
theorem GoesOn.direct_or_tag (h : GoesOn c t t') :
    Relation.TransGen (RefersDirectly c) t t' ∨ (c.translation.tag? t').isSome = true := by
  cases h with
  | named hkind => exact .inl (.single ⟨.named, rfl, .named hkind⟩)
  | pointee hkind => exact .inl (.single ⟨.pointee, rfl, .pointee hkind⟩)
  | signature hkind hfunction hpart =>
    have hpointee : RefersDirectly c t (c.type t).pointee := ⟨.pointee, rfl, .pointee hkind⟩
    have hlast := refersDirectly_of_isPart hfunction hpart
    by_cases hproper : c.canonical (c.type t).pointee = (c.type t).pointee
    · rw [hproper] at hlast
      exact .inl (.tail (.single hpointee) hlast)
    · exact .inl (.tail (.tail (.single hpointee) ⟨.canonical, rfl, .canonical hproper⟩) hlast)
  | element hkind => exact .inl (.single ⟨.element, rfl, .element hkind⟩)
  | part hkind hpart => exact .inl (.single (refersDirectly_of_isPart hkind hpart))
  | canonical hvague hkind =>
    have hproper : c.canonical t ≠ t := fun hsame => hkind (by rw [hsame])
    exact .inl (.single ⟨.canonical, rfl, .canonical hproper⟩)
  | underlying hkind htag => exact .inr htag

theorem GoesOn.listed (h : GoesOn c t t') : t ∈ c.listedTypes := by
  by_contra hnot
  have hnone := type_of_not_listed hnot
  cases h with
  | canonical _ hkind => exact hkind (by rw [canonical_of_not_listed hnot])
  | named hkind | pointee hkind | signature hkind | element hkind | part hkind | underlying hkind =>
    rw [hnone] at hkind
    cases hkind

/-- An elaborated type goes on with what it names and with nothing else. -/
theorem GoesOn.of_elaborated (hkind : (c.type t).kind = .elaborated) (h : GoesOn c t t') :
    t' = (c.type t).named := by
  cases h with
  | named => rfl
  | pointee hother | signature hother | element hother | part hother | canonical hother
  | underlying hother =>
    rw [hkind] at hother
    cases hother

/-- A record or an enumeration goes on with nothing. -/
theorem not_goesOn_of_tag (hkind : (c.type t).kind = .record ∨ (c.type t).kind = .enumeration) :
    ¬GoesOn c t t' := by
  intro h
  cases h with
  | named hother | pointee hother | signature hother | element hother | part hother
  | canonical hother | underlying hother =>
    rcases hkind with hkind | hkind <;> rw [hkind] at hother <;> cases hother

/-- Behind the keywords before a tag there is nothing to go on with. -/
theorem acc_goesOn_of_unwrapWithin {steps : Nat}
    (h : (c.type (c.translation.unwrapWithin steps t)).kind = .record ∨
      (c.type (c.translation.unwrapWithin steps t)).kind = .enumeration) :
    Acc (Function.swap (GoesOn c)) t := by
  -- each step takes one keyword off
  induction steps generalizing t with
  | zero => exact ⟨t, fun t' hstep => absurd hstep (not_goesOn_of_tag h)⟩
  | succ steps ih =>
    unfold Translation.unwrapWithin at h
    split at h
    · rename_i helaborated
      refine ⟨t, fun t' hstep => ?_⟩
      rw [GoesOn.of_elaborated helaborated hstep]
      exact ih h
    · exact ⟨t, fun t' hstep => absurd hstep (not_goesOn_of_tag h)⟩

theorem PassesDeclarations.wellFounded_goesOn (h : PassesDeclarations c) :
    WellFounded (Function.swap (GoesOn c)) := by
  refine ⟨fun t => ?_⟩
  induction t using h.wellFounded.transGen.induction with
  | _ t ih =>
    refine ⟨t, fun t' hstep => ?_⟩
    rcases GoesOn.direct_or_tag hstep with hdirect | htag
    · exact ih t' (Relation.transGen_swap.mpr hdirect)
    · obtain ⟨e, he⟩ := Option.isSome_iff_exists.mp htag
      exact acc_goesOn_of_unwrapWithin (kind_of_tag? he)

/-! ## Ranks -/

/-- Each step lowers the rank, and there are no more ranks than types. -/
structure IsRank (c : Setting) (R : TypeRef → TypeRef → Prop) (rank : TypeRef → Nat) : Prop where
  le : ∀ t, rank t ≤ c.translation.types.size
  lt : ∀ t t', R t t' → rank t' < rank t

theorem exists_isRank {R : TypeRef → TypeRef → Prop} (hlisted : ∀ t t', R t t' → t ∈ c.listedTypes)
    (h : WellFounded (Function.swap R)) : ∃ rank, IsRank c R rank := by
  obtain ⟨rank, hle, hlt⟩ := exists_rank_of_acyclic c.listedTypes hlisted (acyclic_of_wellFounded h)
  exact ⟨rank, fun t => (hle t).trans (card_listedTypes_le c), hlt⟩

/-- Every type has a rank that going on lowers. -/
theorem PassesDeclarations.exists_isRank (h : PassesDeclarations c) : ∃ rank, IsRank c (GoesOn c) rank :=
  Extraction.exists_isRank (fun _ _ => GoesOn.listed) h.wellFounded_goesOn

/-- Every type has a rank that going on to a member without a name lowers. -/
theorem NestsFinitely.exists_isRank (h : NestsFinitely c) : ∃ rank, IsRank c (Nests c) rank :=
  Extraction.exists_isRank (fun _ _ => Nests.listed) (wellFounded_of_no_chain h)

/-! ## Keywords before a type -/

theorem kind_unwrapWithin {rank : TypeRef → Nat} (hrank : IsRank c (GoesOn c) rank) {steps : Nat}
    (hsteps : rank t < steps) : (c.type (c.translation.unwrapWithin steps t)).kind ≠ .elaborated := by
  induction steps generalizing t with
  | zero => exact absurd hsteps (Nat.not_lt_zero _)
  | succ steps ih =>
    unfold Translation.unwrapWithin
    split
    · rename_i helaborated
      have hlt : rank (c.translation.type t).named < rank t := hrank.lt _ _ (.named helaborated)
      exact ih (by omega)
    · rename_i hnot
      exact hnot

/-- The keywords before a type are all taken off. -/
theorem PassesDeclarations.kind_unwrap (h : PassesDeclarations c) (t : TypeRef) :
    (c.type (c.translation.unwrap t)).kind ≠ .elaborated := by
  obtain ⟨rank, hrank⟩ := h.exists_isRank
  have hle := hrank.le t
  exact kind_unwrapWithin hrank (by omega)

end CInterop.Extraction
