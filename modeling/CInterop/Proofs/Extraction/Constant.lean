import CInterop.Proofs.Extraction.Orderly

/-!
# Constants refer to declared types

The macros of a header are judged after everything else was declared, and nothing is undone any more.
A constant is typed by a canonical type, and for such types resolving either succeeds or changes
nothing, if the front end is regular. So the registry still grows, and the macros that become
constants refer to names that were given for types.
-/

namespace CInterop.FrontEnd

/-- Whether the type has no parts. -/
def TypeKind.isScalar : TypeKind → Bool
  | scalar _ => true
  | _ => false

/-- What is assumed of the answers of the C front end about a type: a canonical type is its own
canonical type and no name of another one, and the integer type of an enumeration has no parts. -/
structure Translation.RegularAt (t : Translation) (r : TypeRef) : Prop where
  canonical_canonical : t.canonical (t.canonical r) = t.canonical r
  canonical_ne_elaborated : (t.type (t.canonical r)).kind ≠ .elaborated
  canonical_ne_typedef : (t.type (t.canonical r)).kind ≠ .typedef
  integerType_scalar : (t.type r).kind = .enumeration →
    (t.type (t.entity (t.definitionOf (t.type r).declaration)).integerType).kind.isScalar = true

/-- What is assumed of all answers of the C front end. -/
def Translation.Regular (t : Translation) : Prop := ∀ r, t.RegularAt r

section

variable {t : Translation}

instance (r : TypeRef) : Decidable (t.RegularAt r) :=
  decidable_of_iff (t.canonical (t.canonical r) = t.canonical r ∧
      (t.type (t.canonical r)).kind ≠ .elaborated ∧ (t.type (t.canonical r)).kind ≠ .typedef ∧
      ((t.type r).kind = .enumeration →
        (t.type (t.entity (t.definitionOf (t.type r).declaration)).integerType).kind.isScalar))
    ⟨fun ⟨h₁, h₂, h₃, h₄⟩ => ⟨h₁, h₂, h₃, h₄⟩, fun ⟨h₁, h₂, h₃, h₄⟩ => ⟨h₁, h₂, h₃, h₄⟩⟩

/-- References that lead nowhere are the invalid type, so only the table matters. -/
theorem Translation.regular_of_table (h : ∀ i < t.types.size, t.RegularAt ⟨some i⟩) :
    t.Regular := by
  have hnowhere : ∀ r, t.type r = {} → t.RegularAt r := by
    intro r hr
    have hcanonical : t.canonical r = r := by
      unfold Translation.canonical
      rw [hr]
      rfl
    refine ⟨?_, ?_, ?_, ?_⟩
    · rw [hcanonical, hcanonical]
    · rw [hcanonical, hr]
      decide
    · rw [hcanonical, hr]
      decide
    · rw [hr]
      intro hkind
      cases hkind
  rintro ⟨index?⟩
  cases index? with
  | none => exact hnowhere _ rfl
  | some i =>
    by_cases hi : i < t.types.size
    · exact h i hi
    · refine hnowhere _ ?_
      have hnone : t.types[i]? = none := Array.getElem?_eq_none (Nat.le_of_not_lt hi)
      unfold Translation.type
      rw [Option.bind_some, hnone, Option.getD_none]

end

end CInterop.FrontEnd

namespace CInterop.Extraction.Build

open FrontEnd Header
open Macro (Candidate)

variable {O A P : String → Prop} {c : Setting} {s s' : State}

/-! ## Resolving canonical types -/

/-- Types without parts are always resolved. -/
theorem leads_resolveWithin_scalar {t : TypeRef} (hkind : (c.type t).kind.isScalar = true)
    (steps : Nat) {stopped : State → Prop} :
    Leads A (resolveWithin c steps t) s stopped fun _ _ => True := by
  cases steps with
  | zero => exact .throw_failed
  | succ steps =>
    have hstep : Leads A (resolveStep c (resolveWithin c steps) t) s stopped fun _ _ => True := by
      unfold TypeKind.isScalar at hkind
      unfold resolveStep
      split at hkind
      · rename_i k hk
        simp only [hk]
        exact (leads_scalar t _).post fun _ _ _ => trivial
      · cases hkind
    unfold resolveWithin
    refine hstep.bind fun name s' => ?_
    exact leads_noteResolved.bind fun _ _ => .pure fun _ _ => trivial

/-- An enumeration is always resolved, since its integer type is. -/
theorem leads_enumeration_total (hregular : c.translation.Regular) {t : TypeRef}
    (hkind : (c.type t).kind = .enumeration) (steps : Nat) {stopped : State → Prop} :
    Leads A (enumeration c (resolveWithin c steps) t) s stopped fun _ _ => True := by
  have hinteger := (hregular t).integerType_scalar hkind
  unfold enumeration
  dsimp only
  refine (leads_tagName c _).bind fun name s₁ => leads_isReserved ?_
  split
  · exact .pure fun _ => trivial
  · refine (leads_announceIgnored c _ name).bind fun _ s₂ => ?_
    refine (leads_say _).bind fun _ s₃ => ?_
    refine .update_bind (fun h => ⟨h.resolved, h.strings⟩) ?_
    refine (leads_resolveWithin_scalar hinteger steps).bind fun integerType s₄ => ?_
    exact leads_declare (.pure fun _ _ _ _ => trivial)

/-- The kinds of canonical types that a constant can have, besides strings. -/
def IsConstantKind (kind : TypeKind) : Prop :=
  kind ≠ .constantArray ∧ kind ≠ .incompleteArray ∧ kind ≠ .pointer ∧ kind ≠ .record ∧
    kind ≠ .prototype ∧ kind ≠ .noPrototype

/-- Where a canonical type cannot be resolved, nothing has changed. -/
theorem leads_resolve_canonical (hregular : c.translation.Regular) (t : TypeRef)
    (hkind : IsConstantKind (c.type (c.canonical t)).kind) :
    Leads A (resolve c (c.canonical t)) s (Quiet s) (Gives A s) := by
  obtain ⟨steps, hsteps⟩ : ∃ steps, referenceLimit c = steps + 1 := by
    have hpos : 0 < referenceLimit c := Nat.mul_pos (Nat.succ_pos _) (Nat.succ_pos _)
    exact ⟨referenceLimit c - 1, by omega⟩
  -- a canonical type is not looked up further, so the rule for other kinds stops at once
  have hform : ∀ resolve, Leads A (canonicalForm c resolve (c.canonical t)) s (Quiet s)
      fun _ _ => True := by
    intro resolve
    unfold canonicalForm
    dsimp only
    have hcanonical : c.canonical (c.canonical t) = c.canonical t := (hregular t).canonical_canonical
    rw [hcanonical, if_pos (.inl rfl)]
    exact .throw_unresolved (.refl s)
  have hstep : Leads A (resolveStep c (resolveWithin c steps) (c.canonical t)) s (Quiet s)
      fun _ _ => True := by
    obtain ⟨harray, hincomplete, hpointer, hrecord, hprototype, hnoPrototype⟩ := hkind
    unfold resolveStep
    dsimp only
    split
    · exact absurd ‹_› (hregular t).canonical_ne_elaborated
    · exact absurd ‹_› (hregular t).canonical_ne_typedef
    · exact absurd ‹_› hpointer
    · exact absurd ‹_› harray
    · exact absurd ‹_› hincomplete
    · exact absurd ‹_› hrecord
    · exact leads_enumeration_total hregular ‹_› steps
    · exact absurd ‹_› hprototype
    · exact absurd ‹_› hnoPrototype
    · exact (leads_scalar _ _).post fun _ _ _ => trivial
    all_goals exact hform _
  have hstops : Leads A (resolve c (c.canonical t)) s (Quiet s) fun _ _ => True := by
    unfold resolve
    rw [hsteps]
    unfold resolveWithin
    refine hstep.bind fun name s' => ?_
    exact leads_noteResolved.bind fun _ _ => .pure fun _ _ => trivial
  -- the one says what is left where it stops, the other what is given where it does not
  exact (hstops.both (resolves_resolve c _ s)).mono (fun _ h => h.1) fun _ _ h => h.2

/-! ## Typing a macro -/

/-- The type of strings is declared with the type of characters. -/
theorem leads_stringType {stopped : State → Prop} :
    Leads A (stringType c) s stopped (Gives A s) := by
  unfold stringType
  refine (leads_declareOnce rfl).bind fun char s₁ => leads_noteString.bind fun _ s₂ => ?_
  refine (leads_declareOnce rfl).bind fun string s₃ => leads_noteString.bind fun _ s₄ => .pure ?_
  intro hnoteString hdeclareString hnoteChar hdeclareChar
  obtain ⟨hquiet, hA⟩ := hnoteChar
  obtain ⟨hquiet', hA'⟩ := hnoteString
  have hchar : Gives A s char s₁ := by
    refine hdeclareChar.2.2 s (hdeclareChar.1 ▸ hA) (.refl s) ?_
    exact fun _ hother => absurd hother List.not_mem_nil
  have hstring : Gives A s string s₃ := by
    refine hdeclareString.2.2 s (hdeclareString.1 ▸ hA') (hchar.grown.trans hquiet.grown) ?_
    exact List.forall_mem_singleton.mpr (hchar.known.mono hquiet.growth)
  exact ⟨hstring.grown.trans hquiet'.grown, hstring.known.mono hquiet'.growth⟩

/-- The registry has grown, and a type that was found is known. -/
structure Types (A : String → Prop) (s : State) (type? : Option String) (s' : State) : Prop where
  grown : Grown A s s'
  known : ∀ type, type? = some type → Known A s' type

theorem types_none (h : Quiet s s') : Types A s none s' :=
  ⟨h.grown, fun _ htype => by cases htype⟩

theorem types_some {name : String} (h : Gives A s name s') : Types A s (some name) s' :=
  ⟨h.grown, fun _ htype => by cases htype; exact h.known⟩

/-- An array of characters is a string, and no other array is a constant. -/
theorem leads_arrayType? (element : TypeRef) {stopped : State → Prop} :
    Leads A (match (c.type element).kind with
      | .scalar k => if k.isCharacter then return some (← (typeRegistry c).stringType) else return none
      | _ => return none) s stopped (Types A s) := by
  split
  · split
    · exact leads_stringType.bind fun _ _ => .pure types_some
    · exact .pure (types_none (.refl s))
  · exact .pure (types_none (.refl s))

theorem leads_constantType? (hregular : c.translation.Regular) (t : TypeRef)
    {stopped : State → Prop} :
    Leads A (constantType? c (typeRegistry c) t) s stopped (Types A s) := by
  have hnone : Leads A (pure none) s stopped (Types A s) := .pure (types_none (.refl s))
  have hresolve : IsConstantKind (c.type (c.canonical t)).kind →
      Leads A (attempt (resolve c (c.canonical t))) s stopped (Types A s) := by
    intro hkind
    refine (leads_resolve_canonical hregular t hkind).attempt.post ?_
    intro type? s' h
    cases type? with
    | none => exact types_none (h.2 rfl)
    | some type => exact types_some (h.1 type rfl)
  unfold constantType?
  dsimp only
  split
  · exact leads_arrayType? _
  · exact leads_arrayType? _
  · exact hnone
  · exact hnone
  · exact hnone
  · exact hnone
  · exact hnone
  · exact hresolve ⟨‹_›, ‹_›, ‹_›, ‹_›, ‹_›, ‹_›⟩

/-! ## The macros that become constants -/

/-- The verdict on a macro from the type that was found for it. -/
theorem leads_verdict (type? : Option String) {stopped : State → Prop} :
    Leads A (match type? with
      | some type => pure (.ok type)
      | none => pure (.error "the value is not of a primitive or string type")) s' stopped
      fun (verdict : Except String String) s'' => Types A s type? s' →
        Grown A s s'' ∧ ∀ type, verdict = .ok type → Known A s'' type := by
  cases type? with
  | none => exact .pure fun htypes => ⟨htypes.grown, fun type htype => by cases htype⟩
  | some type =>
    refine .pure fun htypes => ⟨htypes.grown, fun type' htype => ?_⟩
    cases htype
    exact htypes.known type rfl

theorem leads_judge (hregular : c.translation.Regular) (constants : List String) (line : Nat)
    (candidate : Candidate) {stopped : State → Prop} :
    Leads A (judge c (typeRegistry c) constants line candidate) s stopped fun verdict s' =>
      Grown A s s' ∧ ∀ type, verdict = .ok type → Known A s' type := by
  have herror : ∀ message, Leads A (pure (.error message)) s stopped
      fun (verdict : Except String String) s' =>
        Grown A s s' ∧ ∀ type, verdict = .ok type → Known A s' type :=
    fun message => .pure ⟨.refl s, fun type htype => by cases htype⟩
  unfold judge
  split
  · exact herror _
  · dsimp only
    split
    · exact herror _
    · split
      · exact (leads_constantType? hregular _).bind fun type? s' => leads_verdict type?
      · exact (leads_verdict none).post fun _ _ h => h (types_none (.refl s))

theorem leads_exclude (candidate : Candidate) (reason : String) {stopped : State → Prop} :
    Leads A (exclude c candidate reason) s stopped fun _ s' => Quiet s s' :=
  leads_quiet_bind (leads_detail c _) fun _ _ => leads_report _ _

/-- The nodes of constants refer to known types, one after the other. -/
theorem leads_judgeAll (hregular : c.translation.Regular) {stopped : State → Prop}
    (candidates : List Candidate) (constants : List Declaration) (line : Nat) :
    Leads A (judgeAll c (typeRegistry c) constants line candidates) s stopped fun accepted s' =>
      (∀ node ∈ constants, ∀ other ∈ node.body.references, Known A s other) →
      Grown A s s' ∧ ∀ node ∈ accepted, ∀ other ∈ node.body.references, Known A s' other := by
  induction candidates generalizing constants line s with
  | nil =>
    unfold judgeAll
    exact .pure fun hconstants => ⟨.refl s, hconstants⟩
  | cons candidate rest ih =>
    unfold judgeAll
    refine (leads_judge hregular _ _ _).bind fun verdict s₁ => ?_
    split
    · refine (leads_exclude candidate _).bind fun _ s₂ => ?_
      refine (ih constants (line + 1)).mono (fun _ h _ _ => h) ?_
      intro accepted s' hrest hexclude hverdict hconstants
      have hgrown := hverdict.1.trans hexclude.grown
      obtain ⟨hgrown', haccepted⟩ := hrest fun node hnode other hother =>
        (hconstants node hnode other hother).mono hgrown.growth
      exact ⟨hgrown.trans hgrown', haccepted⟩
    · rename_i type
      refine (leads_detail c _).bind fun _ s₂ => ?_
      dsimp only
      refine (ih _ (line + 1)).mono (fun _ h _ _ => h) ?_
      intro accepted s' hrest hdetail hverdict hconstants
      have hgrown := hverdict.1.trans hdetail.grown
      have hmore : ∀ node ∈ constants ++ [⟨candidate.name, .constant type candidate.replacement,
          candidate.place⟩], ∀ other ∈ node.body.references, Known A s₂ other := by
        intro node hnode other hother
        rcases List.mem_append.mp hnode with hold | hnew
        · exact (hconstants node hold other hother).mono hgrown.growth
        · rw [List.mem_singleton.mp hnew] at hother
          rw [List.mem_singleton.mp hother]
          exact (hverdict.2 type rfl).mono hdetail.growth
      obtain ⟨hgrown', haccepted⟩ := hrest hmore
      exact ⟨hgrown.trans hgrown', haccepted⟩

theorem leads_screenAll {stopped : State → Prop}
    (screened : List (Candidate × Option Macro.Expr.Objection)) :
    Leads A (screenAll c screened) s stopped fun _ s' => Quiet s s' := by
  induction screened generalizing s with
  | nil => exact .pure (.refl s)
  | cons first rest ih =>
    obtain ⟨candidate, objection?⟩ := first
    cases objection? with
    | none => exact leads_quiet_bind ih fun _ s' => .pure (.refl s')
    | some objection => exact leads_quiet_bind (leads_exclude candidate _) fun _ _ => ih

theorem leads_constants (hregular : c.translation.Regular) (candidates : List Candidate)
    {stopped : State → Prop} :
    Leads A (constants c (typeRegistry c) candidates) s stopped fun accepted s' =>
      Grown A s s' ∧ ∀ node ∈ accepted, ∀ other ∈ node.body.references, Known A s' other := by
  unfold constants
  refine (leads_screenAll _).bind fun screened s₁ => ?_
  split
  · refine .pure fun hscreen => ⟨hscreen.grown, ?_⟩
    exact fun _ hnode => absurd hnode List.not_mem_nil
  · dsimp only
    refine (leads_detail c _).bind fun _ s₂ => (leads_ask _).bind fun _ s₃ => ?_
    have hjudge : Leads A (judgeAll c (typeRegistry c) [] Candidate.firstTypingLine screened) s₃ stopped
        fun accepted s' => Quiet s s₃ → Grown A s s' ∧
          ∀ node ∈ accepted, ∀ other ∈ node.body.references, Known A s' other := by
      refine (leads_judgeAll hregular _ _ _).post fun _ _ hrest hquiet => ?_
      obtain ⟨hgrown, haccepted⟩ := hrest fun _ hnode => absurd hnode List.not_mem_nil
      exact ⟨hquiet.grown.trans hgrown, haccepted⟩
    split
    · exact .throw_failed
    · refine hjudge.mono (fun _ h _ _ _ => h) fun _ _ h hask hdetail hscreen => ?_
      exact h ((hscreen.trans hdetail).trans hask)

/-- Judging the macros only adds to the registry, and the constants are over what is known. -/
theorem leads_judgeMacros (hregular : c.translation.Regular) {stopped : State → Prop} :
    Leads A (judgeMacros c) s stopped fun accepted s' =>
      Grown A s s' ∧ ∀ node ∈ accepted, ∀ other ∈ node.body.references, Known A s' other := by
  unfold judgeMacros
  refine Leads.get.bind fun a s₁ => ?_
  dsimp only
  refine (leads_quiet_forM fun candidate _ => leads_report _ _).bind fun _ s₂ => ?_
  refine (leads_constants hregular _).post ?_
  intro _ s' hconstants hreport hget
  obtain ⟨rfl, rfl⟩ := hget
  exact ⟨hreport.grown.trans hconstants.1, hconstants.2⟩

/-! ## Settling the names of macros -/

/-- A macro's name is declared as a constant, given up, or left to what has taken it. -/
theorem leads_settle {accepted : List Declaration} {candidate : Candidate}
    {stopped : State → Prop} :
    Leads A (settle accepted candidate) s stopped fun _ s' => O candidate.name →
      (Orderly O A P s ∧ ∀ node ∈ accepted, Backed O A s node) →
        Orderly O A P s' ∧ ∀ node ∈ accepted, Backed O A s' node := by
  unfold settle
  split
  · rename_i node hfind
    have heq : node.name = candidate.name := by simpa using List.find?_some hfind
    refine .update (fun h => ⟨h.resolved, h.strings⟩) fun _ hname hs => ⟨?_, fun other hother => ?_⟩
    · exact hs.1.declare (.inl (heq ▸ hname)) (hs.2 node (List.mem_of_find?_eq_some hfind))
    · exact (hs.2 other hother).mono (subset_names_declare s node)
  · refine .update (fun h => h.of_eq ?_ ?_) fun _ hname hs => ?_
    · split <;> rfl
    · split <;> rfl
    · split
      · exact hs
      · exact ⟨hs.1.release hname, fun node hnode => (hs.2 node hnode).release hname⟩

/-- Judging the macros keeps the registry in order. -/
theorem leads_settleMacros (hregular : c.translation.Regular) {stopped : State → Prop} :
    Leads A (settleMacros c) s stopped fun _ s' => Keeps O A P s s' := by
  unfold settleMacros
  refine Leads.get.bind fun a s₁ => ?_
  refine (leads_judgeMacros hregular).bind fun accepted s₂ => ?_
  refine (leads_forM (I := fun s => (∀ m ∈ a.candidates, O m.name) →
    Orderly O A P s ∧ ∀ node ∈ accepted, Backed O A s node) fun candidate hmem s =>
      leads_settle.post fun _ _ h hs hnames =>
        h (hnames candidate hmem) (hs hnames)).post ?_
  -- the candidates are those of the start, whose names are ordinary
  intro _ s' hsettle hjudge hget hs
  obtain ⟨rfl, rfl⟩ := hget
  refine (hsettle (fun _ => ⟨?_, ?_⟩) hs.candidates).1
  · exact hs.grown hjudge.1
  · exact fun node hnode => backed_of_known (hjudge.2 node hnode)

end CInterop.Extraction.Build
