import CInterop.Proofs.Extraction.Growth
import CInterop.Proofs.Extraction.References
import CInterop.Proofs.Extraction.Remaining

/-!
# Entering declarations

A record, an enumeration or a typedef is entered under a name: the name is reserved, and only then what
the declaration contains is resolved. Where the name is reserved already, nothing is entered. A type that
is not entered goes on with the types it refers to directly.

So what resolving a type comes to depends on the resolving of other types only as far as these come next,
or come where less is left to be entered.
-/

namespace CInterop.Extraction

open FrontEnd Header

namespace Build

variable {c : Setting} {s s' : State} {t : TypeRef} {e : Entity} {name : String} {α β : Type}

/-- The name under which the declaration of a type is entered or was, unless the type has none that is
entered under a name of its own. -/
def entering (c : Setting) (t : TypeRef) : Build (Option String) :=
  match (c.type t).kind with
  | .record | .enumeration => do return some (← tagName c (c.tagOf t))
  | .typedef => do
    let e := c.typedefOf t
    if platformTypedefs.contains e.spelling then return none
    else if ← isReserved e.spelling then return some e.spelling
    else if ← namesItsTag c e then return none
    else return some e.spelling
  | _ => return none

/-! ## Steps that agree -/

/-- From a state on, the second step does what the first one does, which keeps names. -/
structure Agree (c : Setting) (s : State) (x y : Build α) : Prop where
  retaining : Retaining c x
  eq : ∀ s', Retains c s s' → y s' = x s'

namespace Agree

variable {x y : Build α} {f g : α → Build β}

theorem refl (h : Retaining c x) : Agree c s x x := ⟨h, fun _ _ => rfl⟩

theorem bind (hx : Agree c s x y) (hf : ∀ a, Agree c s (f a) (g a)) :
    Agree c s (x >>= f) (y >>= g) := by
  refine ⟨hx.retaining.bind fun a => (hf a).retaining, fun s' hs' => ?_⟩
  have hsecond : (x >>= g) s' = (x >>= f) s' :=
    Steps.bind_congr_of_ok fun a after ha => (hf a).eq after (hs'.trans (hx.retaining.of_ok ha))
  rw [← hsecond]
  show EStateM.bind y g s' = EStateM.bind x g s'
  rw [EStateM.bind, EStateM.bind, hx.eq s' hs']

theorem mapM {as : List α} (hf : ∀ a ∈ as, Agree c s (f a) (g a)) :
    Agree c s (as.mapM f) (as.mapM g) := by
  induction as with
  | nil =>
    rw [List.mapM_nil, List.mapM_nil]
    exact .refl (.pure _)
  | cons a rest ih =>
    rw [List.forall_mem_cons] at hf
    rw [List.mapM_cons, List.mapM_cons]
    exact hf.1.bind fun _ => (ih hf.2).bind fun _ => .refl (.pure _)

end Agree

/-! ## Rules that enter nothing -/

section

variable {resolve resolve' : TypeRef → Build String}

theorem retaining_declareOnce (node : Declaration) : Retaining c (declareOnce node) := by
  unfold declareOnce
  refine Retaining.get.bind fun s => ?_
  split
  · exact (retaining_declare node).bind fun _ => .pure _
  · exact .pure _

theorem agree_functionPointer (h : ∀ t', IsPart c t t' → Agree c s (resolve t') (resolve' t')) :
    Agree c s (functionPointer c resolve t) (functionPointer c resolve' t) := by
  unfold functionPointer
  dsimp only
  refine (h _ .result).bind fun result => ?_
  cases hkind : (c.type t).kind with
  | prototype =>
    exact (Agree.mapM fun t' ht' => h t' (.argument hkind ht')).bind fun _ =>
      .refl (retaining_declareOnce _)
  | _ => exact .refl ((Retaining.pure _).bind fun _ => retaining_declareOnce _)

theorem agree_pointer (hkind : (c.type t).kind = .pointer)
    (h : ∀ t', GoesOn c t t' → Agree c s (resolve t') (resolve' t')) :
    Agree c s (pointer c resolve t) (pointer c resolve' t) := by
  unfold pointer
  dsimp only
  split
  · rename_i hfunction
    exact agree_functionPointer fun t' ht' => h t' (.signature hkind hfunction ht')
  · exact (h _ (.pointee hkind)).bind fun _ => .refl (retaining_declareOnce _)

theorem agree_array (hkind : (c.type t).kind.isArray = true)
    (h : ∀ t', GoesOn c t t' → Agree c s (resolve t') (resolve' t')) :
    Agree c s (array c resolve t) (array c resolve' t) := by
  unfold array
  exact (h _ (.element hkind)).bind fun _ => .refl (retaining_declareOnce _)

theorem agree_canonicalForm (hkind : (c.type t).kind.isVague = true)
    (h : ∀ t', GoesOn c t t' → Agree c s (resolve t') (resolve' t')) :
    Agree c s (canonicalForm c resolve t) (canonicalForm c resolve' t) := by
  unfold canonicalForm
  dsimp only
  split
  · exact .refl (.throw _)
  · rename_i hother
    exact h _ (.canonical hkind fun hsame => hother (.inl hsame))

/-- Whether a typedef names its tag is told without anything being reserved. -/
theorem namesItsTag_answers (c : Setting) (e : Entity) (s : State) :
    ∃ names s', namesItsTag c e s = .ok names s' ∧ s'.registry = s.registry ∧ Retains c s s' ∧
      (names = true → (c.translation.tag? e.underlying).isSome = true) := by
  unfold namesItsTag
  cases htag : c.translation.tag? e.underlying with
  | none => exact ⟨false, s, rfl, rfl, .refl c s, nofun⟩
  | some tag =>
    obtain ⟨s', hok, hregistry, hretains⟩ := tagName_eq_ok c tag s
    exact ⟨_, s', Steps.bind_of_ok hok, hregistry, hretains, fun _ => rfl⟩

/-- A tag is entered under its name. -/
theorem entering_tag (hkind : (c.type t).kind = .record ∨ (c.type t).kind = .enumeration) (s : State) :
    ∃ s', entering c t s = .ok (some (c.nameOf s (c.tagOf t))) s' ∧
      tagName c (c.tagOf t) s = .ok (c.nameOf s (c.tagOf t)) s' ∧ s'.registry = s.registry ∧
      Retains c s s' := by
  obtain ⟨s', hok, hregistry, hretains⟩ := tagName_eq_ok c (c.tagOf t) s
  refine ⟨s', ?_, hok, hregistry, hretains⟩
  unfold entering
  rcases hkind with hkind | hkind <;> rw [hkind] <;> exact Steps.bind_of_ok hok

/-- The four ways of a typedef: it is one of the platform, its name is reserved, it names its tag, or it is
entered. -/
inductive TypedefWay (c : Setting) (e : Entity) (s : State) : Option String → State → Prop where
  | platform : platformTypedefs.contains e.spelling = true → TypedefWay c e s none s
  | reserved : platformTypedefs.contains e.spelling = false → e.spelling ∈ s.registry.names →
      TypedefWay c e s (some e.spelling) s
  | tag {s' : State} : platformTypedefs.contains e.spelling = false → e.spelling ∉ s.registry.names →
      namesItsTag c e s = .ok true s' → TypedefWay c e s none s'
  | entered {s' : State} : platformTypedefs.contains e.spelling = false →
      e.spelling ∉ s.registry.names → namesItsTag c e s = .ok false s' →
      TypedefWay c e s (some e.spelling) s'

theorem entering_typedef (hkind : (c.type t).kind = .typedef) (s : State) :
    ∃ name? s', entering c t s = .ok name? s' ∧ TypedefWay c (c.typedefOf t) s name? s' := by
  unfold entering
  rw [hkind]
  dsimp only
  by_cases hplatform : platformTypedefs.contains (c.typedefOf t).spelling = true
  · rw [if_pos hplatform]
    exact ⟨_, _, rfl, .platform hplatform⟩
  rw [if_neg hplatform]
  rw [Bool.not_eq_true] at hplatform
  show ∃ name? s', (if s.registry.has (c.typedefOf t).spelling = true then
    pure (some (c.typedefOf t).spelling) else _ : Build (Option String)) s = .ok name? s' ∧ _
  by_cases hreserved : (c.typedefOf t).spelling ∈ s.registry.names
  · rw [if_pos (Registry.has_iff_mem.mpr hreserved)]
    exact ⟨_, _, rfl, .reserved hplatform hreserved⟩
  rw [if_neg (mt Registry.has_iff_mem.mp hreserved)]
  obtain ⟨names, s', hok, -⟩ := namesItsTag_answers c (c.typedefOf t) s
  rw [Steps.bind_of_ok hok]
  cases names with
  | true => exact ⟨_, _, rfl, .tag hplatform hreserved hok⟩
  | false => exact ⟨_, _, rfl, .entered hplatform hreserved hok⟩

/-- If the name is new in the second state, less than in the first one is left to be entered as soon as it
is reserved. -/
def Lessens (c : Setting) (s s' : State) (name? : Option String) : Prop :=
  ∀ name left, name? = some name → name ∉ s'.registry.names → Retains c s' left →
    name ∈ left.registry.names → c.remaining left < c.remaining s

/-- Asking under what name a type is entered always has an answer. -/
theorem entering_eq_ok (c : Setting) (t : TypeRef) (s : State) :
    ∃ name? s', entering c t s = .ok name? s' ∧ Retains c s s' ∧ Lessens c s s' name? := by
  have htag (hkind : (c.type t).kind = .record ∨ (c.type t).kind = .enumeration) :
      ∃ name? s', entering c t s = .ok name? s' ∧ Retains c s s' ∧ Lessens c s s' name? := by
    obtain ⟨s', hentering, -, hregistry, hretains⟩ := entering_tag hkind s
    refine ⟨_, s', hentering, hretains, fun name left hname hnew hleft hmem => ?_⟩
    cases hname
    rw [hregistry] at hnew
    exact (hretains.trans hleft).remaining_lt (entity_mem_everyEntity c _) (.inl rfl) hnew hmem
  cases hkind : (c.type t).kind with
  | record => exact htag (.inl hkind)
  | enumeration => exact htag (.inr hkind)
  | typedef =>
    obtain ⟨name?, s', hentering, hway⟩ := entering_typedef hkind s
    refine ⟨name?, s', hentering, ?_⟩
    cases hway with
    | platform => exact ⟨.refl c s, nofun⟩
    | reserved _ hmem =>
      refine ⟨.refl c s, fun name left hname hnew => ?_⟩
      cases hname
      exact absurd hmem hnew
    | tag _ _ hok =>
      obtain ⟨_, _, hok', -, hretains, -⟩ := namesItsTag_answers c (c.typedefOf t) s
      cases hok.symm.trans hok'
      exact ⟨hretains, nofun⟩
    | entered _ hnew hok =>
      obtain ⟨_, _, hok', -, hretains, -⟩ := namesItsTag_answers c (c.typedefOf t) s
      cases hok.symm.trans hok'
      refine ⟨hretains, fun name left hname _ hleft hmem => ?_⟩
      cases hname
      exact (hretains.trans hleft).remaining_lt (entity_mem_everyEntity c _) (.inr rfl) hnew hmem
  | _ =>
    refine ⟨none, s, ?_, .refl c s, nofun⟩
    unfold entering
    rw [hkind]
    rfl

/-! ## Rules that enter a declaration -/

/-- From a state on, the second way to resolve types is as the first one, which keeps names, wherever the
name is reserved. -/
structure AgreeOnce (c : Setting) (s : State) (name : String) (resolve resolve' : TypeRef → Build String) :
    Prop where
  retaining : ∀ t, Retaining c (resolve t)
  eq : ∀ t left, Retains c s left → name ∈ left.registry.names → resolve' t left = resolve t left

theorem AgreeOnce.agree (h : AgreeOnce c s name resolve resolve') (hs : Retains c s s')
    (hreserved : name ∈ s'.registry.names) (t : TypeRef) : Agree c s' (resolve t) (resolve' t) :=
  ⟨h.retaining t, fun left hleft => h.eq t left (hs.trans hleft) (hleft.names hreserved)⟩

/-- Once the name is reserved, what agrees from there on is the same. -/
theorem reserve_congr (h : AgreeOnce c s name resolve resolve') (hs : Retains c s s') {x y : Build α}
    (hxy : ∀ left, (∀ t, Agree c left (resolve t) (resolve' t)) → Agree c left x y) :
    (reserve name >>= fun _ => y) s' = (reserve name >>= fun _ => x) s' := by
  refine Steps.bind_congr_of_ok fun _ left hleft => ?_
  have hretains := (retaining_reserve (c := c) name).of_ok hleft
  have hreserved : name ∈ left.registry.names := by
    cases hleft
    exact mem_names_reserve s'.registry name
  exact (hxy left (h.agree (hs.trans hretains) hreserved)).eq left (.refl c left)

theorem agree_namedField (h : ∀ t, Agree c s (resolve t) (resolve' t)) (record : String) (offset : Int)
    (field : Entity) :
    Agree c s (namedField c resolve record offset field) (namedField c resolve' record offset field) := by
  have htype : Agree c s (resolve field.type >>= fun type =>
        pure (⟨field.spelling, type, offset, max (c.type field.type).size 0⟩ : Field String Int))
      (resolve' field.type >>= fun type =>
        pure ⟨field.spelling, type, offset, max (c.type field.type).size 0⟩) :=
    (h _).bind fun _ => .refl (.pure _)
  unfold namedField
  dsimp only
  -- naming a tag and telling of a bit-field come before the type, the same way on both sides
  cases htag : c.translation.tag? field.type with
  | none =>
    cases hwidth : field.bitWidth with
    | none => exact htype
    | some width => exact (Agree.refl (retaining_report _ _)).bind fun _ => htype
  | some tag =>
    by_cases hanonymous : isAnonymous tag = true
    · simp only [if_pos hanonymous]
      cases hwidth : field.bitWidth with
      | none => exact (Agree.refl (retaining_nameTag _ _)).bind fun _ => htype
      | some width =>
        exact (Agree.refl (retaining_nameTag _ _)).bind fun _ =>
          (Agree.refl (retaining_report _ _)).bind fun _ => htype
    · simp only [if_neg hanonymous]
      cases hwidth : field.bitWidth with
      | none => exact htype
      | some width => exact (Agree.refl (retaining_report _ _)).bind fun _ => htype

theorem agree_fieldsWithin (h : ∀ t, Agree c s (resolve t) (resolve' t)) (steps : Nat) (t : TypeRef)
    (record : String) (start : Int) :
    Agree c s (fieldsWithin c resolve steps t record start)
      (fieldsWithin c resolve' steps t record start) := by
  induction steps generalizing t start with
  | zero => exact .refl (.throw _)
  | succ steps ih =>
    unfold fieldsWithin
    refine (Agree.mapM fun r _ => ?_).bind fun _ => .refl (.pure _)
    dsimp only
    split
    · exact (agree_namedField h _ _ _).bind fun _ => .refl (.pure _)
    · exact ih _ _

/-- A record whose name is reserved is not entered. -/
theorem record_of_reserved (hname : tagName c (c.tagOf t) s = .ok name s')
    (hreserved : name ∈ s'.registry.names) : record c resolve t s = .ok name s' := by
  unfold record
  refine (Steps.bind_of_ok hname).trans ?_
  show (if s'.registry.has name = true then pure name else _ : Build String) s' = _
  rw [if_pos (Registry.has_iff_mem.mpr hreserved)]
  rfl

theorem record_congr (hname : tagName c (c.tagOf t) s = .ok name s')
    (h : AgreeOnce c s' name resolve resolve') : record c resolve' t s = record c resolve t s := by
  unfold record
  refine (Steps.bind_of_ok hname).trans (.trans ?_ (Steps.bind_of_ok hname).symm)
  dsimp only
  refine Steps.bind_congr_of_ok fun reserved s₁ h₁ => ?_
  split
  · rfl
  refine Steps.bind_congr_of_ok fun _ s₂ h₂ => ?_
  split
  · rfl
  refine Steps.bind_congr_of_ok fun _ s₃ h₃ => ?_
  have hretains : Retains c s' s₃ :=
    (((registers_retaining c).isReserved name).of_ok h₁).trans
      (((retaining_announceIgnored c _ name).of_ok h₂).trans (((admits_retaining c).say _).of_ok h₃))
  exact reserve_congr h hretains fun left hleft => (agree_fieldsWithin hleft _ _ _ _).bind fun _ =>
    .refl ((retaining_declare _).bind fun _ => .pure _)

theorem enumeration_of_reserved (hname : tagName c (c.tagOf t) s = .ok name s')
    (hreserved : name ∈ s'.registry.names) : enumeration c resolve t s = .ok name s' := by
  unfold enumeration
  refine (Steps.bind_of_ok hname).trans ?_
  show (if s'.registry.has name = true then pure name else _ : Build String) s' = _
  rw [if_pos (Registry.has_iff_mem.mpr hreserved)]
  rfl

theorem enumeration_congr (hname : tagName c (c.tagOf t) s = .ok name s')
    (h : AgreeOnce c s' name resolve resolve') :
    enumeration c resolve' t s = enumeration c resolve t s := by
  unfold enumeration
  refine (Steps.bind_of_ok hname).trans (.trans ?_ (Steps.bind_of_ok hname).symm)
  refine Steps.bind_congr_of_ok fun reserved s₁ h₁ => ?_
  split
  · rfl
  refine Steps.bind_congr_of_ok fun _ s₂ h₂ => Steps.bind_congr_of_ok fun _ s₃ h₃ => ?_
  have hretains : Retains c s' s₃ :=
    (((registers_retaining c).isReserved name).of_ok h₁).trans
      (((retaining_announceIgnored c _ name).of_ok h₂).trans (((admits_retaining c).say _).of_ok h₃))
  exact reserve_congr h hretains fun left hleft => (hleft _).bind fun _ =>
    .refl ((retaining_declare _).bind fun _ => .pure _)

theorem typedef_of_platform (h : platformTypedefs.contains e.spelling = true) :
    typedef c resolve e = scalar c (c.canonical e.underlying) e.spelling :=
  if_pos h

/-- A typedef whose name is reserved is not entered, unless it is one of the platform. -/
theorem typedef_of_reserved (hplatform : platformTypedefs.contains e.spelling = false)
    (hreserved : e.spelling ∈ s.registry.names) : typedef c resolve e s = .ok e.spelling s := by
  unfold typedef
  rw [if_neg (Bool.eq_false_iff.mp hplatform)]
  show (if s.registry.has e.spelling = true then pure e.spelling else _ : Build String) s = _
  rw [if_pos (Registry.has_iff_mem.mpr hreserved)]
  rfl

/-- What is left of a typedef whose name is new. -/
theorem typedef_of_new (hplatform : platformTypedefs.contains e.spelling = false)
    (hnew : e.spelling ∉ s.registry.names) {names : Bool} (hok : namesItsTag c e s = .ok names s') :
    typedef c resolve e s = (if names = true then resolve e.underlying else do
      announceIgnored c e e.spelling
      reserve e.spelling
      let underlying ← resolve e.underlying
      say s!"Found Typedef: {e.spelling} -> {underlying}"
      declare ⟨e.spelling, .typedef underlying, c.place? e⟩
      return e.spelling) s' := by
  unfold typedef
  rw [if_neg (Bool.eq_false_iff.mp hplatform)]
  show (if s.registry.has e.spelling = true then pure e.spelling else _ : Build String) s = _
  rw [if_neg (mt Registry.has_iff_mem.mp hnew)]
  exact Steps.bind_of_ok hok

theorem typedef_congr (hplatform : platformTypedefs.contains e.spelling = false)
    (hnew : e.spelling ∉ s.registry.names) (hok : namesItsTag c e s = .ok false s')
    (h : AgreeOnce c s' e.spelling resolve resolve') :
    typedef c resolve' e s = typedef c resolve e s := by
  rw [typedef_of_new hplatform hnew hok, typedef_of_new hplatform hnew hok, if_neg Bool.false_ne_true,
    if_neg Bool.false_ne_true]
  refine Steps.bind_congr_of_ok fun _ s₁ h₁ => ?_
  exact reserve_congr h ((retaining_announceIgnored c e _).of_ok h₁) fun left hleft =>
    (hleft _).bind fun _ => .refl (((admits_retaining c).say _).bind fun _ =>
      (retaining_declare _).bind fun _ => .pure _)

/-! ## Resolving one type -/

/-- A declaration whose name is reserved is not entered, whatever it contains. -/
theorem resolveStep_of_reserved (h : entering c t s = .ok (some name) s')
    (hreserved : name ∈ s'.registry.names) : resolveStep c resolve t s = .ok name s' := by
  cases hkind : (c.type t).kind with
  | record =>
    obtain ⟨s₁, hentering, hname, -⟩ := entering_tag (.inl hkind) s
    cases h.symm.trans hentering
    simp only [resolveStep, hkind]
    exact record_of_reserved hname hreserved
  | enumeration =>
    obtain ⟨s₁, hentering, hname, -⟩ := entering_tag (.inr hkind) s
    cases h.symm.trans hentering
    simp only [resolveStep, hkind]
    exact enumeration_of_reserved hname hreserved
  | typedef =>
    obtain ⟨name?, s₁, hentering, hway⟩ := entering_typedef hkind s
    cases h.symm.trans hentering
    simp only [resolveStep, hkind]
    cases hway with
    | reserved hplatform hmem => exact typedef_of_reserved hplatform hmem
    | entered _ hnew hok =>
      obtain ⟨names, s₂, hok', hregistry, -⟩ := namesItsTag_answers c (c.typedefOf t) s
      cases hok.symm.trans hok'
      exact absurd (hregistry ▸ hreserved) hnew
  | _ =>
    unfold entering at h
    rw [hkind] at h
    cases h

/-- What a declaration contains is resolved where its name is reserved, and nowhere else. -/
theorem resolveStep_of_entering (h : entering c t s = .ok (some name) s')
    (hagree : AgreeOnce c s' name resolve resolve') :
    resolveStep c resolve' t s = resolveStep c resolve t s := by
  by_cases hreserved : name ∈ s'.registry.names
  · rw [resolveStep_of_reserved h hreserved, resolveStep_of_reserved h hreserved]
  cases hkind : (c.type t).kind with
  | record =>
    obtain ⟨s₁, hentering, hname, -⟩ := entering_tag (.inl hkind) s
    cases h.symm.trans hentering
    simp only [resolveStep, hkind]
    exact record_congr hname hagree
  | enumeration =>
    obtain ⟨s₁, hentering, hname, -⟩ := entering_tag (.inr hkind) s
    cases h.symm.trans hentering
    simp only [resolveStep, hkind]
    exact enumeration_congr hname hagree
  | typedef =>
    obtain ⟨name?, s₁, hentering, hway⟩ := entering_typedef hkind s
    cases h.symm.trans hentering
    simp only [resolveStep, hkind]
    cases hway with
    | reserved _ hmem => exact absurd hmem hreserved
    | entered hplatform hnew hok => exact typedef_congr hplatform hnew hok hagree
  | _ =>
    unfold entering at h
    rw [hkind] at h
    cases h

/-- A type that is not entered is resolved as the types it goes on with. -/
theorem resolveStep_of_not_entering (hnone : entering c t s = .ok none s')
    (h : ∀ t', GoesOn c t t' → Agree c s (resolve t') (resolve' t')) :
    resolveStep c resolve' t s = resolveStep c resolve t s := by
  have hself := Retains.refl c s
  cases hkind : (c.type t).kind with
  | elaborated =>
    simp only [resolveStep, hkind]
    exact (h _ (.named hkind)).eq s hself
  | typedef =>
    obtain ⟨name?, s₁, hentering, hway⟩ := entering_typedef hkind s
    cases hnone.symm.trans hentering
    simp only [resolveStep, hkind]
    cases hway with
    | platform hplatform =>
      exact (congrFun (typedef_of_platform hplatform) s).trans
        (congrFun (typedef_of_platform hplatform) s).symm
    | tag hplatform hnew hok =>
      obtain ⟨names, s₂, hok', -, hretains, htag⟩ := namesItsTag_answers c (c.typedefOf t) s
      cases hok.symm.trans hok'
      refine (typedef_of_new hplatform hnew hok).trans (.trans ?_ (typedef_of_new hplatform hnew hok).symm)
      exact (h _ (.underlying hkind (htag rfl))).eq _ hretains
  | pointer =>
    simp only [resolveStep, hkind]
    exact (agree_pointer hkind h).eq s hself
  | constantArray | incompleteArray =>
    simp only [resolveStep, hkind]
    exact (agree_array (by rw [hkind]; rfl) h).eq s hself
  | record =>
    obtain ⟨s₁, hentering, -⟩ := entering_tag (.inl hkind) s
    cases hnone.symm.trans hentering
  | enumeration =>
    obtain ⟨s₁, hentering, -⟩ := entering_tag (.inr hkind) s
    cases hnone.symm.trans hentering
  | prototype | noPrototype =>
    simp only [resolveStep, hkind]
    have hfunction : (c.type t).kind.isFunction = true := by rw [hkind]; rfl
    exact (agree_functionPointer fun t' ht' => h t' (.part hfunction ht')).eq s hself
  | scalar kind =>
    simp only [resolveStep, hkind]
  | invalid | unexposed | other =>
    simp only [resolveStep, hkind]
    exact (agree_canonicalForm (by rw [hkind]; rfl) h).eq s hself

end

end Build

end CInterop.Extraction
