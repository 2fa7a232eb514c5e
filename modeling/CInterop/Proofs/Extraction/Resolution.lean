import CInterop.Proofs.Extraction.Growth

/-!
# Resolving types grows the registry

Each rule for one type is shown to grow the registry if resolving the types it refers to does, and
so, by induction on the number of references followed, does resolving any type. A type that gives a
name is declared with all it refers to; one that cannot be resolved leaves names without nodes
behind those there were.
-/

namespace CInterop.Extraction.Build

open FrontEnd Header

variable {A : String → Prop}

/-- Resolving a type gives a name of the assumed sort, and grows the registry in any case. -/
def Resolves (A : String → Prop) (resolve : TypeRef → Build String) : Prop :=
  ∀ t s, Leads A (resolve t) s (Extends A s) (Gives A s)

section

variable {c : Setting} {resolve : TypeRef → Build String} {s : State}

/-- Resolving, as the first of several steps. -/
theorem Resolves.bind {α : Type} (h : Resolves A resolve) (t : TypeRef) {f : String → Build α}
    {done : α → State → Prop}
    (hf : ∀ name s', Leads A (f name) s' (Extends A s') fun a s'' => Gives A s name s' → done a s'') :
    Leads A (resolve t >>= f) s (Extends A s) done :=
  .bindGrowing ((h t s).post fun _ _ h => ⟨h.grown.growth, h⟩) fun name s' =>
    (hf name s').post fun _ _ hdone _ => hdone

theorem leads_mapM_resolve (h : Resolves A resolve) (ts : List TypeRef) :
    Leads A (ts.mapM resolve) s (Extends A s) fun names s' =>
      Grown A s s' ∧ ∀ name ∈ names, Known A s' name :=
  leads_mapM (Known A) (fun hgrowth h => h.mono hgrowth)
    (fun t s => (h t s).post fun _ _ h => ⟨h.grown, h.known⟩) ts

/-! ## Types without a name of their own -/

theorem leads_scalar (t : TypeRef) (name : String) {stopped : State → Prop} :
    Leads A (scalar c t name) s stopped fun given s' =>
      (∃ size align, s' = s ∨ s' = s.declare ⟨name, .primitive size align, none⟩) ∧
      (A given → Gives A s given s') := by
  refine (leads_declareOnce rfl).post fun given s' h =>
    ⟨⟨_, _, h.2.1⟩, fun hname => ?_⟩
  rw [h.1] at hname
  exact h.2.2 s hname (.refl s) fun _ hother => absurd hother List.not_mem_nil

theorem leads_functionPointer (h : Resolves A resolve) (t : TypeRef) :
    Leads A (functionPointer c resolve t) s (Extends A s) fun name s' =>
      A name → Gives A s name s' := by
  unfold functionPointer
  refine h.bind _ fun result s₁ => ?_
  -- the two kinds of function types differ in their parameters only
  have hdeclare : ∀ parameters s₂, Leads A (declareOnce ⟨functionPointerName result parameters,
      .functionPointer result (parameters.map fun type => ⟨"", type⟩) c.pointerSize, none⟩)
      s₂ (Extends A s₂) fun name s' =>
        Grown A s₁ s₂ → (∀ p ∈ parameters, Known A s₂ p) → Gives A s result s₁ →
        A name → Gives A s name s' := by
    intro parameters s₂
    refine (leads_declareOnce rfl).post fun name s' hgiven hgrown hparameters
      hresult hname => ?_
    rw [hgiven.1] at hname
    refine hgiven.2.2 s hname (hresult.grown.trans hgrown) ?_
    refine List.forall_mem_cons.mpr ⟨hresult.known.mono hgrown.growth, ?_⟩
    simpa [Function.comp_def] using hparameters
  dsimp only
  split
  · exact Leads.bindGrown (leads_mapM_resolve h _) hdeclare
  · refine Leads.bindGrown (.pure ⟨.refl s₁, ?_⟩) hdeclare
    exact fun _ hname => absurd hname List.not_mem_nil

/-- The node of a type with one part, after the part was resolved. -/
theorem leads_declareOver {base : State} {target : String} {node : Declaration}
    (htype : node.kind.isType = true) (hrefs : node.body.references = [target]) :
    Leads A (declareOnce node) s (Extends A s) fun name s' =>
      Gives A base target s → A name → Gives A base name s' := by
  refine (leads_declareOnce htype).post fun name s' hgiven htarget hname => ?_
  rw [hgiven.1] at hname
  refine hgiven.2.2 base hname htarget.grown ?_
  rw [hrefs]
  exact List.forall_mem_singleton.mpr htarget.known

theorem leads_pointer (h : Resolves A resolve) (t : TypeRef) :
    Leads A (pointer c resolve t) s (Extends A s) fun name s' => A name → Gives A s name s' := by
  unfold pointer
  dsimp only
  split
  · exact leads_functionPointer h _
  · exact h.bind _ fun target s₁ => leads_declareOver rfl rfl

theorem leads_array (h : Resolves A resolve) (t : TypeRef) :
    Leads A (array c resolve t) s (Extends A s) fun name s' => A name → Gives A s name s' :=
  h.bind _ fun _ _ => leads_declareOver rfl rfl

/-! ## Records -/

/-- The type of a field is resolved after its width is reported, if it has one. -/
theorem leads_fieldType (h : Resolves A resolve) (record : String) (offset : Int)
    (field : Entity) :
    Leads A (do
      match field.bitWidth with
      | some width =>
        report (.unmappable s!"{record}.{field.spelling}"
          s!"bit-field of width {width} is exposed as its storage unit") (c.placeText field)
      | none => pure ()
      let type ← resolve field.type
      return (⟨field.spelling, type, offset, max (c.type field.type).size 0⟩ : Field String Int))
      s (Extends A s) fun f s' => Grown A s s' ∧ Known A s' f.type := by
  have hfield : ∀ s, Leads A (do
      let type ← resolve field.type
      return (⟨field.spelling, type, offset, max (c.type field.type).size 0⟩ : Field String Int))
      s (Extends A s) fun f s' => Grown A s s' ∧ Known A s' f.type := fun s =>
    h.bind _ fun type s' => .pure fun htype => ⟨htype.grown, htype.known⟩
  dsimp only
  split
  · exact (leads_report _ _).afterQuiet fun _ s' => hfield s'
  · exact hfield s

theorem leads_namedField (h : Resolves A resolve) (record : String) (offset : Int)
    (field : Entity) :
    Leads A (namedField c resolve record offset field) s (Extends A s) fun f s' =>
      Grown A s s' ∧ Known A s' f.type := by
  unfold namedField
  dsimp only
  split
  · split
    · exact (leads_nameTag _ _).afterQuiet fun _ s' => leads_fieldType h record offset field
    · exact leads_fieldType h record offset field
  · exact leads_fieldType h record offset field

theorem leads_fieldsWithin (h : Resolves A resolve) (steps : Nat) (t : TypeRef) (record : String)
    (start : Int) :
    Leads A (fieldsWithin c resolve steps t record start) s (Extends A s) fun fs s' =>
      Grown A s s' ∧ ∀ f ∈ fs, Known A s' f.type := by
  -- the members of an anonymous member are fields of the same record, one step further down
  induction steps generalizing s t start with
  | zero => exact .throw_failed
  | succ steps ih =>
    unfold fieldsWithin
    refine (leads_mapM (fun s (part : List (Field String Int)) => ∀ f ∈ part, Known A s f.type)
      (fun hgrowth hpart f hf => (hpart f hf).mono hgrowth) ?_ _).bindGrown
      fun parts s₁ => .pure fun hgrown hparts => ⟨hgrown, fun f hf => ?_⟩
    · intro r s
      dsimp only
      split
      · refine (leads_namedField h _ _ _).bindGrown fun f s' => .pure fun hgrown hf => ?_
        exact ⟨hgrown, List.forall_mem_singleton.mpr hf⟩
      · exact ih _ _
    · obtain ⟨part, hpart, hf⟩ := List.mem_flatten.mp hf
      exact hparts part hpart f hf

theorem leads_fields (h : Resolves A resolve) (t : TypeRef) (record : String) :
    Leads A (fields c resolve t record) s (Extends A s) fun fs s' =>
      Grown A s s' ∧ ∀ f ∈ fs, Known A s' f.type :=
  leads_fieldsWithin h _ t record 0

theorem leads_record (h : Resolves A resolve) (t : TypeRef) :
    Leads A (record c resolve t) s (Extends A s) fun name s' =>
      Grown A s s' ∧ name ∈ s'.registry.names := by
  unfold record
  dsimp only
  refine (leads_tagName c _).afterQuiet fun name s₁ => ?_
  refine leads_isReserved ?_
  split
  · rename_i hreserved
    exact .pure ⟨.refl s₁, Registry.has_iff_mem.mp hreserved⟩
  · rename_i hnew
    rw [Registry.has_iff_mem] at hnew
    refine (leads_announceIgnored c _ name).bindQuiet fun _ s₂ => ?_
    split
    · -- an incomplete type is declared without its name being reserved first
      refine (leads_say _).bindQuiet fun _ s₃ => leads_declare (.pure fun hsay hannounce => ?_)
      have hquiet : Quiet s₁ s₃ := hannounce.trans hsay
      refine ⟨hquiet.growth.declareNew rfl (fun _ h => absurd h List.not_mem_nil) hnew ?_,
        mem_names_declare _ _⟩
      exact (settles_reserve s₁ name).trans hquiet.settles
    · refine (leads_say _).bindQuiet fun _ s₃ => leads_reserve ?_
      refine (leads_fields h _ name).bindGrown fun fs s₄ => leads_declare (.pure ?_)
      intro hgrown hfs hsay hannounce
      refine ⟨Grown.declareOwn (hannounce.trans hsay) hgrown rfl ?_ hnew, mem_names_declare _ _⟩
      intro other hother
      obtain ⟨f, hf, rfl⟩ := List.mem_map.mp hother
      exact hfs f hf

/-! ## Enumerations and typedefs -/

theorem leads_enumeration (h : Resolves A resolve) (t : TypeRef) :
    Leads A (enumeration c resolve t) s (Extends A s) fun name s' =>
      Grown A s s' ∧ name ∈ s'.registry.names := by
  unfold enumeration
  dsimp only
  refine (leads_tagName c _).afterQuiet fun name s₁ => leads_isReserved ?_
  split
  · rename_i hreserved
    exact .pure ⟨.refl s₁, Registry.has_iff_mem.mp hreserved⟩
  · rename_i hnew
    rw [Registry.has_iff_mem] at hnew
    refine (leads_announceIgnored c _ name).bindQuiet fun _ s₂ => ?_
    refine (leads_say _).bindQuiet fun _ s₃ => leads_reserve ?_
    refine h.bind _ fun integerType s₄ => leads_declare (.pure fun htype hsay hannounce => ?_)
    refine ⟨Grown.declareOwn (hannounce.trans hsay) htype.grown rfl ?_ hnew,
      mem_names_declare _ _⟩
    exact List.forall_mem_singleton.mpr htype.known

/-- A typedef that does not depend on the platform grows the registry whatever its name is. -/
theorem leads_typedef (h : Resolves A resolve) (e : Entity) :
    Leads A (typedef c resolve e) s (Extends A s) fun name s' =>
      (platformTypedefs.contains e.spelling = true →
        (∃ size align, s' = s ∨ s' = s.declare ⟨e.spelling, .primitive size align, none⟩) ∧
        (A name → Gives A s name s')) ∧
      (platformTypedefs.contains e.spelling = false → Grown A s s' ∧ name ∈ s'.registry.names) := by
  unfold typedef
  dsimp only
  split
  · rename_i hplatform
    refine (leads_scalar _ _).post fun name s' hgiven => ?_
    exact ⟨fun _ => hgiven, fun hnot => absurd hplatform (by rw [hnot]; decide)⟩
  · rename_i hplatform
    have hnot : ∀ P : Prop, platformTypedefs.contains e.spelling = true → P :=
      fun P htrue => absurd htrue hplatform
    refine leads_isReserved ?_
    split
    · rename_i hreserved
      exact .pure ⟨hnot _, fun _ => ⟨.refl s, Registry.has_iff_mem.mp hreserved⟩⟩
    · rename_i hnew
      rw [Registry.has_iff_mem] at hnew
      refine (leads_namesItsTag c e).bindQuiet fun named s₁ => ?_
      split
      · -- the typedef repeats the name of its tag, which is resolved in its place
        refine (h _ s₁).post fun name s' hgives hquiet => ⟨hnot _, fun _ => ?_⟩
        exact ⟨hquiet.grown.trans hgives.grown, hgives.known.reserved⟩
      · refine (leads_announceIgnored c e _).bindQuiet fun _ s₂ => leads_reserve ?_
        refine h.bind _ fun underlying s₃ => ?_
        refine (leads_say _).bindQuiet fun _ s₄ => leads_declare (.pure ?_)
        intro hsay hunderlying hannounce hnamed
        refine ⟨hnot _, fun _ => ⟨?_, mem_names_declare _ _⟩⟩
        have hgrown := hunderlying.grown.trans (hsay.grown (A := A))
        refine Grown.declareOwn (hnamed.trans hannounce) hgrown rfl ?_ hnew
        exact List.forall_mem_singleton.mpr (hunderlying.known.mono hsay.growth)

/-! ## Any type -/

theorem leads_canonicalForm (h : Resolves A resolve) (t : TypeRef) :
    Leads A (canonicalForm c resolve t) s (Extends A s) (Gives A s) := by
  unfold canonicalForm
  dsimp only
  split
  · exact .throw_unresolved (.refl s)
  · exact h _ s

theorem leads_resolveStep (h : Resolves A resolve) (t : TypeRef) :
    Leads A (resolveStep c resolve t) s (Extends A s) fun name s' => A name → Gives A s name s' := by
  have hgives : ∀ {name s'}, Grown A s s' ∧ name ∈ s'.registry.names → A name → Gives A s name s' :=
    fun h hname => ⟨h.1, hname, h.2⟩
  unfold resolveStep
  dsimp only
  split
  · exact (h _ s).post fun _ _ h _ => h
  · refine (leads_typedef h _).post fun name s' hgiven => ?_
    cases hplatform : platformTypedefs.contains (c.entity (c.type t).declaration).spelling with
    | true => exact (hgiven.1 hplatform).2
    | false => exact hgives (hgiven.2 hplatform)
  · exact leads_pointer h t
  · exact leads_array h t
  · exact leads_array h t
  · exact (leads_record h t).post fun _ _ => hgives
  · exact (leads_enumeration h t).post fun _ _ => hgives
  · exact leads_functionPointer h t
  · exact leads_functionPointer h t
  · exact (leads_scalar t _).post fun _ _ h => h.2
  all_goals exact (leads_canonicalForm h t).post fun _ _ h _ => h

end

theorem resolves_resolveWithin (c : Setting) (steps : Nat) :
    Resolves A (resolveWithin c steps) := by
  induction steps with
  | zero => exact fun _ _ => .throw_failed
  | succ steps ih =>
    intro t s
    unfold resolveWithin
    -- the rule leaves open whether its name is as assumed; the note that follows settles it
    refine Leads.bind (leads_resolveStep ih t) fun name s' => ?_
    refine leads_noteResolved.bind fun _ s'' => .pure fun hnote hgives => ?_
    obtain ⟨hquiet, hname⟩ := hnote
    exact ⟨(hgives hname).grown.trans hquiet.grown, (hgives hname).known.mono hquiet.growth⟩

theorem resolves_resolve (c : Setting) : Resolves A (resolve c) :=
  resolves_resolveWithin c (referenceLimit c)

end CInterop.Extraction.Build
