import CInterop.Proofs.Extraction.Course

/-!
# Every node stems from the source

Resolving a type is made of changes, whatever comes of it, and the name it gives designates the type.
So are the declarations, the macros and the whole tree. A node is declared for a reason only, so that
all nodes of a tree stem from the source. Where there is no tree, it is known why.
-/

namespace CInterop.Extraction

open FrontEnd Header
open Macro (Candidate)

/-- Why a type has no name. -/
inductive TypeStop : Stop → Prop where
  | unresolved (spelling : String) : TypeStop (.unresolved spelling)
  | endless : TypeStop (.failed (.fault .endlessTypes))

/-- Why a header that was read has no tree. -/
inductive TreeStop (c : Setting) : Stop → Prop where
  | endless : TreeStop c (.failed (.fault .endlessTypes))
  | strict (spelling declaration : String) : c.isStrict = true →
      TreeStop c (.failed (.unresolvedType (Cause.unresolvedType spelling declaration).summary))
  | typing : c.translation.typing.isReadable = false →
      TreeStop c (.failed (.unparsable (Build.typingPath c)))

namespace Build

variable {c : Setting} {s : State}

/-! ## Types -/

/-- Resolving a type gives a name that designates it. -/
def Names (c : Setting) (resolve : TypeRef → Build String) : Prop :=
  ∀ t s, Runs c TypeStop (resolve t) s fun name s' => Designates c s' t name

section

variable {resolve : TypeRef → Build String}

theorem Names.running (h : Names c resolve) (t : TypeRef) : Running c TypeStop (resolve t) :=
  Runs.running (h t)

theorem runs_scalar {E : Stop → Prop} (t : TypeRef) (name : String) :
    Runs c E (scalar c t name) s fun given _ => given = name :=
  runs_declareOnce (.primitive name _ _)

theorem running_stringType {E : Stop → Prop} (c' : Setting) (hsize : c'.pointerSize = c.pointerSize) :
    Running c E (stringType c') := by
  refine fun s => (runs_declareOnce (.primitive "char" 1 1)).bind fun char s₁ _ hchar => ?_
  refine (running_noteString _ s₁).bind fun _ s₂ _ _ => ?_
  refine (runs_declareOnce ?_).bind fun string s₃ _ _ => (running_noteString _ s₃).bind fun _ _ _ _ =>
    .pure trivial
  rw [hsize]
  exact .pointer char

theorem runs_functionPointer (h : Names c resolve) (t : TypeRef) :
    Runs c TypeStop (functionPointer c resolve t) s fun name s' => Formed c s' name := by
  have hdeclare (result : String) (parameters : List String) (s : State) :
      Runs c TypeStop (declareOnce ⟨functionPointerName result parameters,
        .functionPointer result (parameters.map fun type => ⟨"", type⟩) c.pointerSize, none⟩) s
        fun name s' => Formed c s' name :=
    (runs_declareOnce (.functionPointer result parameters)).post fun name _ hname =>
      hname ▸ .functionPointer result parameters
  unfold functionPointer
  refine (h _ s).bind fun result s₁ _ _ => ?_
  dsimp only
  split
  · exact ((speaks_running c _).mapM h.running _ s₁).bind fun parameters s₂ _ _ =>
      hdeclare result parameters s₂
  · exact hdeclare result [] s₁

theorem runs_pointer (h : Names c resolve) (t : TypeRef) :
    Runs c TypeStop (pointer c resolve t) s fun name s' => Formed c s' name := by
  unfold pointer
  dsimp only
  split
  · exact runs_functionPointer h _
  · refine (h _ s).bind fun target s₁ _ _ => ?_
    exact (runs_declareOnce (.pointer target)).post fun _ _ hname => hname ▸ .pointer target

theorem runs_array (h : Names c resolve) (t : TypeRef) :
    Runs c TypeStop (array c resolve t) s fun name s' => Formed c s' name := by
  unfold array
  refine (h _ s).bind fun element s₁ _ _ => ?_
  exact (runs_declareOnce (.array element _ _)).post fun _ _ hname => hname ▸ .array element _

/-! ## Tags -/

section

variable {owner : Entity} {name : String}

/-- A field of a record may name its tag for the record and itself. -/
theorem runs_namedField (h : Names c resolve) (howner : IsTag c owner) (hcalled : Called c s owner name)
    {f : Entity} (hfield : f ∈ fieldsOf c owner) (offset : Int) :
    Runs c TypeStop (namedField c resolve name offset f) s fun _ _ => True := by
  have hrest := (speaks_running c TypeStop).widthAndType (c := c) h.running name offset f
  unfold namedField
  dsimp only
  split
  · rename_i tag htag
    split
    · have hsuggests : Suggests c s tag s!"{name}_{f.spelling}_{tag.kind.label}" :=
        .field howner hcalled hfield htag
      exact (runs_nameTag ⟨_, htag⟩ ‹_› hsuggests).bind fun _ s₁ _ _ => hrest s₁
    · exact hrest s
  · exact hrest s

/-- The fields within a part of a record are fields of the record. -/
theorem runs_fieldsWithin (h : Names c resolve) (howner : IsTag c owner) (steps : Nat) {t : TypeRef}
    (hfields : namedFields c steps t ⊆ fieldsOf c owner) (start : Int)
    (hcalled : Called c s owner name) :
    Runs c TypeStop (fieldsWithin c resolve steps t name start) s fun _ _ => True := by
  induction steps generalizing t start s with
  | zero => exact .throw .endless
  | succ steps ih =>
    unfold fieldsWithin
    refine (Runs.mapM (I := fun s => Called c s owner name)
      (fun _ _ hcourse hcalled => hcalled.mono hcourse.later.tagged)
      (fun r hr s₁ hcalled₁ => ?_) hcalled).bind fun _ _ _ _ => .pure trivial
    have hmember {f : Entity} (hf : f ∈ if isName (c.entity r).spelling then [c.entity r]
        else namedFields c steps (c.canonical (c.entity r).type)) : f ∈ fieldsOf c owner :=
      hfields (List.mem_flatMap.mpr ⟨r, hr, hf⟩)
    dsimp only
    split
    · rename_i hnamed
      rw [if_pos hnamed] at hmember
      exact (runs_namedField h howner hcalled₁ (hmember (List.mem_singleton_self _)) _).bind
        fun _ _ _ _ => .pure trivial
    · rename_i hunnamed
      rw [if_neg hunnamed] at hmember
      exact ih (fun f hf => hmember hf) _ hcalled₁

end

theorem runs_record (h : Names c resolve) {t : TypeRef} (hkind : (c.type t).kind = .record) :
    Runs c TypeStop (record c resolve t) s fun name s' =>
      Called c s' (c.entity (c.translation.definitionOf (c.type t).declaration)) name := by
  have htag : IsTag c (c.entity (c.translation.definitionOf (c.type t).declaration)) :=
    ⟨t, tag?_of_kind (.inl hkind)⟩
  unfold record
  dsimp only
  refine (runs_tagName htag).bind fun name s₁ _ hcalled => ?_
  refine ((speaks_running c _).isReserved name s₁).bind fun _ s₂ h₂ _ => ?_
  have hcalled₂ := hcalled.mono h₂.later.tagged
  split
  · exact .pure hcalled₂
  refine (runs_announceIgnored _ name).bind fun _ s₃ h₃ hannounced => ?_
  -- the name was decided on and announced before; what follows keeps both
  have hcalled₃ := hcalled₂.mono h₃.later.tagged
  split
  · refine (running_say _ s₃).bind fun _ s₄ h₄ _ => ?_
    have hcalled₄ := hcalled₃.mono h₄.later.tagged
    have hstems := Stems.tag htag hcalled₄ .incomplete fun hi => h₄.later.announced (hannounced hi)
    exact (runs_declare hstems).bind fun _ _ h₅ _ => .pure (hcalled₄.mono h₅.later.tagged)
  · refine (running_say _ s₃).bind fun _ s₄ h₄ _ => (running_reserve name s₄).bind fun _ s₅ h₅ _ => ?_
    have hcalled₅ := (hcalled₃.mono h₄.later.tagged).mono h₅.later.tagged
    refine (runs_fieldsWithin h htag _ (List.Subset.refl _) 0 hcalled₅).bind fun fields s₆ h₆ _ => ?_
    have hcalled₆ := hcalled₅.mono h₆.later.tagged
    have hlater := h₄.later.trans (h₅.later.trans h₆.later)
    have hstems := Stems.tag htag hcalled₆ (.record fields) fun hi => hlater.announced (hannounced hi)
    exact (runs_declare hstems).bind fun _ _ h₇ _ => .pure (hcalled₆.mono h₇.later.tagged)

theorem runs_enumeration (h : Names c resolve) {t : TypeRef}
    (hkind : (c.type t).kind = .enumeration) :
    Runs c TypeStop (enumeration c resolve t) s fun name s' =>
      Called c s' (c.entity (c.translation.definitionOf (c.type t).declaration)) name := by
  have htag : IsTag c (c.entity (c.translation.definitionOf (c.type t).declaration)) :=
    ⟨t, tag?_of_kind (.inr hkind)⟩
  unfold enumeration
  dsimp only
  refine (runs_tagName htag).bind fun name s₁ _ hcalled => ?_
  refine ((speaks_running c _).isReserved name s₁).bind fun _ s₂ h₂ _ => ?_
  have hcalled₂ := hcalled.mono h₂.later.tagged
  split
  · exact .pure hcalled₂
  refine (runs_announceIgnored _ name).bind fun _ s₃ h₃ hannounced => ?_
  refine (running_say _ s₃).bind fun _ s₄ h₄ _ => (running_reserve name s₄).bind fun _ s₅ h₅ _ => ?_
  refine (h.running _ s₅).bind fun integerType s₆ h₆ _ => ?_
  have hlater := h₄.later.trans (h₅.later.trans h₆.later)
  have hcalled₆ := hcalled₂.mono (h₃.later.trans hlater).tagged
  have hstems := Stems.tag htag hcalled₆ (.enumeration integerType)
    fun hi => hlater.announced (hannounced hi)
  exact (runs_declare hstems).bind fun _ _ h₇ _ => .pure (hcalled₆.mono h₇.later.tagged)

/-! ## Names of types -/

/-- A typedef of the source is called by its name there, unless it repeats that of its tag. -/
theorem runs_typedef (h : Names c resolve) (r : EntityRef) :
    Runs c TypeStop (typedef c resolve (c.entity r)) s fun name s' =>
      name = (c.entity r).spelling ∨ Formed c s' name := by
  unfold typedef
  dsimp only
  split
  · exact (runs_scalar _ _).post fun _ _ => .inl
  refine ((speaks_running c _).isReserved _ s).bind fun _ s₁ _ _ => ?_
  split
  · exact .pure (.inl rfl)
  refine (runs_namesItsTag _).bind fun named s₂ _ hnamed => ?_
  split
  · -- what names a tag is no typedef, so that the name was formed
    rename_i htrue
    obtain ⟨tag, htag⟩ := Option.isSome_iff_exists.mp (hnamed htrue)
    refine (h _ s₂).post fun name s' hname => ?_
    rcases hname with ⟨e, hreaches, -⟩ | hformed
    · exact absurd hreaches (not_reaches_of_tag? htag)
    · exact .inr hformed
  · refine (runs_announceIgnored _ _).bind fun _ s₃ _ hannounced => ?_
    refine (running_reserve _ s₃).bind fun _ s₄ h₄ _ => ?_
    refine (h _ s₄).bind fun underlying s₅ h₅ hunderlying => ?_
    refine (running_say _ s₅).bind fun _ s₆ h₆ _ => ?_
    have hlater := h₄.later.trans (h₅.later.trans h₆.later)
    have hstems := Stems.typedef (hunderlying.mono h₆.later.tagged)
      fun hi => hlater.announced (hannounced hi)
    exact (runs_declare hstems).bind fun _ _ _ _ => .pure (.inl rfl)

theorem runs_canonicalForm (h : Names c resolve) {t : TypeRef}
    (hvague : (c.type t).kind.isVague = true) :
    Runs c TypeStop (canonicalForm c resolve t) s fun name s' => Designates c s' t name := by
  unfold canonicalForm
  dsimp only
  split
  · exact .throw (.unresolved _)
  · rename_i hkind
    rw [not_or] at hkind
    refine (h _ s).post fun name s' hname => ?_
    rcases hname with ⟨e, hreaches, hspelling⟩ | hformed
    · exact .inl ⟨e, .canonical hvague hkind.1 hreaches, hspelling⟩
    · exact .inr hformed

theorem runs_resolveStep (h : Names c resolve) (t : TypeRef) :
    Runs c TypeStop (resolveStep c resolve t) s fun name s' => Designates c s' t name := by
  unfold resolveStep
  dsimp only
  cases hkind : (c.type t).kind with
  | elaborated =>
    refine (h _ s).post fun name s' hname => ?_
    rcases hname with ⟨e, hreaches, hspelling⟩ | hformed
    · exact .inl ⟨e, .elaborated hkind hreaches, hspelling⟩
    · exact .inr hformed
  | typedef =>
    refine (runs_typedef h _).post fun name s' hname => ?_
    exact hname.imp_left fun hspelling => ⟨_, .typedef hkind, hspelling⟩
  | pointer => exact (runs_pointer h t).post fun _ _ => .inr
  | constantArray | incompleteArray => exact (runs_array h t).post fun _ _ => .inr
  | record =>
    exact (runs_record h hkind).sound.post fun _ _ hname =>
      .inr (hname.2.formed hname.1 (tag?_of_kind (.inl hkind)))
  | enumeration =>
    exact (runs_enumeration h hkind).sound.post fun _ _ hname =>
      .inr (hname.2.formed hname.1 (tag?_of_kind (.inr hkind)))
  | prototype | noPrototype => exact (runs_functionPointer h t).post fun _ _ => .inr
  | scalar k => exact (runs_scalar t _).post fun _ _ hname => .inr (hname ▸ .scalar hkind)
  | invalid | unexposed | other => exact runs_canonicalForm h (by rw [hkind]; rfl)

end

theorem names_resolveWithin (c : Setting) (steps : Nat) : Names c (resolveWithin c steps) := by
  induction steps with
  | zero => exact fun _ _ => .throw .endless
  | succ steps ih =>
    intro t s
    unfold resolveWithin
    refine (runs_resolveStep ih t).bind fun name s₁ _ hname => ?_
    exact (running_noteResolved name s₁).bind fun _ _ hcourse _ =>
      .pure (hname.mono hcourse.later.tagged)

theorem names_resolve (c : Setting) : Names c (resolve c) := names_resolveWithin c _

/-! ## Declarations -/

theorem running_attempt {α : Type} {x : Build α} (h : Running c TypeStop x) :
    Running c (TreeStop c) (attempt x) := by
  intro s hs
  have hx := h s hs
  unfold attempt
  cases hresult : x s with
  | ok a s' =>
    rw [hresult] at hx
    exact hx
  | error stop s' =>
    rw [hresult] at hx
    obtain ⟨hcourse, hstop⟩ := hx
    cases hstop with
    | unresolved spelling => exact ⟨hcourse, trivial⟩
    | endless => exact ⟨hcourse, .endless⟩

/-- A declaration either stands or is undone. -/
theorem running_declaration {α : Type} {e : Entity} {body : Build α} (h : Running c TypeStop body) :
    Running c (TreeStop c) (declaration c e body) := by
  intro s hs
  have hbody := h s hs
  unfold declaration
  cases hresult : body s with
  | ok a s' =>
    rw [hresult] at hbody
    exact hbody
  | error stop s' =>
    rw [hresult] at hbody
    obtain ⟨hcourse, hstop⟩ := hbody
    cases hstop with
    | endless => exact ⟨hcourse, .endless⟩
    | unresolved spelling =>
      have hundone := (hcourse.tail (.cut s' s.registry.size)).tail (.told _
        (d := ⟨.unresolvedType spelling e.spelling, some (c.placeText e)⟩) rfl)
      dsimp only
      by_cases hstrict : c.isStrict = true
      · rw [if_pos hstrict]
        exact ⟨hundone, .strict spelling e.spelling hstrict⟩
      · rw [if_neg hstrict]
        exact ⟨hundone, trivial⟩

theorem running_function {e : Entity} (hvisited : IsVisited c e) (hkind : e.kind = .function) :
    Running c TypeStop (function c e) := by
  refine (speaks_running c TypeStop).function (names_resolve c).running fun node hbody hname hplace => ?_
  obtain ⟨name, body, place⟩ := node
  obtain rfl : name = e.spelling := hname
  obtain rfl : place = c.place? e := hplace
  exact fun s => runs_declare (.function hvisited hkind hbody)

theorem running_global {e : Entity} (hvisited : IsVisited c e) (hkind : e.kind = .global) :
    Running c TypeStop (global c e) := by
  refine (speaks_running c TypeStop).global (names_resolve c).running fun node hbody hname hplace => ?_
  obtain ⟨name, body, place⟩ := node
  obtain rfl : name = e.spelling := hname
  obtain rfl : place = c.place? e := hplace
  exact fun s => runs_declare (.global hvisited hkind hbody)

theorem running_collectMacro {E : Stop → Prop} {e : Entity} (hvisited : IsVisited c e)
    (hkind : e.kind = .constant) : Running c E (collectMacro c e) := by
  unfold collectMacro
  split
  · exact .pure _
  split
  · exact .pure _
  split
  · exact running_report _ rfl
  dsimp only
  split
  · exact .pure _
  · refine fun s => (Runs.change ?_).post fun _ _ _ => trivial
    split
    · split
      · exact .refl
      · exact .single (.aside s _ _ _ _ _ _)
    · exact .tail (.single (.collected s _ hvisited hkind)) (.reserved _ e.spelling)

theorem running_visitKind {r : EntityRef} (hvisited : IsVisited c (c.entity r)) :
    Running c (TreeStop c) (visitKind c (c.entity r)) := by
  have hresolve : Running c (TreeStop c)
      (declaration c (c.entity r) (resolve c (c.entity r).type)) :=
    running_declaration ((names_resolve c).running _)
  have htag : Running c (TreeStop c) (do
      if isAnonymous (c.entity r) && ((← get).tagNames.lookup (c.entity r).spot).isNone then return
      declaration c (c.entity r) (resolve c (c.entity r).type)) := by
    refine Running.get.bind fun s => ?_
    split
    · exact .pure _
    · exact hresolve
  unfold visitKind
  cases hkind : (c.entity r).kind with
  | function => exact running_declaration (running_function hvisited hkind)
  | global => exact running_declaration (running_global hvisited hkind)
  | struct | union => exact htag
  | enumeration => exact hresolve
  | typedef => exact running_declaration (Runs.running fun s => runs_typedef (names_resolve c) r)
  | constant => exact running_collectMacro hvisited hkind
  | enumerator | other => exact .pure _

theorem running_visit {r : EntityRef} (hr : r ∈ c.translation.header.top) :
    Running c (TreeStop c) (visit c (c.entity r)) := by
  unfold visit
  split
  · exact .pure _
  rename_i hown
  split
  · exact (speaks_running c _).detail _
  · rename_i hkept
    simp only [Bool.or_eq_true, not_or, Bool.not_eq_true, Option.isNone_eq_false_iff] at hown hkept
    exact running_visitKind ⟨List.mem_map_of_mem hr, hown.1, hown.2, hkept⟩

theorem running_visits {es : List Entity} (hes : es ⊆ c.translation.topLevel) :
    Running c (TreeStop c) (es.forM (visit c)) := by
  refine (speaks_running c _).forM fun e he => ?_
  obtain ⟨r, hr, rfl⟩ := List.mem_map.mp (hes he)
  exact running_visit hr

theorem running_nameTagsByTypedefs {E : Stop → Prop} : Running c E (nameTagsByTypedefs c) := by
  unfold nameTagsByTypedefs
  refine (speaks_running c E).forM fun e he => ?_
  split
  · rename_i hkind
    split
    · rename_i tag htag
      split
      · exact fun s => (runs_nameTag ⟨_, htag⟩ ‹_› (.typedef he hkind htag)).post fun _ _ _ => trivial
      · exact .pure _
    · exact .pure _
  · exact .pure _

/-! ## Constants -/

theorem running_exclude {E : Stop → Prop} (candidate : Candidate) (reason : String) :
    Running c E (exclude c candidate reason) :=
  ((speaks_running c E).detail _).bind fun _ => running_report _ rfl

theorem running_constants (candidates : List Candidate) :
    Running c (TreeStop c) (constants c (typeRegistry c) candidates) :=
  (speaks_running c _).constants (fun hunreadable => .throw (.typing hunreadable))
    (speaks_running c _).detail running_ask running_exclude (running_stringType c rfl)
    (fun t => running_attempt ((names_resolve c).running t)) candidates

/-- Every constant is that of a macro. -/
theorem macro_of_mem_constants {types : TypeRegistry} {candidates : List Candidate}
    {accepted : List Declaration} {s' : State} (h : constants c types candidates s = .ok accepted s')
    {node : Declaration} (hnode : node ∈ accepted) :
    ∃ m ∈ candidates, ∃ type, node = constantOf m type := by
  obtain ⟨-, -, hbecomes⟩ := constants_eq_ok h
  obtain ⟨before, after, hsplit⟩ := List.append_of_mem hnode
  obtain ⟨_, m, _, hbecomes⟩ := hbecomes before node after hsplit
  exact ⟨m, (Candidate.kept_sublist [] candidates).subset (List.mem_of_getElem? hbecomes.place),
    hbecomes.node⟩

theorem runs_settle {E : Stop → Prop} {accepted : List Declaration}
    (h : ∀ node ∈ accepted, Stems c s node) (candidate : Candidate) :
    Runs c E (settle accepted candidate) s fun _ _ => True := by
  unfold settle
  split
  · rename_i node hfind
    exact runs_declare (h node (List.mem_of_find?_eq_some hfind))
  · refine (Runs.change ?_).post fun _ _ _ => trivial
    split
    · exact .refl
    · exact .single (.released s _)

/-- Every constant is that of a macro that was collected. -/
theorem runs_judgeMacros (c : Setting) (s : State) :
    Runs c (TreeStop c) (judgeMacros c) s fun accepted s' => ∀ node ∈ accepted, Stems c s' node := by
  unfold judgeMacros
  refine .get_bind ?_
  dsimp only
  refine ((speaks_running c _).forM (fun candidate _ => running_report _ rfl) s).bind
    fun _ s₁ h₁ _ => ?_
  refine (running_constants _ s₁).of_ok fun accepted s₂ h₂ hconstants node hnode => ?_
  obtain ⟨m, hm, type, rfl⟩ := macro_of_mem_constants hconstants hnode
  exact .constant type ((h₁.later.trans h₂.later).candidates (List.mem_of_mem_filter hm))

theorem running_settleMacros (c : Setting) : Running c (TreeStop c) (settleMacros c) := by
  intro s
  unfold settleMacros
  refine .get_bind ((runs_judgeMacros c s).bind fun accepted s₁ _ haccepted => ?_)
  exact Runs.forM (I := fun s => ∀ node ∈ accepted, Stems c s node)
    (fun _ _ hcourse hnodes node hnode => (hnodes node hnode).mono hcourse.later)
    (fun candidate _ _ hnodes => runs_settle hnodes candidate) haccepted

/-! ## The whole tree -/

theorem runs_tree (c : Setting) (s : State) :
    Runs c (TreeStop c) (tree c) s fun t s' =>
      t = ⟨c.storedPath c.header, c.bitness, s'.registry.nodes⟩ := by
  unfold tree
  refine (running_nameTagsByTypedefs s).bind fun _ s₁ _ _ => ?_
  refine (running_visits (List.Subset.refl _) s₁).bind fun _ s₂ _ _ => ?_
  refine (running_settleMacros c s₂).bind fun _ s₃ _ _ => ?_
  exact .get_bind (.pure rfl)

end Build

section

variable {c : Setting} {s₀ s : State}

/-- Before anything is extracted there is nothing that could be unsound. -/
theorem sound_of_empty (hregistry : s.registry = {}) (hrenames : s.tagRenames = []) : Sound c s where
  nodes node hnode := by
    rw [hregistry] at hnode
    cases hnode
  renames key name hmem := by
    rw [hrenames] at hmem
    cases hmem

/-- A tree is what a course of changes comes to. -/
theorem course_of_tree {t : Declarations} (hs₀ : Sound c s₀) (h : Build.tree c s₀ = .ok t s) :
    Course c s₀ s ∧ t = ⟨c.storedPath c.header, c.bitness, s.registry.nodes⟩ :=
  (Build.runs_tree c s₀).result hs₀ h

/-- All nodes of a tree stem from the source. -/
theorem sourced_of_tree {t : Declarations} (hs₀ : Sound c s₀) (h : Build.tree c s₀ = .ok t s) :
    ∀ node ∈ t.nodes, Sourced c s node := by
  obtain ⟨hcourse, rfl⟩ := course_of_tree hs₀ h
  exact (hs₀.course hcourse).nodes

/-- Where there is no tree, it is known why. -/
theorem treeStop_of_tree {stop : Stop} (hs₀ : Sound c s₀) (h : Build.tree c s₀ = .error stop s) :
    TreeStop c stop := by
  have hruns := Build.runs_tree c s₀ hs₀
  rw [h] at hruns
  exact hruns.2

end

end CInterop.Extraction
