import Mathlib.Logic.Relation
import CInterop.Proofs.Extraction.Provenance
import CInterop.Proofs.Extraction.Verdicts

/-!
# The course of an extraction

There are few ways in which an extraction changes its state: it tells something, it announces a type of
an ignored file, it decides on the name of a tag, and it reserves, declares or gives up names. Whatever
a step does, and whether it has a result or stops, it is made of such changes. A change says for what
reason it is made, so that what every change preserves is known of a whole run.
-/

namespace CInterop

/-- The type that the diagnostic announces as one of an ignored file. -/
def Diagnostic.announced? (d : Diagnostic) : Option String :=
  match d.cause with
  | .ignoredTypeUsed type _ => some type
  | _ => none

namespace Extraction

open FrontEnd Header
open Macro (Candidate)

/-! ## The reasons of changes -/

/-- The entity is a tag that a type names. -/
def IsTag (c : Setting) (e : Entity) : Prop := ∃ t, c.translation.tag? t = some e

/-- The entity at the top level is looked at: it is in a file, which is neither in a system header nor to
be ignored. -/
structure IsVisited (c : Setting) (e : Entity) : Prop where
  top : e ∈ c.translation.topLevel
  file : e.file.isSome = true
  system : e.isInSystemHeader = false
  ignored : c.ignores e = false

/-- The fields with names of a type and of its members without names, nested at most that deep. -/
def namedFields (c : Setting) : Nat → TypeRef → List Entity
  | 0, _ => []
  | steps + 1, t => (c.type t).fields.flatMap fun r =>
      if isName (c.entity r).spelling then [c.entity r]
      else namedFields c steps (c.canonical (c.entity r).type)

/-- The fields with names of a record. -/
def fieldsOf (c : Setting) (owner : Entity) : List Entity :=
  namedFields c (c.translation.types.size + 1) owner.type

/-- The new name of a tag whose own name is taken. -/
def Setting.newTagName (c : Setting) (keyword name : String) : String :=
  freshName c.ordinaryNames c.ordinaryNames.length s!"{keyword}_{name}"

/-- The tag is called by the name, with what was decided about tags. -/
inductive Called (c : Setting) (s : State) (e : Entity) : String → Prop where
  | noted {name : String} : (e.spot, name) ∈ s.tagNames → Called c s e name
  | own : isAnonymous e = false → e.spelling ∉ c.ordinaryNames → Called c s e e.spelling
  | renamed {name : String} : isAnonymous e = false →
      ((e.kind.keyword, e.spelling), name) ∈ s.tagRenames → Called c s e name

/-- What may be the name of an anonymous tag. -/
inductive Suggests (c : Setting) (s : State) (e : Entity) : String → Prop where
  | typedef {d : Entity} : d ∈ c.translation.topLevel → d.kind = .typedef →
      c.translation.tag? d.underlying = some e → Suggests c s e d.spelling
  | field {owner f : Entity} {record : String} : IsTag c owner → Called c s owner record →
      f ∈ fieldsOf c owner → c.translation.tag? f.type = some e →
      Suggests c s e s!"{record}_{f.spelling}_{e.kind.label}"
  | place : Suggests c s e s!"Anonymous_{e.kind.label}_{e.line}_{e.column}"

/-- What a tag is declared as. -/
inductive Describes (c : Setting) (e : Entity) : Body String Int Bool → Prop where
  | record (fields : List (Field String Int)) : Describes c e
      (.record (e.kind = .union) fields (max (c.type e.type).size 0) (max (c.type e.type).align 0))
  | incomplete : Describes c e .incomplete
  | enumeration (integerType : String) :
      Describes c e (.enumeration integerType (Build.enumerators c e))

/-- What a node stems from: the parts of a type, an entity of the source or a macro. Where a type of an
ignored file is declared, that was announced. -/
inductive Stems (c : Setting) (s : State) : Declaration → Prop where
  | primitive (name : String) (size align : Int) : Stems c s ⟨name, .primitive size align, none⟩
  | pointer (target : String) : Stems c s ⟨target ++ "*", .pointer target c.pointerSize, none⟩
  | array (element : String) (count size : Int) :
      Stems c s ⟨s!"{element}[{count}]", .array element count size, none⟩
  | functionPointer (result : String) (parameters : List String) :
      Stems c s ⟨functionPointerName result parameters,
        .functionPointer result (parameters.map fun type => ⟨"", type⟩) c.pointerSize, none⟩
  | tag {e : Entity} {name : String} {body : Body String Int Bool} : IsTag c e → Called c s e name →
      Describes c e body → (c.ignores e = true → name ∈ s.announced) →
      Stems c s ⟨name, body, c.place? e⟩
  | typedef {r : EntityRef} {underlying : String} :
      Designates c s (c.entity r).underlying underlying →
      (c.ignores (c.entity r) = true → (c.entity r).spelling ∈ s.announced) →
      Stems c s ⟨(c.entity r).spelling, .typedef underlying, c.place? (c.entity r)⟩
  | function {e : Entity} {body : Body String Int Bool} : IsVisited c e → e.kind = .function →
      body.kind = .function → Stems c s ⟨e.spelling, body, c.place? e⟩
  | global {e : Entity} {body : Body String Int Bool} : IsVisited c e → e.kind = .global →
      body.kind = .global → Stems c s ⟨e.spelling, body, c.place? e⟩
  | constant {m : Candidate} (type : String) : m ∈ s.candidates →
      Stems c s (Build.constantOf m type)

/-! ## Changes -/

/-- A change of the state, with its reason. -/
inductive Change (c : Setting) : State → State → Prop where
  /-- Lines for the user, requests and notes of names change nothing else. -/
  | aside (s : State) (redefined output errorOutput : List String) (requests : List Request)
      (resolved strings : List String) :
      Change c s { s with redefined, output, errorOutput, requests, resolved, strings }
  | told (s : State) {d : Diagnostic} : d.announced? = none →
      Change c s { s with diagnostics := s.diagnostics ++ [d] }
  | announced (s : State) {e : Entity} {name : String} (reason : String) : name ∉ s.announced →
      c.ignores e = true → Change c s { s with
        announced := name :: s.announced
        diagnostics := s.diagnostics ++ [⟨.ignoredTypeUsed name reason, some (c.placeText e)⟩] }
  | named (s : State) {e : Entity} {name : String} : IsTag c e → isAnonymous e = true →
      s.tagNames.lookup e.spot = none → Suggests c s e name →
      Change c s { s with tagNames := (e.spot, name) :: s.tagNames }
  | renamed (s : State) {e : Entity} : IsTag c e → isAnonymous e = false →
      e.spelling ∈ c.ordinaryNames → Change c s { s with
        tagRenames := ((e.kind.keyword, e.spelling), c.newTagName e.kind.keyword e.spelling) ::
          s.tagRenames }
  | reserved (s : State) (name : String) :
      Change c s { s with registry := s.registry.reserve name }
  | declared (s : State) {node : Declaration} : Stems c s node →
      Change c s { s with registry := s.registry.declare node }
  | cut (s : State) (n : Nat) : Change c s { s with registry := s.registry.cut n }
  | collected (s : State) {e : Entity} (replacement : String) : IsVisited c e →
      e.kind = .constant → Change c s { s with
        candidates := s.candidates ++ [⟨e.spelling, replacement, c.place? e⟩] }
  | released (s : State) (name : String) :
      Change c s { s with registry := s.registry.release name }

/-- Changes one after another. -/
abbrev Course (c : Setting) : State → State → Prop := Relation.ReflTransGen (Change c)

/-- What was decided, announced, collected or told stays so. -/
structure Later (s s' : State) : Prop where
  tagged : Tagged s s'
  announced : s.announced ⊆ s'.announced
  candidates : s.candidates ⊆ s'.candidates
  diagnostics : s.diagnostics ⊆ s'.diagnostics

section

variable {c : Setting} {s s' s'' : State} {e : Entity} {name : String} {node : Declaration}

theorem Later.refl (s : State) : Later s s :=
  ⟨.refl s, List.Subset.refl _, List.Subset.refl _, List.Subset.refl _⟩

theorem Later.trans (h : Later s s') (h' : Later s' s'') : Later s s'' :=
  ⟨h.tagged.trans h'.tagged, List.Subset.trans h.announced h'.announced,
    List.Subset.trans h.candidates h'.candidates, List.Subset.trans h.diagnostics h'.diagnostics⟩

theorem Change.later (h : Change c s s') : Later s s' := by
  have hsame {α : Type} (as : List α) : as ⊆ as := List.Subset.refl as
  cases h with
  | told => exact ⟨⟨hsame _, hsame _⟩, hsame _, hsame _, List.subset_append_left _ _⟩
  | announced _ _ =>
    exact ⟨⟨hsame _, hsame _⟩, List.subset_cons_self _ _, hsame _, List.subset_append_left _ _⟩
  | named => exact ⟨⟨List.subset_cons_self _ _, hsame _⟩, hsame _, hsame _, hsame _⟩
  | renamed => exact ⟨⟨hsame _, List.subset_cons_self _ _⟩, hsame _, hsame _, hsame _⟩
  | collected =>
    exact ⟨⟨hsame _, hsame _⟩, hsame _, List.subset_append_left _ _, hsame _⟩
  | _ => exact ⟨⟨hsame _, hsame _⟩, hsame _, hsame _, hsame _⟩

theorem Course.later (h : Course c s s') : Later s s' := by
  induction h with
  | refl => exact .refl s
  | tail _ hchange ih => exact ih.trans hchange.later

/-! ## What changes preserve -/

theorem Called.mono (h : Tagged s s') (hname : Called c s e name) : Called c s' e name := by
  cases hname with
  | noted hmem => exact .noted (h.names hmem)
  | own hnamed hfree => exact .own hnamed hfree
  | renamed hnamed hmem => exact .renamed hnamed (h.renames hmem)

/-- A tag is called by a name that was formed for it. -/
theorem Called.formed (hs : Sound c s) {t : TypeRef} (htag : c.translation.tag? t = some e)
    (h : Called c s e name) : Formed c s name := by
  cases h with
  | noted hmem => exact .anonymous hmem
  | own _ hfree => exact .own htag hfree
  | renamed _ hmem => exact .renamed hmem (hs.renames _ _ hmem)

theorem Stems.mono (h : Later s s') (hnode : Stems c s node) : Stems c s' node := by
  cases hnode with
  | primitive name size align => exact .primitive name size align
  | pointer target => exact .pointer target
  | array element count size => exact .array element count size
  | functionPointer result parameters => exact .functionPointer result parameters
  | tag htag hcalled hbody hannounced =>
    exact .tag htag (hcalled.mono h.tagged) hbody fun hignored => h.announced (hannounced hignored)
  | typedef hunderlying hannounced =>
    exact .typedef (hunderlying.mono h.tagged) fun hignored => h.announced (hannounced hignored)
  | function hvisited hkind hbody => exact .function hvisited hkind hbody
  | global hvisited hkind hbody => exact .global hvisited hkind hbody
  | constant type hm => exact .constant type (h.candidates hm)

theorem sourced_of_kind (h : node.kind ≠ .typedef) (h' : node.kind ≠ .functionPointer) :
    Sourced c s node := by
  unfold Sourced
  split
  · rename_i hbody
    exact absurd (by rw [Node.kind, hbody, Body.kind]) h
  · rename_i hbody
    exact absurd (by rw [Node.kind, hbody, Body.kind]) h'
  · trivial

theorem Stems.sourced (h : Stems c s node) : Sourced c s node := by
  cases h with
  | @typedef r _ hunderlying _ => exact ⟨r, rfl, hunderlying⟩
  | functionPointer result parameters =>
    have hnamed : (parameters.map fun type => (⟨"", type⟩ : Parameter String)).map (·.type) =
        parameters := by
      rw [List.map_map]
      exact List.map_id parameters
    show functionPointerName result parameters = functionPointerName result _
    rw [hnamed]
  | tag _ _ hbody _ => cases hbody <;> trivial
  | function _ _ hbody | global _ _ hbody =>
    refine sourced_of_kind ?_ ?_
    all_goals
      show Body.kind _ ≠ _
      rw [hbody]
      decide
  | _ => trivial

/-- A node is declared for a reason only. -/
theorem Change.nodes (h : Change c s s') (hnode : node ∈ s'.registry.nodes) :
    node ∈ s.registry.nodes ∨ Stems c s node := by
  cases h with
  | declared hstems =>
    rcases Registry.mem_nodes_declare hnode with rfl | hold
    · exact .inr hstems
    · exact .inl hold
  | reserved name => exact .inl (Registry.nodes_reserve s.registry name ▸ hnode)
  | cut n => exact .inl (Registry.nodes_cut_subset n hnode)
  | released => exact .inl (Registry.nodes_release_subset hnode)
  | _ => exact .inl hnode

theorem Course.nodes (h : Course c s s') (hnode : node ∈ s'.registry.nodes) :
    node ∈ s.registry.nodes ∨ Stems c s' node := by
  induction h with
  | refl => exact .inl hnode
  | tail hcourse hchange ih =>
    rcases hchange.nodes hnode with hold | hstems
    · exact (ih hold).imp_right fun hstems => hstems.mono hchange.later
    · exact .inr (hstems.mono hchange.later)

/-- The new name of a tag is chosen so that nothing else has it. -/
theorem Change.renames (h : Change c s s') {key : String × String}
    (hmem : (key, name) ∈ s'.tagRenames) :
    (key, name) ∈ s.tagRenames ∨ name ∉ c.ordinaryNames := by
  cases h with
  | renamed =>
    rcases List.mem_cons.mp hmem with heq | hold
    · cases heq
      exact .inr (freshName_notMem _ _)
    · exact .inl hold
  | _ => exact .inl hmem

theorem Sound.change (h : Change c s s') (hs : Sound c s) : Sound c s' where
  nodes node hnode := by
    rcases h.nodes hnode with hold | hstems
    · exact (hs.nodes node hold).mono h.later.tagged
    · exact (hstems.mono h.later).sourced
  renames key name hmem := by
    rcases h.renames hmem with hold | hnew
    · exact hs.renames key name hold
    · exact hnew

theorem Sound.course (h : Course c s s') (hs : Sound c s) : Sound c s' := by
  induction h with
  | refl => exact hs
  | tail _ hchange ih => exact ih.change hchange

end

/-! ## A judgment on steps -/

/-- From a sound state on, the step is made of changes, whether it has a result or not. A result
satisfies `done` with the state it leaves, and where it stops the reason satisfies `E`. -/
def Runs {α : Type} (c : Setting) (E : Stop → Prop) (x : Build α) (s : State)
    (done : α → State → Prop) : Prop :=
  Sound c s → match x s with
    | .ok a s' => Course c s s' ∧ done a s'
    | .error stop s' => Course c s s' ∧ E stop

/-- The step does so wherever it starts; nothing is said of its result. -/
def Running {α : Type} (c : Setting) (E : Stop → Prop) (x : Build α) : Prop :=
  ∀ s, Runs c E x s fun _ _ => True

section

variable {α β : Type} {c : Setting} {E : Stop → Prop} {s s' : State}

namespace Runs

variable {x : Build α} {f : α → Build β} {done : α → State → Prop}

theorem post {done' : α → State → Prop} (hx : Runs c E x s done)
    (h : ∀ a s', done a s' → done' a s') : Runs c E x s done' := by
  intro hs
  have hx' := hx hs
  split at hx'
  · exact ⟨hx'.1, h _ _ hx'.2⟩
  · exact hx'

theorem running (hx : ∀ s, Runs c E x s done) : Running c E x :=
  fun s => (hx s).post fun _ _ _ => trivial

/-- What is known of a result. -/
theorem result (hx : Runs c E x s done) (hs : Sound c s) {a : α} (h : x s = .ok a s') :
    Course c s s' ∧ done a s' := by
  have hx' := hx hs
  rw [h] at hx'
  exact hx'

/-- More is known of a result from how it came about. -/
theorem of_ok {done' : α → State → Prop} (hx : Runs c E x s done)
    (h : ∀ a s', Course c s s' → x s = .ok a s' → done' a s') : Runs c E x s done' := by
  intro hs
  have hx' := hx hs
  cases hresult : x s with
  | ok a s' =>
    rw [hresult] at hx'
    exact ⟨hx'.1, h a s' hx'.1 hresult⟩
  | error stop s' =>
    rw [hresult] at hx'
    exact hx'

/-- The state that is left is sound. -/
theorem sound (hx : Runs c E x s done) : Runs c E x s fun a s' => Sound c s' ∧ done a s' := by
  intro hs
  have hx' := hx hs
  split at hx'
  · exact ⟨hx'.1, hs.course hx'.1, hx'.2⟩
  · exact hx'

theorem pure {a : α} (h : done a s) : Runs c E (Pure.pure a) s done := fun _ => ⟨.refl, h⟩

theorem throw {stop : Stop} (h : E stop) : Runs c E (throw stop : Build α) s done :=
  fun _ => ⟨.refl, h⟩

/-- One step after another. -/
theorem bind {done' : β → State → Prop} (hx : Runs c E x s done)
    (hf : ∀ a s', Course c s s' → done a s' → Runs c E (f a) s' done') :
    Runs c E (x >>= f) s done' := by
  intro hs
  have hx' := hx hs
  show match EStateM.bind x f s with
    | .ok b s'' => Course c s s'' ∧ done' b s''
    | .error stop s'' => Course c s s'' ∧ E stop
  rw [EStateM.bind]
  cases hresult : x s with
  | error stop s' =>
    rw [hresult] at hx'
    exact hx'
  | ok a s' =>
    rw [hresult] at hx'
    obtain ⟨hcourse, hdone⟩ := hx'
    have hrest := hf a s' hcourse hdone (hs.course hcourse)
    show match f a s' with
      | .ok b s'' => Course c s s'' ∧ done' b s''
      | .error stop s'' => Course c s s'' ∧ E stop
    split at hrest
    · exact ⟨hcourse.trans hrest.1, hrest.2⟩
    · exact ⟨hcourse.trans hrest.1, hrest.2⟩

theorem get : Runs c E (MonadState.get : Build State) s fun a s' => a = s ∧ s' = s :=
  fun _ => ⟨.refl, rfl, rfl⟩

/-- Looking at the state before another step. -/
theorem get_bind {f : State → Build β} {done : β → State → Prop} (hf : Runs c E (f s) s done) :
    Runs c E (MonadState.get >>= f) s done :=
  get.bind fun _ _ _ h => by
    obtain ⟨rfl, rfl⟩ := h
    exact hf

theorem change {g : State → State} (h : Course c s (g s)) :
    Runs c E (modify g) s fun _ s' => s' = g s :=
  fun _ => ⟨h, rfl⟩

/-- A change of the state before another step. -/
theorem change_bind {g : State → State} {f : Unit → Build β} {done : β → State → Prop}
    (h : Course c s (g s)) (hf : Runs c E (f ()) (g s) done) : Runs c E (modify g >>= f) s done :=
  (change h).bind fun _ _ _ h => by
    subst h
    exact hf

/-- A list is processed from a state on in which something holds that changes preserve. -/
theorem mapM {I : State → Prop} {f : α → Build β} {as : List α}
    (hI : ∀ s s', Course c s s' → I s → I s')
    (hf : ∀ a ∈ as, ∀ s, I s → Runs c E (f a) s fun _ _ => True) (hs : I s) :
    Runs c E (as.mapM f) s fun _ _ => True := by
  induction as generalizing s with
  | nil =>
    rw [List.mapM_nil]
    exact .pure trivial
  | cons a rest ih =>
    rw [List.forall_mem_cons] at hf
    rw [List.mapM_cons]
    refine (hf.1 s hs).bind fun _ s₁ h₁ _ => ?_
    exact (ih hf.2 (hI _ _ h₁ hs)).bind fun _ _ _ _ => .pure trivial

/-- So is one whose elements have no results. -/
theorem forM {I : State → Prop} {f : α → Build Unit} {as : List α}
    (hI : ∀ s s', Course c s s' → I s → I s')
    (hf : ∀ a ∈ as, ∀ s, I s → Runs c E (f a) s fun _ _ => True) (hs : I s) :
    Runs c E (as.forM f) s fun _ _ => True := by
  induction as generalizing s with
  | nil => exact .pure trivial
  | cons a rest ih =>
    rw [List.forall_mem_cons] at hf
    exact (hf.1 s hs).bind fun _ s₁ h₁ _ => ih hf.2 (hI _ _ h₁ hs)

end Runs

namespace Running

variable {x : Build α} {f : α → Build β}

theorem pure (a : α) : Running c E (Pure.pure a : Build α) := fun _ => .pure trivial

theorem throw {stop : Stop} (h : E stop) : Running c E (throw stop : Build α) := fun _ => .throw h

theorem get : Running c E (MonadState.get : Build State) :=
  fun _ => Runs.get.post fun _ _ _ => trivial

theorem bind (hx : Running c E x) (hf : ∀ a, Running c E (f a)) : Running c E (x >>= f) :=
  fun s => (hx s).bind fun a s' _ _ => hf a s'

theorem change {g : State → State} (h : ∀ s, Change c s (g s)) : Running c E (modify g) :=
  fun s => (Runs.change (.single (h s))).post fun _ _ _ => trivial

theorem course (hx : Running c E x) (hs : Sound c s) {a : α} (h : x s = .ok a s') : Course c s s' :=
  ((hx s).result hs h).1

end Running

end

namespace Build

variable {c : Setting} {E : Stop → Prop} {s : State}

/-! ## Single steps -/

theorem running_report {cause : Cause} (place : String)
    (h : Diagnostic.announced? ⟨cause, some place⟩ = none) : Running c E (report cause place) :=
  .change fun s => .told s h

theorem running_say (line : String) : Running c E (say line) :=
  .change fun s => .aside s _ _ _ _ _ _

theorem running_ask (request : Request) : Running c E (ask request) :=
  .change fun s => .aside s _ _ _ _ _ _

theorem running_noteResolved (name : String) : Running c E (noteResolved name) :=
  .change fun s => .aside s _ _ _ _ _ _

theorem running_noteString (name : String) : Running c E (noteString name) :=
  .change fun s => .aside s _ _ _ _ _ _

theorem running_reserve (name : String) : Running c E (reserve name) :=
  .change fun s => .reserved s name

theorem speaks_running (c : Setting) (E : Stop → Prop) : Speaks (Running c E) where
  pure := .pure
  bind := .bind
  get := .get
  say := running_say
  unmappable _ _ place := running_report place rfl

theorem runs_declare {node : Declaration} (h : Stems c s node) :
    Runs c E (declare node) s fun _ _ => True :=
  (Runs.change (.single (.declared s h))).post fun _ _ _ => trivial

theorem runs_declareOnce {node : Declaration} (h : Stems c s node) :
    Runs c E (declareOnce node) s fun name _ => name = node.name := by
  unfold declareOnce
  refine .get_bind ?_
  split
  · exact (runs_declare h).bind fun _ _ _ _ => .pure rfl
  · exact .pure rfl

/-- A type of an ignored file is announced unless it is already. -/
theorem runs_announceIgnored (e : Entity) (name : String) :
    Runs c E (announceIgnored c e name) s fun _ s' =>
      c.ignores e = true → name ∈ s'.announced := by
  unfold announceIgnored
  refine .get_bind ?_
  split
  · rename_i h
    simp only [Bool.and_eq_true, Bool.not_eq_true', List.contains_eq_mem, decide_eq_false_iff_not] at h
    intro _
    exact ⟨.single (.announced s _ h.1 h.2), fun _ => List.mem_cons_self⟩
  · rename_i h
    refine .pure fun hignored => ?_
    simpa [hignored] using h

/-! ## Tags -/

/-- A tag that has no name yet is called by the name it is given. -/
theorem runs_nameTag {e : Entity} {name : String} (htag : IsTag c e) (hanonymous : isAnonymous e = true)
    (h : Suggests c s e name) :
    Runs c E (nameTag e name) s fun _ s' =>
      s.tagNames.lookup e.spot = none → Called c s' e name := by
  unfold nameTag
  refine (Runs.change ?_).post fun _ s' heq hlookup => ?_
  · split
    · exact .refl
    · rename_i hlookup
      rw [Option.not_isSome_iff_eq_none] at hlookup
      exact .single (.named s htag hanonymous hlookup h)
  · rw [heq, hlookup]
    exact .noted List.mem_cons_self

theorem runs_ownTagName {e : Entity} (htag : IsTag c e) (hnamed : isAnonymous e = false) :
    Runs c E (ownTagName c e) s fun name s' => Called c s' e name := by
  unfold ownTagName
  split
  · rename_i hfree
    exact .pure (.own hnamed (by simpa using hfree))
  · rename_i htaken
    have hordinary : e.spelling ∈ c.ordinaryNames := by simpa using htaken
    dsimp only
    refine .get_bind ?_
    split
    · rename_i renamed hlookup
      obtain ⟨before, after, hlist, -⟩ := List.lookup_eq_some_iff.mp hlookup
      exact .pure (.renamed hnamed (hlist ▸ List.mem_append_right _ List.mem_cons_self))
    · refine .change_bind (.single (.renamed s htag hnamed hordinary)) ?_
      refine (running_report _ rfl _).bind fun _ s' hcourse _ => .pure ?_
      exact (Called.renamed hnamed List.mem_cons_self).mono hcourse.later.tagged

/-- The name of a tag is one that it is called by. -/
theorem runs_tagName {e : Entity} (htag : IsTag c e) :
    Runs c E (tagName c e) s fun name s' => Called c s' e name := by
  unfold tagName
  refine .get_bind ?_
  split
  · rename_i name hlookup
    obtain ⟨before, after, hlist, -⟩ := List.lookup_eq_some_iff.mp hlookup
    exact .pure (.noted (hlist ▸ List.mem_append_right _ List.mem_cons_self))
  · rename_i hlookup
    split
    · rename_i hanonymous
      exact (runs_nameTag htag hanonymous .place).bind fun _ _ _ hcalled => .pure (hcalled hlookup)
    · rename_i hnamed
      exact runs_ownTagName htag (by simpa using hnamed)

/-- Whether a typedef repeats the name of its tag tells nothing about the name, but that there is a tag. -/
theorem runs_namesItsTag (e : Entity) :
    Runs c E (namesItsTag c e) s fun named _ =>
      named = true → (c.translation.tag? e.underlying).isSome = true := by
  unfold namesItsTag
  split
  · rename_i tag htag
    exact (runs_tagName ⟨_, htag⟩).bind fun _ _ _ _ => .pure fun _ => htag ▸ rfl
  · exact .pure fun h => by cases h

end Build

end Extraction
end CInterop
