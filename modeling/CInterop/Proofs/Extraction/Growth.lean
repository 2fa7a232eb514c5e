import CInterop.Extraction.TopLevel
import CInterop.Proofs.Extraction.Registry

/-!
# How the registry grows

Resolving a type only adds to the registry: names behind those there are, and nodes for names without
one. Every node it adds is a type, and refers to reserved names that were themselves given for types.
This holds whether the type can be resolved or not, and so it tells what is left once the names that
were added are cut off again.

Which names are given for types is kept open: `A` is what is assumed of them. Statements about a step
are made for the case that every name given until its end is so.
-/

namespace CInterop.Extraction

open FrontEnd Header

variable {A : String → Prop} {α β : Type}

/-! ## A judgment on steps -/

/-- Every name that was given for a type so far is as assumed. -/
structure Fits (A : String → Prop) (s : State) : Prop where
  resolved : ∀ name ∈ s.resolved, A name
  strings : ∀ name ∈ s.strings, A name

theorem Fits.of_eq {s s' : State} (h : Fits A s') (hresolved : s'.resolved = s.resolved)
    (hstrings : s'.strings = s.strings) : Fits A s :=
  ⟨hresolved ▸ h.resolved, hstrings ▸ h.strings⟩

/-- What is known about the outcome of a step that starts in `s`: a result satisfies `done` with the
state it leaves, and where a type cannot be resolved the state left satisfies `stopped`. Nothing is
said about a run that has failed. -/
def Leads (A : String → Prop) (x : Build α) (s : State) (stopped : State → Prop)
    (done : α → State → Prop) : Prop :=
  match x s with
  | .ok a s' => (Fits A s' → Fits A s) ∧ (Fits A s' → done a s')
  | .error (.unresolved _) s' => (Fits A s' → Fits A s) ∧ (Fits A s' → stopped s')
  | .error (.failed _) _ => True

namespace Leads

variable {x : Build α} {f : α → Build β} {s : State} {stopped stopped' : State → Prop}
  {done : α → State → Prop} {a : α}

theorem mono {done' : α → State → Prop} (hx : Leads A x s stopped done)
    (hstopped : ∀ s', stopped s' → stopped' s') (hdone : ∀ a s', done a s' → done' a s') :
    Leads A x s stopped' done' := by
  unfold Leads at *
  split at hx
  · exact ⟨hx.1, fun h => hdone _ _ (hx.2 h)⟩
  · exact ⟨hx.1, fun h => hstopped _ (hx.2 h)⟩
  · trivial

theorem post {done' : α → State → Prop} (hx : Leads A x s stopped done)
    (hdone : ∀ a s', done a s' → done' a s') : Leads A x s stopped done' :=
  hx.mono (fun _ h => h) hdone

/-- Two things that are known about one step. -/
theorem both {done' : α → State → Prop} (hx : Leads A x s stopped done)
    (hx' : Leads A x s stopped' done') :
    Leads A x s (fun s' => stopped s' ∧ stopped' s') fun a s' => done a s' ∧ done' a s' := by
  unfold Leads at *
  cases hresult : x s with
  | ok a s' =>
    rw [hresult] at hx hx'
    exact ⟨hx.1, fun h => ⟨hx.2 h, hx'.2 h⟩⟩
  | error e s' =>
    rw [hresult] at hx hx'
    cases e with
    | unresolved spelling => exact ⟨hx.1, fun h => ⟨hx.2 h, hx'.2 h⟩⟩
    | failed failure => trivial

theorem pure (h : done a s) : Leads A (pure a) s stopped done :=
  ⟨id, fun _ => h⟩

/-- What the first step leads to may be assumed where the second one ends. -/
theorem bind {done' : β → State → Prop} (hx : Leads A x s stopped done)
    (hf : ∀ a s', Leads A (f a) s' (fun s'' => done a s' → stopped s'')
      (fun b s'' => done a s' → done' b s'')) :
    Leads A (x >>= f) s stopped done' := by
  unfold Leads at hx ⊢
  cases hresult : x s with
  | ok a s' =>
    have hbind : (x >>= f) s = f a s' := by
      show EStateM.bind x f s = f a s'
      rw [EStateM.bind, hresult]
    -- names fit before the first step if they fit after it, and after it if they fit at the end
    have hrest := hf a s'
    rw [hresult] at hx
    unfold Leads at hrest
    rw [hbind]
    split at hrest
    · exact ⟨fun h => hx.1 (hrest.1 h), fun h => hrest.2 h (hx.2 (hrest.1 h))⟩
    · exact ⟨fun h => hx.1 (hrest.1 h), fun h => hrest.2 h (hx.2 (hrest.1 h))⟩
    · trivial
  | error e s' =>
    have hbind : (x >>= f) s = .error e s' := by
      show EStateM.bind x f s = .error e s'
      rw [EStateM.bind, hresult]
    rw [hresult] at hx
    rw [hbind]
    cases e with
    | unresolved spelling => exact hx
    | failed failure => trivial

theorem get : Leads A (MonadState.get : Build State) s stopped fun a s' => a = s ∧ s' = s :=
  ⟨id, fun _ => ⟨rfl, rfl⟩⟩

theorem update {g : State → State} {done : Unit → State → Prop} (hfits : Fits A (g s) → Fits A s)
    (h : Fits A (g s) → done () (g s)) : Leads A (modify g) s stopped done :=
  ⟨hfits, h⟩

/-- A change of the state before another step. -/
theorem update_bind {g : State → State} {f : Unit → Build β} {done : β → State → Prop}
    (hfits : Fits A (g s) → Fits A s) (h : Leads A (f ()) (g s) stopped done) :
    Leads A (modify g >>= f) s stopped done := by
  have hbind : (modify g >>= f) s = f () (g s) := rfl
  unfold Leads at h ⊢
  rw [hbind]
  split at h
  · exact ⟨fun h' => hfits (h.1 h'), h.2⟩
  · exact ⟨fun h' => hfits (h.1 h'), h.2⟩
  · trivial

theorem throw_unresolved {spelling : String} (h : stopped s) :
    Leads A (throw (.unresolved spelling) : Build α) s stopped done :=
  ⟨id, fun _ => h⟩

theorem throw_failed {failure : Failure} :
    Leads A (throw (.failed failure) : Build α) s stopped done :=
  trivial

/-- A step that may stop, as a step that gives nothing instead. -/
theorem attempt (hx : Leads A x s stopped done) :
    Leads A (Build.attempt x) s stopped' fun a? s' =>
      (∀ a, a? = some a → done a s') ∧ (a? = none → stopped s') := by
  unfold Leads at hx ⊢
  unfold Build.attempt
  cases hresult : x s with
  | ok a s' =>
    rw [hresult] at hx
    refine ⟨hx.1, fun h => ⟨fun a' ha => ?_, fun hnone => ?_⟩⟩
    · cases ha
      exact hx.2 h
    · cases hnone
  | error e s' =>
    rw [hresult] at hx
    cases e with
    | unresolved spelling =>
      refine ⟨hx.1, fun h => ⟨fun a' ha => ?_, fun _ => hx.2 h⟩⟩
      cases ha
    | failed failure => trivial

end Leads

/-! ## Steps that leave the registry alone -/

/-- The step changes neither the registry nor the macros that were collected. -/
structure Quiet (s s' : State) : Prop where
  registry : s'.registry = s.registry
  candidates : s'.candidates = s.candidates

theorem Quiet.refl (s : State) : Quiet s s := ⟨rfl, rfl⟩

theorem Quiet.trans {s s' s'' : State} (h : Quiet s s') (h' : Quiet s' s'') : Quiet s s'' :=
  ⟨h'.registry.trans h.registry, h'.candidates.trans h.candidates⟩

namespace Build

variable {s : State} {stopped : State → Prop}

/-- A change of what is told or decided about tags. -/
theorem leads_quiet {g : State → State} (hresolved : (g s).resolved = s.resolved)
    (hstrings : (g s).strings = s.strings) (h : Quiet s (g s)) :
    Leads A (modify g) s stopped fun _ s' => Quiet s s' :=
  .update (fun hfits => hfits.of_eq hresolved hstrings) fun _ => h

/-- A name that a type was resolved to is as assumed. -/
theorem leads_noteResolved {name : String} :
    Leads A (noteResolved name) s stopped fun _ s' => Quiet s s' ∧ A name :=
  .update (fun hfits => ⟨fun other hother => hfits.resolved other (List.mem_cons_of_mem _ hother),
    hfits.strings⟩) fun hfits => ⟨⟨rfl, rfl⟩, hfits.resolved name List.mem_cons_self⟩

/-- So is a name that the type of strings was given with. -/
theorem leads_noteString {name : String} :
    Leads A (noteString name) s stopped fun _ s' => Quiet s s' ∧ A name :=
  .update (fun hfits => ⟨hfits.resolved,
    fun other hother => hfits.strings other (List.mem_cons_of_mem _ hother)⟩)
    fun hfits => ⟨⟨rfl, rfl⟩, hfits.strings name List.mem_cons_self⟩

theorem leads_get : Leads A get s stopped fun _ s' => Quiet s s' :=
  Leads.get.post fun _ _ h => h.2 ▸ .refl s

/-- Two quiet steps, one after the other. -/
theorem leads_quiet_bind {x : Build α} {f : α → Build β}
    (hx : Leads A x s stopped fun _ s' => Quiet s s')
    (hf : ∀ a s', Leads A (f a) s' stopped fun _ s'' => Quiet s' s'') :
    Leads A (x >>= f) s stopped fun _ s' => Quiet s s' :=
  hx.bind fun a s' => (hf a s').mono (fun _ h _ => h) fun _ _ h' h => h.trans h'

theorem leads_report (cause : Cause) (place : String) :
    Leads A (report cause place) s stopped fun _ s' => Quiet s s' :=
  leads_quiet rfl rfl ⟨rfl, rfl⟩

theorem leads_say (line : String) : Leads A (say line) s stopped fun _ s' => Quiet s s' :=
  leads_quiet rfl rfl ⟨rfl, rfl⟩

theorem leads_ask (request : Request) :
    Leads A (ask request) s stopped fun _ s' => Quiet s s' :=
  leads_quiet rfl rfl ⟨rfl, rfl⟩

theorem leads_detail (c : Setting) (line : String) :
    Leads A (detail c line) s stopped fun _ s' => Quiet s s' := by
  unfold detail
  split
  · exact leads_say _
  · exact .pure (.refl s)

/-- Asking whether a name is reserved tells how the run goes on. -/
theorem leads_isReserved {name : String} {f : Bool → Build α} {done : α → State → Prop}
    (h : Leads A (f (s.registry.has name)) s stopped done) :
    Leads A (isReserved name >>= f) s stopped done :=
  h

theorem leads_announceIgnored (c : Setting) (e : Entity) (name : String) :
    Leads A (announceIgnored c e name) s stopped fun _ s' => Quiet s s' := by
  unfold announceIgnored
  refine leads_quiet_bind leads_get fun a s' => ?_
  split
  · exact leads_quiet_bind (leads_quiet rfl rfl ⟨rfl, rfl⟩) fun _ _ => leads_report _ _
  · exact .pure (.refl s')

theorem leads_nameTag (e : Entity) (name : String) :
    Leads A (nameTag e name) s stopped fun _ s' => Quiet s s' := by
  unfold nameTag
  refine leads_quiet ?_ ?_ ⟨?_, ?_⟩ <;> split <;> rfl

theorem leads_ownTagName (c : Setting) (e : Entity) :
    Leads A (ownTagName c e) s stopped fun _ s' => Quiet s s' := by
  unfold ownTagName
  split
  · exact .pure (.refl s)
  · refine leads_quiet_bind leads_get fun a s' => ?_
    dsimp only
    split
    · exact .pure (.refl s')
    · refine leads_quiet_bind (leads_quiet rfl rfl ⟨rfl, rfl⟩) fun _ s'' => ?_
      exact leads_quiet_bind (leads_report _ _) fun _ last => .pure (.refl last)

theorem leads_tagName (c : Setting) (e : Entity) :
    Leads A (tagName c e) s stopped fun _ s' => Quiet s s' := by
  unfold tagName
  refine leads_quiet_bind leads_get fun a s' => ?_
  split
  · exact .pure (.refl s')
  · split
    · exact leads_quiet_bind (leads_nameTag e _) fun _ s'' => .pure (.refl s'')
    · exact leads_ownTagName c e

theorem leads_namesItsTag (c : Setting) (e : Entity) :
    Leads A (namesItsTag c e) s stopped fun _ s' => Quiet s s' := by
  unfold namesItsTag
  split
  · exact leads_quiet_bind (leads_tagName c _) fun _ s' => .pure (.refl s')
  · exact .pure (.refl s)

/-- What every step of a loop keeps, the loop keeps. -/
theorem leads_forM {I : State → Prop} {f : α → Build Unit} {as : List α}
    (hf : ∀ a ∈ as, ∀ s, Leads A (f a) s stopped fun _ s' => I s → I s') :
    Leads A (as.forM f) s stopped fun _ s' => I s → I s' := by
  induction as generalizing s with
  | nil =>
    unfold List.forM
    exact .pure id
  | cons a rest ih =>
    unfold List.forM
    refine (hf a List.mem_cons_self s).bind fun _ s₁ => ?_
    refine (ih fun b hb => hf b (List.mem_cons_of_mem a hb)).mono (fun _ h _ => h) ?_
    exact fun _ _ hrest hfirst hs => hrest (hfirst hs)

/-- A loop of quiet steps. -/
theorem leads_quiet_forM {f : α → Build Unit} {as : List α}
    (hf : ∀ a s, Leads A (f a) s stopped fun _ s' => Quiet s s') :
    Leads A (as.forM f) s stopped fun _ s' => Quiet s s' :=
  (leads_forM (I := Quiet s) fun a _ s₁ =>
    (hf a s₁).post fun _ _ h hs => hs.trans h).post
      fun _ _ h => h (.refl s)

end Build

/-! ## Steps that only add to the registry -/

/-- The state with one more name reserved. -/
def State.reserve (s : State) (name : String) : State :=
  { s with registry := s.registry.reserve name }

/-- The state with one more node declared. -/
def State.declare (s : State) (node : Declaration) : State :=
  { s with registry := s.registry.declare node }

/-- The name was given for a type: it is as assumed and reserved. -/
structure Known (A : String → Prop) (s : State) (name : String) : Prop where
  allowed : A name
  reserved : name ∈ s.registry.names

@[simp] theorem State.registry_reserve (s : State) (name : String) :
    (s.reserve name).registry = s.registry.reserve name := rfl

@[simp] theorem State.registry_declare (s : State) (node : Declaration) :
    (s.declare node).registry = s.registry.declare node := rfl

/-- What was reserved or declared stays so. A node that is new is a type, refers to names that were
given for types and are reserved, and has a name of that sort unless its name is new as well. -/
structure Extends (A : String → Prop) (s s' : State) : Prop where
  wellFormed : s.registry.WellFormed → s'.registry.WellFormed
  names : s.registry.names <+: s'.registry.names
  kept : ∀ name node, s.registry.node? name = some node → s'.registry.node? name = some node
  fresh : ∀ name node, s'.registry.node? name = some node →
    s.registry.node? name = some node ∨
    (node.kind.isType = true ∧ (name ∈ s.registry.names → A name) ∧
      ∀ other ∈ node.body.references, Known A s' other)
  candidates : s'.candidates = s.candidates

/-- Every name that is left without a node was so before. -/
def Settles (s s' : State) : Prop :=
  ∀ name ∈ s'.registry.names, s'.registry.node? name = none →
    name ∈ s.registry.names ∧ s.registry.node? name = none

theorem Quiet.growth {s s' : State} (h : Quiet s s') : Extends A s s' := by
  obtain ⟨hregistry, hcandidates⟩ := h
  refine ⟨fun hwell => ?_, ?_, fun name node hnode => ?_, fun name node hnode => ?_, hcandidates⟩
  · exact hregistry ▸ hwell
  · exact hregistry ▸ List.prefix_rfl
  · exact hregistry ▸ hnode
  · exact .inl (hregistry ▸ hnode)

theorem Quiet.settles {s s' : State} (h : Quiet s s') : Settles s s' := by
  unfold Settles
  rw [h.registry]
  exact fun name hname hnode => ⟨hname, hnode⟩

section

variable {s s' s'' : State}

theorem Extends.refl (s : State) : Extends A s s := (Quiet.refl s).growth

theorem Extends.mem (h : Extends A s s') {name : String} (hname : name ∈ s.registry.names) :
    name ∈ s'.registry.names :=
  h.names.subset hname

theorem Known.mono (hgrowth : Extends A s s') {name : String} (h : Known A s name) :
    Known A s' name :=
  ⟨h.allowed, hgrowth.mem h.reserved⟩

theorem Extends.trans (h : Extends A s s') (h' : Extends A s' s'') : Extends A s s'' := by
  refine ⟨fun hwell => h'.wellFormed (h.wellFormed hwell), h.names.trans h'.names,
    fun name node hnode => h'.kept name node (h.kept name node hnode), fun name node hnode => ?_,
    h'.candidates.trans h.candidates⟩
  rcases h'.fresh name node hnode with hold | ⟨htype, hname, hrefs⟩
  · -- the node is older than the second step, so it is the first one that may have made it
    rcases h.fresh name node hold with hold | ⟨htype, hname, hrefs⟩
    · exact .inl hold
    · exact .inr ⟨htype, hname, fun other hother =>
        ⟨(hrefs other hother).allowed, h'.mem (hrefs other hother).reserved⟩⟩
  · exact .inr ⟨htype, fun hmem => hname (h.mem hmem), hrefs⟩

theorem Settles.trans (h : Settles s s') (h' : Settles s' s'') : Settles s s'' := by
  intro name hname hnode
  obtain ⟨hname', hnode'⟩ := h' name hname hnode
  exact h name hname' hnode'

theorem mem_names_reserve (r : Registry) (name : String) : name ∈ (r.reserve name).names := by
  rw [Registry.names_reserve]
  split
  · assumption
  · exact List.mem_append_right _ (List.mem_singleton.mpr rfl)

theorem mem_names_declare (r : Registry) (node : Declaration) :
    node.name ∈ (r.declare node).names := by
  rw [Registry.names_declare]
  exact mem_names_reserve r node.name

theorem names_prefix_reserve (r : Registry) (name : String) : r.names <+: (r.reserve name).names := by
  rw [Registry.names_reserve]
  split
  · exact List.prefix_rfl
  · exact List.prefix_append _ _

theorem extends_reserve (s : State) (name : String) :
    Extends A s (s.reserve name) where
  wellFormed h := h.reserve name
  names := names_prefix_reserve s.registry name
  kept other node h := by
    show (s.registry.reserve name).node? other = some node
    rwa [Registry.node?_reserve]
  fresh other node h := by
    rw [State.registry_reserve, Registry.node?_reserve] at h
    exact .inl h
  candidates := rfl

/-- A type may be declared under a new name, or where a node is missing if its name is given for
it. -/
theorem Extends.declare (h : Extends A s s') {node : Declaration} (htype : node.kind.isType = true)
    (hrefs : ∀ other ∈ node.body.references, Known A s' other)
    (hname : node.name ∈ s.registry.names → A node.name ∧ s'.registry.node? node.name = none) :
    Extends A s (s'.declare node) := by
  have hsub : s'.registry.names <+: (s'.registry.declare node).names := by
    rw [Registry.names_declare]
    exact names_prefix_reserve s'.registry node.name
  refine ⟨fun hwell => (h.wellFormed hwell).declare node, h.names.trans hsub, ?_, ?_, h.candidates⟩
  · intro name other hother
    show (s'.registry.declare node).node? name = some other
    rw [Registry.node?_declare]
    split
    · rename_i heq
      -- the name had a node already, and it is not declared twice
      have hnone := (hname (heq ▸ Registry.mem_names_of_node? hother)).2
      rw [← heq, h.kept name other hother] at hnone
      cases hnone
    · exact h.kept name other hother
  · intro name other hother
    rw [State.registry_declare, Registry.node?_declare] at hother
    split at hother
    · rename_i heq
      cases hother
      rw [heq]
      exact .inr ⟨htype, fun hmem => (hname hmem).1, fun other hother =>
        ⟨(hrefs other hother).allowed, hsub.subset (hrefs other hother).reserved⟩⟩
    · rcases h.fresh name other hother with hold | ⟨htype', hname', hrefs'⟩
      · exact .inl hold
      · exact .inr ⟨htype', hname', fun other hother =>
          ⟨(hrefs' other hother).allowed, hsub.subset (hrefs' other hother).reserved⟩⟩

theorem settles_declare {node : Declaration}
    (h : ∀ name ∈ s'.registry.names, s'.registry.node? name = none → name ≠ node.name →
      name ∈ s.registry.names ∧ s.registry.node? name = none) :
    Settles s (s'.declare node) := by
  intro name hname hnode
  have hne : name ≠ node.name := by
    rintro rfl
    rw [State.registry_declare, Registry.node?_declare, if_pos rfl] at hnode
    cases hnode
  rw [State.registry_declare] at hname hnode
  rw [Registry.node?_declare, if_neg hne] at hnode
  refine h name ?_ hnode hne
  rw [Registry.names_declare, Registry.names_reserve] at hname
  split at hname
  · exact hname
  · rcases List.mem_append.mp hname with hmem | hmem
    · exact hmem
    · exact absurd (List.mem_singleton.mp hmem) hne

end

/-- The registry has grown, and all that is new in it is declared. -/
structure Grown (A : String → Prop) (s s' : State) : Prop where
  growth : Extends A s s'
  settles : Settles s s'

theorem Grown.trans {s s' s'' : State} (h : Grown A s s') (h' : Grown A s' s'') : Grown A s s'' :=
  ⟨h.growth.trans h'.growth, h.settles.trans h'.settles⟩

theorem Quiet.grown {s s' : State} (h : Quiet s s') : Grown A s s' := ⟨h.growth, h.settles⟩

theorem Grown.refl (s : State) : Grown A s s := (Quiet.refl s).grown

/-- A type is declared under a name that is new, after the registry has grown by what it contains.
Meanwhile the name may have been reserved. -/
theorem Extends.declareNew {s s' : State} (h : Extends A s s') {node : Declaration}
    (htype : node.kind.isType = true) (hrefs : ∀ other ∈ node.body.references, Known A s' other)
    (hnew : node.name ∉ s.registry.names)
    (hsettles : Settles (s.reserve node.name) s') :
    Grown A s (s'.declare node) := by
  refine ⟨h.declare htype hrefs fun hmem => absurd hmem hnew, settles_declare ?_⟩
  intro name hname hnode hne
  -- another name that still has no node was there before the reservation
  obtain ⟨hname', hnode'⟩ := hsettles name hname hnode
  rw [State.registry_reserve] at hname' hnode'
  rw [Registry.node?_reserve] at hnode'
  rw [Registry.names_reserve, if_neg hnew, List.mem_append, List.mem_singleton] at hname'
  exact ⟨hname'.resolve_right hne, hnode'⟩

theorem settles_reserve (s : State) (name : String) : Settles (s.reserve name) s := by
  intro other hother hnode
  rw [State.registry_reserve, Registry.node?_reserve]
  exact ⟨(names_prefix_reserve s.registry name).subset hother, hnode⟩

/-- Reserving a new name, growing by what the type contains, and declaring the type. -/
theorem Grown.declareOwn {s s₁ s₂ : State} {node : Declaration} (hquiet : Quiet s s₁)
    (h : Grown A (s₁.reserve node.name) s₂) (htype : node.kind.isType = true)
    (hrefs : ∀ other ∈ node.body.references, Known A s₂ other)
    (hnew : node.name ∉ s.registry.names) : Grown A s (s₂.declare node) := by
  have hreserve : Quiet (s.reserve node.name) (s₁.reserve node.name) := by
    refine ⟨?_, hquiet.candidates⟩
    rw [State.registry_reserve, State.registry_reserve, hquiet.registry]
  have hgrowth := (hquiet.growth (A := A)).trans ((extends_reserve s₁ node.name).trans h.growth)
  exact hgrowth.declareNew htype hrefs hnew (hreserve.settles.trans h.settles)

/-- A name is given for a type, after the registry has grown by what belongs to the type. -/
structure Gives (A : String → Prop) (s : State) (name : String) (s' : State) : Prop where
  grown : Grown A s s'
  known : Known A s' name

/-- A step that may stop, after one that may stop, where the registry only grows. -/
theorem Leads.bindGrowing {x : Build α} {f : α → Build β} {s : State} {P : α → State → Prop}
    {done : β → State → Prop}
    (hx : Leads A x s (Extends A s) fun a s' => Extends A s s' ∧ P a s')
    (hf : ∀ a s', Leads A (f a) s' (Extends A s') fun b s'' => Extends A s s' → P a s' → done b s'') :
    Leads A (x >>= f) s (Extends A s) done :=
  hx.bind fun a s' => (hf a s').mono (fun _ h hdone => hdone.1.trans h)
    fun _ _ h hdone => h hdone.1 hdone.2

theorem Leads.bindGrown {x : Build α} {f : α → Build β} {s : State} {P : α → State → Prop}
    {done : β → State → Prop}
    (hx : Leads A x s (Extends A s) fun a s' => Grown A s s' ∧ P a s')
    (hf : ∀ a s', Leads A (f a) s' (Extends A s') fun b s'' => Grown A s s' → P a s' → done b s'') :
    Leads A (x >>= f) s (Extends A s) done :=
  .bindGrowing (hx.post fun _ _ h => ⟨h.1.growth, h⟩) fun a s' =>
    (hf a s').post fun _ _ h _ hdone => h hdone.1 hdone.2

theorem Leads.bindQuiet {x : Build α} {f : α → Build β} {s : State} {done : β → State → Prop}
    (hx : Leads A x s (Extends A s) fun _ s' => Quiet s s')
    (hf : ∀ a s', Leads A (f a) s' (Extends A s') fun b s'' => Quiet s s' → done b s'') :
    Leads A (x >>= f) s (Extends A s) done :=
  .bindGrowing (hx.post fun _ _ h => ⟨h.growth, h⟩) fun a s' =>
    (hf a s').post fun _ _ h _ hquiet => h hquiet

/-- A quiet step before one that grows the registry. -/
theorem Leads.afterQuiet {x : Build α} {f : α → Build β} {s : State} {P : β → State → Prop}
    (hx : Leads A x s (Extends A s) fun _ s' => Quiet s s')
    (hf : ∀ a s', Leads A (f a) s' (Extends A s') fun b s'' => Grown A s' s'' ∧ P b s'') :
    Leads A (x >>= f) s (Extends A s) fun b s' => Grown A s s' ∧ P b s' :=
  hx.bindQuiet fun a s' => (hf a s').post fun _ _ h hquiet =>
    ⟨hquiet.grown.trans h.1, h.2⟩

namespace Build

variable {s s' : State} {stopped : State → Prop}

theorem leads_reserve {name : String} {f : Unit → Build α} {done : α → State → Prop}
    (h : Leads A (f ()) (s.reserve name) (Extends A (s.reserve name)) done) :
    Leads A (reserve name >>= f) s (Extends A s) done :=
  .update_bind (fun hfits => ⟨hfits.resolved, hfits.strings⟩)
    (h.mono (fun _ hgrowth => (extends_reserve s name).trans hgrowth) fun _ _ h => h)

theorem leads_declare {node : Declaration} {f : Unit → Build α} {done : α → State → Prop}
    (h : Leads A (f ()) (s.declare node) stopped done) :
    Leads A (declare node >>= f) s stopped done :=
  .update_bind (fun hfits => ⟨hfits.resolved, hfits.strings⟩) h

/-- A type that is declared unless it is gives its name, if that is as assumed. -/
theorem leads_declareOnce {node : Declaration} (htype : node.kind.isType = true) :
    Leads A (declareOnce node) s stopped fun name s' => name = node.name ∧
      (s' = s ∨ s' = s.declare node) ∧
      ∀ base, A node.name → Grown A base s →
        (∀ other ∈ node.body.references, Known A s other) → Gives A base name s' := by
  unfold declareOnce
  refine Leads.get.bind fun a s₁ => ?_
  split
  · rename_i hnone
    refine leads_declare (.pure fun hget => ?_)
    obtain ⟨rfl, rfl⟩ := hget
    refine ⟨rfl, .inr rfl, ?_⟩
    intro base hname hgrown hrefs
    rw [Option.isNone_iff_eq_none] at hnone
    refine ⟨⟨hgrown.growth.declare htype hrefs fun _ => ⟨hname, hnone⟩,
      settles_declare fun name hmem hnode _ => hgrown.settles name hmem hnode⟩, hname, ?_⟩
    exact mem_names_declare s₁.registry node
  · rename_i hsome
    refine .pure fun hget => ?_
    obtain ⟨rfl, rfl⟩ := hget
    refine ⟨rfl, .inl rfl, ?_⟩
    intro base hname hgrown hrefs
    rw [Option.isNone_iff_eq_none] at hsome
    obtain ⟨other, hother⟩ := Option.ne_none_iff_exists'.mp hsome
    exact ⟨hgrown, hname, Registry.mem_names_of_node? hother⟩

/-- The same step for every item of a list. -/
theorem leads_mapM (P : State → β → Prop) {f : α → Build β}
    (hP : ∀ {s s' b}, Extends A s s' → P s b → P s' b)
    (hf : ∀ a s, Leads A (f a) s (Extends A s) fun b s' => Grown A s s' ∧ P s' b) (as : List α) :
    Leads A (as.mapM f) s (Extends A s) fun bs s' => Grown A s s' ∧ ∀ b ∈ bs, P s' b := by
  induction as generalizing s with
  | nil =>
    rw [List.mapM_nil]
    exact .pure ⟨.refl s, fun _ hb => absurd hb List.not_mem_nil⟩
  | cons a rest ih =>
    rw [List.mapM_cons]
    refine (hf a s).bindGrown fun b s₁ => ih.bindGrown fun bs s₂ => .pure ?_
    intro hrest hbs hfirst hb
    exact ⟨hfirst.trans hrest, List.forall_mem_cons.mpr ⟨hP hrest.growth hb, hbs⟩⟩

end Build

end CInterop.Extraction
