import CInterop.Proofs.Extraction.Resolution

/-!
# The registry between two declarations

Functions, variables and macros share their names with the types of a tree. What holds of the registry
between two declarations, whatever was undone before, is that every other name belongs to a type, and
that the types a node refers to are reserved.

The invariant is stated for two readings at once. `O` are the ordinary names, `P` are the names whose
nodes are looked at, and `A` is what is assumed of every name given for a type. Either nothing is
assumed and only nodes without an ordinary name are looked at, or no ordinary name is ever given for
a type and all nodes are.
-/

namespace CInterop.Extraction

open FrontEnd Header

/-! ## The invariant -/

/-- The node refers to names that were given for types, and to reserved names only but for ordinary
ones. -/
def Backed (O A : String → Prop) (s : State) (node : Declaration) : Prop :=
  ∀ other ∈ node.body.references, A other ∧ (O other ∨ other ∈ s.registry.names)

/-- What holds between two declarations. -/
structure Orderly (O A P : String → Prop) (s : State) : Prop where
  wellFormed : s.registry.WellFormed
  types : ∀ name node, s.registry.node? name = some node → ¬ O name → node.kind.isType = true
  refs : ∀ name node, s.registry.node? name = some node → P name → Backed O A s node
  complete : ∀ name ∈ s.registry.names, s.registry.node? name = none → O name
  candidates : ∀ m ∈ s.candidates, O m.name

section

variable {O A : String → Prop} {s s' : State} {node : Declaration}

theorem Backed.mono (h : Backed O A s node) (hsub : s.registry.names ⊆ s'.registry.names) :
    Backed O A s' node := by
  intro other hother
  obtain ⟨hA, hreserved⟩ := h other hother
  exact ⟨hA, hreserved.imp_right (@hsub other)⟩

theorem backed_of_known (h : ∀ other ∈ node.body.references, Known A s other) :
    Backed O A s node :=
  fun other hother => ⟨(h other hother).allowed, .inr (h other hother).reserved⟩

theorem subset_names_declare (s : State) (node : Declaration) :
    s.registry.names ⊆ (s.declare node).registry.names := by
  rw [State.registry_declare, Registry.names_declare]
  exact (names_prefix_reserve s.registry node.name).subset

/-- The state with a name given up. -/
def State.release (s : State) (name : String) : State :=
  { s with registry := s.registry.release name }

@[simp] theorem State.registry_release (s : State) (name : String) :
    (s.release name).registry = s.registry.release name := rfl

theorem Backed.release (h : Backed O A s node) {name : String} (hname : O name) :
    Backed O A (s.release name) node := by
  intro other hother
  obtain ⟨hA, hreserved⟩ := h other hother
  refine ⟨hA, ?_⟩
  rcases hreserved with hordinary | hmem
  · exact .inl hordinary
  · by_cases heq : other = name
    · exact .inl (heq ▸ hname)
    · right
      rw [State.registry_release, Registry.names_release, List.mem_filter]
      exact ⟨hmem, by simpa using heq⟩

end

namespace Orderly

variable {O A P : String → Prop} {s s' : State}

theorem quiet (h : Orderly O A P s) (hquiet : Quiet s s') : Orderly O A P s' := by
  obtain ⟨hregistry, hcandidates⟩ := hquiet
  refine ⟨?_, ?_, ?_, ?_, hcandidates ▸ h.candidates⟩ <;> rw [hregistry]
  · exact h.wellFormed
  · exact h.types
  · exact fun name node hnode hP => (h.refs name node hnode hP).mono (hregistry ▸ List.Subset.refl _)
  · exact h.complete

/-- Growth keeps the invariant: what is new are types that refer to reserved names. -/
theorem grown (h : Orderly O A P s) (hgrown : Grown A s s') : Orderly O A P s' := by
  have hgrowth := hgrown.growth
  refine ⟨hgrowth.wellFormed h.wellFormed, ?_, ?_, ?_, hgrowth.candidates ▸ h.candidates⟩
  · intro name node hnode hname
    rcases hgrowth.fresh name node hnode with hold | ⟨htype, -⟩
    · exact h.types name node hold hname
    · exact htype
  · intro name node hnode hname
    rcases hgrowth.fresh name node hnode with hold | ⟨-, -, hrefs⟩
    · exact (h.refs name node hold hname).mono hgrowth.names.subset
    · exact backed_of_known hrefs
  · intro name hname hnode
    obtain ⟨hname', hnode'⟩ := hgrown.settles name hname hnode
    exact h.complete name hname' hnode'

/-- A declaration that cannot be resolved leaves no trace but for names with a node that were
reserved for macros. -/
theorem undone (hOP : ∀ name, O name → A name → ¬ P name) (h : Orderly O A P s)
    (hgrowth : Extends A s s') {s'' : State}
    (hregistry : s''.registry = s'.registry.cut s.registry.size)
    (hcandidates : s''.candidates = s'.candidates) : Orderly O A P s'' := by
  have hnames : s''.registry.names = s.registry.names := by
    rw [hregistry, Registry.names_cut]
    have hlength : s.registry.size = s.registry.names.length := by
      rw [Registry.size, Registry.names, List.length_map]
    rw [hlength]
    exact (List.prefix_iff_eq_take.mp hgrowth.names).symm
  have hlookup : ∀ name node, s''.registry.node? name = some node →
      name ∈ s.registry.names ∧ s'.registry.node? name = some node := by
    intro name node hnode
    have hmem := Registry.mem_names_of_node? hnode
    refine ⟨hnames ▸ hmem, ?_⟩
    rw [hregistry] at hmem hnode
    rwa [Registry.node?_cut hmem] at hnode
  -- only a macro's name can have got a node that is still there
  have hold : ∀ name node, s''.registry.node? name = some node → ¬ O name →
      s.registry.node? name = some node := by
    intro name node hnode hname
    obtain ⟨hmem, hnode'⟩ := hlookup name node hnode
    cases hbefore : s.registry.node? name with
    | none => exact absurd (h.complete name hmem hbefore) hname
    | some before => rw [← hnode', hgrowth.kept name before hbefore]
  refine ⟨?_, ?_, ?_, ?_, ?_⟩
  · rw [hregistry]
    exact (hgrowth.wellFormed h.wellFormed).cut _
  · exact fun name node hnode hname => h.types name node (hold name node hnode hname) hname
  · intro name node hnode hname
    have hsub : s.registry.names ⊆ s''.registry.names := hnames ▸ List.Subset.refl _
    obtain ⟨hmem, hnode'⟩ := hlookup name node hnode
    rcases hgrowth.fresh name node hnode' with hbefore | ⟨-, hA, -⟩
    · exact (h.refs name node hbefore hname).mono hsub
    · by_cases hordinary : O name
      · exact absurd hname (hOP name hordinary (hA hmem))
      · exact (h.refs name node (hold name node hnode hordinary) hname).mono hsub
  · intro name hname hnode
    rw [hnames] at hname
    by_cases hordinary : O name
    · exact hordinary
    · -- a node it had before would have been kept
      refine h.complete name hname ?_
      cases hbefore : s.registry.node? name with
      | none => rfl
      | some before =>
        have hmem : name ∈ (s'.registry.cut s.registry.size).names := by
          rw [← hregistry, hnames]
          exact hname
        rw [hregistry, Registry.node?_cut hmem, hgrowth.kept name before hbefore] at hnode
        cases hnode
  · rw [hcandidates, hgrowth.candidates]
    exact h.candidates

/-- An ordinary name may be declared by anything that refers to known types, and any name by a type
that does. -/
theorem declare (h : Orderly O A P s) {node : Declaration}
    (hname : O node.name ∨ node.kind.isType = true)
    (hrefs : Backed O A s node) : Orderly O A P (s.declare node) := by
  refine ⟨h.wellFormed.declare node, ?_, ?_, ?_, h.candidates⟩
  · intro name other hother hordinary
    rw [State.registry_declare, Registry.node?_declare] at hother
    split at hother
    · rename_i heq
      cases hother
      exact hname.resolve_left (heq ▸ hordinary)
    · exact h.types name other hother hordinary
  · intro name other hother hP
    rw [State.registry_declare, Registry.node?_declare] at hother
    split at hother
    · cases hother
      exact hrefs.mono (subset_names_declare s node)
    · exact (h.refs name other hother hP).mono (subset_names_declare s node)
  · intro name hmem hnode
    have hsettles : Settles s (s.declare node) :=
      settles_declare fun name hname hnode _ => ⟨hname, hnode⟩
    obtain ⟨hmem', hnode'⟩ := hsettles name hmem hnode
    exact h.complete name hmem' hnode'

theorem reserve (h : Orderly O A P s) {name : String} (hname : O name) :
    Orderly O A P (s.reserve name) := by
  refine ⟨h.wellFormed.reserve name, ?_, ?_, ?_, h.candidates⟩
  · intro other node hnode
    rw [State.registry_reserve, Registry.node?_reserve] at hnode
    exact h.types other node hnode
  · intro other node hnode hP
    rw [State.registry_reserve, Registry.node?_reserve] at hnode
    exact (h.refs other node hnode hP).mono (names_prefix_reserve s.registry name).subset
  · intro other hother hnode
    rw [State.registry_reserve] at hother hnode
    rw [Registry.node?_reserve] at hnode
    rw [Registry.names_reserve] at hother
    split at hother
    · exact h.complete other hother hnode
    · rcases List.mem_append.mp hother with hmem | hmem
      · exact h.complete other hmem hnode
      · exact List.mem_singleton.mp hmem ▸ hname

/-- An ordinary name may be given up. -/
theorem release (h : Orderly O A P s) {name : String} (hname : O name) :
    Orderly O A P (s.release name) := by
  refine ⟨h.wellFormed.release name, ?_, ?_, ?_, h.candidates⟩
  · intro other node hnode
    rw [State.registry_release, Registry.node?_release] at hnode
    split at hnode
    · cases hnode
    · exact h.types other node hnode
  · intro other node hnode hP
    rw [State.registry_release, Registry.node?_release] at hnode
    split at hnode
    · cases hnode
    · exact (h.refs other node hnode hP).release hname
  · intro other hother hnode
    rw [State.registry_release] at hother hnode
    rw [Registry.names_release, List.mem_filter] at hother
    rw [Registry.node?_release, if_neg (by simpa using hother.2)] at hnode
    exact h.complete other hother.1 hnode

end Orderly

/-! ## Declarations at the top level -/

namespace Build

variable {O A P : String → Prop} {c : Setting} {s : State} {stopped : State → Prop}

/-- The step keeps the invariant. -/
abbrev Keeps (O A P : String → Prop) (s s' : State) : Prop := Orderly O A P s → Orderly O A P s'

theorem keeps_quiet {s' : State} (h : Quiet s s') : Keeps O A P s s' := fun hs => hs.quiet h

/-- Undoing a declaration that cannot be resolved keeps the invariant. -/
theorem leads_declaration {α : Type} (hOP : ∀ name, O name → A name → ¬ P name) (e : Entity)
    {body : Build α} (hbody : Leads A body s (Extends A s) fun _ s' => Keeps O A P s s') :
    Leads A (declaration c e body) s stopped fun _ s' => Keeps O A P s s' := by
  unfold Leads at hbody ⊢
  unfold declaration
  split at hbody
  · rename_i hresult
    rw [hresult]
    exact hbody
  · rename_i spelling s' hresult
    rw [hresult]
    dsimp only
    by_cases hstrict : c.isStrict = true
    · -- a strict run ends here
      rw [if_pos hstrict]
      trivial
    · rw [if_neg hstrict]
      refine ⟨fun h => hbody.1 ⟨h.resolved, h.strings⟩, fun h hs => ?_⟩
      exact hs.undone hOP (hbody.2 ⟨h.resolved, h.strings⟩) rfl rfl
  · rename_i hresult
    rw [hresult]
    trivial

theorem leads_isTaken (e : Entity) (kind : Kind) :
    Leads A (isTaken c e kind) s stopped fun _ s' => Quiet s s' := by
  unfold isTaken
  refine leads_quiet_bind leads_get fun a s' => ?_
  dsimp only
  split
  · exact .pure (.refl s')
  · split
    · exact leads_quiet_bind (leads_report _ _) fun _ s'' => .pure (.refl s'')
    · exact .pure (.refl s')

/-- A node under an ordinary name is declared after the types it refers to. -/
theorem leads_declareOrdinary {node : Declaration} (hname : O node.name) :
    Leads A (declare node) s stopped fun _ s' => ∀ base, Grown A base s →
      (∀ other ∈ node.body.references, Known A s other) → Keeps O A P base s' :=
  .update (fun h => ⟨h.resolved, h.strings⟩) fun _ _ hgrown hrefs hbase =>
    (hbase.grown hgrown).declare (.inl hname) (backed_of_known hrefs)

theorem leads_parameter (r : EntityRef) :
    Leads A (parameter c r) s (Extends A s) fun p s' => Grown A s s' ∧ Known A s' p.type :=
  (resolves_resolve c).bind _ fun _ _ => .pure fun htype => ⟨htype.grown, htype.known⟩

theorem leads_function {e : Entity} (hname : O e.spelling) :
    Leads A (function c e) s (Extends A s) fun _ s' => Keeps O A P s s' := by
  unfold function
  refine (leads_isTaken e .function).bindQuiet fun taken s₁ => ?_
  split
  · exact .pure keeps_quiet
  · split
    · exact (leads_detail c _).post fun _ _ hdetail htaken =>
        keeps_quiet (htaken.trans hdetail)
    · refine (leads_say _).bindQuiet fun _ s₂ => ?_
      refine (resolves_resolve c).bind e.result fun result s₃ => ?_
      refine (leads_mapM (fun s (p : Parameter String) => Known A s p.type)
        (fun hgrowth h => h.mono hgrowth) (fun r s => leads_parameter r)
        e.parameters).bindGrown fun parameters s₄ => ?_
      refine (leads_declareOrdinary (P := P) hname).post ?_
      intro _ s' hkeeps hparameters hknown hresult hsay htaken hs
      refine hkeeps _ (hresult.grown.trans hparameters) ?_ (hs.quiet (htaken.trans hsay))
      refine List.forall_mem_cons.mpr ⟨hresult.known.mono hparameters.growth, ?_⟩
      intro other hother
      obtain ⟨p, hp, rfl⟩ := List.mem_map.mp hother
      exact hknown p hp

theorem leads_global {e : Entity} (hname : O e.spelling) :
    Leads A (global c e) s (Extends A s) fun _ s' => Keeps O A P s s' := by
  unfold global
  split
  · exact .pure id
  · refine (leads_isTaken e .global).bindQuiet fun taken s₁ => ?_
    split
    · exact .pure keeps_quiet
    · refine (leads_say _).bindQuiet fun _ s₂ => ?_
      refine (resolves_resolve c).bind e.type fun type s₃ => ?_
      refine (leads_declareOrdinary (P := P) hname).post ?_
      intro _ s' hkeeps htype hsay htaken hs
      exact hkeeps _ htype.grown (List.forall_mem_singleton.mpr htype.known)
        (hs.quiet (htaken.trans hsay))

/-- A typedef keeps the invariant even where its name is not given for a type. -/
theorem leads_topTypedef (e : Entity) :
    Leads A (typedef c (resolve c) e) s (Extends A s) fun _ s' => Keeps O A P s s' := by
  refine (leads_typedef (resolves_resolve c) e).post fun name s' h hs => ?_
  cases hplatform : platformTypedefs.contains e.spelling with
  | true =>
    obtain ⟨size, align, rfl | rfl⟩ := (h.1 hplatform).1
    · exact hs
    · exact hs.declare (.inr rfl) fun _ hother => absurd hother List.not_mem_nil
  | false => exact hs.grown (h.2 hplatform).1

/-- A macro that was found reserves its name, which is ordinary. -/
theorem leads_collectMacro {e : Entity} (hname : O e.spelling) :
    Leads A (collectMacro c e) s stopped fun _ s' => Keeps O A P s s' := by
  unfold collectMacro
  split
  · exact .pure id
  · split
    · exact .pure id
    · split
      · exact (leads_report _ _).post fun _ _ => keeps_quiet
      · dsimp only
        split
        · exact .pure id
        · refine .update (fun h => h.of_eq ?_ ?_) fun _ hs => ?_
          · split
            · split <;> rfl
            · rfl
          · split
            · split <;> rfl
            · rfl
          · split
            · split
              · exact hs
              · exact hs.quiet ⟨rfl, rfl⟩
            · -- the name waits without a node until the macros are judged
              obtain ⟨hwell, htypes, hrefs, hcomplete, hcandidates⟩ := hs.reserve hname
              refine ⟨hwell, htypes, hrefs, hcomplete, fun m hm => ?_⟩
              rcases List.mem_append.mp hm with hold | hnew
              · exact hcandidates m hold
              · rw [List.mem_singleton.mp hnew]
                exact hname

end Build

end CInterop.Extraction
