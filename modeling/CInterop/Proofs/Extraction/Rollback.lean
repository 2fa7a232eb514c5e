import CInterop.Proofs.Extraction.Dangling
import CInterop.Proofs.Extraction.Telling
import CInterop.Proofs.Success

/-!
# A declaration adds all of it or nothing

Between two declarations only the names of macros that are yet to be judged are without nodes. From
such a state on a declaration that is resolved leaves what was there as it was, and one that cannot be
resolved leaves the names as they were and is reported once. A macro's name may have got a node on the
way, which stays.
-/

namespace CInterop.Extraction

open FrontEnd Header

/-! ## What a declaration leaves as it was -/

/-- What was reserved or declared stays so, and no macro is collected or becomes a constant. -/
structure Continues (s s' : State) : Prop where
  wellFormed : s.registry.WellFormed → s'.registry.WellFormed
  names : s.registry.names <+: s'.registry.names
  kept : ∀ name node, s.registry.node? name = some node → s'.registry.node? name = some node
  fresh : ∀ name node, s'.registry.node? name = some node →
    s.registry.node? name = some node ∨ node.kind ≠ .constant
  candidates : s'.candidates = s.candidates

section

variable {A : String → Prop} {s s' : State}

theorem Extends.continues (h : Extends A s s') : Continues s s' where
  wellFormed := h.wellFormed
  names := h.names
  kept := h.kept
  fresh name node hnode := by
    refine (h.fresh name node hnode).imp_right fun htype hconstant => ?_
    rw [hconstant] at htype
    cases htype.1
  candidates := h.candidates

theorem Continues.trans {s'' : State} (h : Continues s s') (h' : Continues s' s'') : Continues s s'' where
  wellFormed hwell := h'.wellFormed (h.wellFormed hwell)
  names := h.names.trans h'.names
  kept name node hnode := h'.kept name node (h.kept name node hnode)
  fresh name node hnode := by
    rcases h'.fresh name node hnode with hold | hkind
    · exact h.fresh name node hold
    · exact .inr hkind
  candidates := h'.candidates.trans h.candidates

/-- A name that was new may be declared by anything but a constant, whatever became of it meanwhile. -/
theorem Continues.declareNew (h : Continues s s') {node : Declaration}
    (hnew : node.name ∉ s.registry.names) (hkind : node.kind ≠ .constant) :
    Continues s (s'.declare node) where
  wellFormed hwell := (h.wellFormed hwell).declare node
  names := by
    rw [State.registry_declare, Registry.names_declare]
    exact h.names.trans (names_prefix_reserve s'.registry node.name)
  kept name other hother := by
    have hne : name ≠ node.name := fun heq =>
      hnew (heq ▸ Registry.mem_names_of_node? hother)
    rw [State.registry_declare, Registry.node?_declare, if_neg hne]
    exact h.kept name other hother
  fresh name other hother := by
    rw [State.registry_declare, Registry.node?_declare] at hother
    split at hother
    · cases hother
      exact .inr hkind
    · exact h.fresh name other hother
  candidates := h.candidates

end

/-- The registry only grew, and nothing that is new waits for a node. -/
structure Completes (s s' : State) : Prop where
  continues : Continues s s'
  settles : Settles s s'

theorem Grown.completes {A : String → Prop} {s s' : State} (h : Grown A s s') : Completes s s' :=
  ⟨h.growth.continues, h.settles⟩

/-- A function or a variable is declared under a name that was new, after its types. -/
theorem Grown.completes_declare {A : String → Prop} {s s' : State} (h : Grown A s s')
    {node : Declaration} (hnew : node.name ∉ s.registry.names) (hkind : node.kind ≠ .constant) :
    Completes s (s'.declare node) where
  continues := h.growth.continues.declareNew hnew hkind
  settles := settles_declare fun name hname hnode _ => h.settles name hname hnode

/-! ## The state between two declarations -/

/-- Only the names of macros that were collected wait for a node. All of them are reserved, none of them
has become a constant yet, and none was collected twice. -/
structure Pending (s : State) : Prop where
  wellFormed : s.registry.WellFormed
  waiting : ∀ name ∈ s.registry.names, s.registry.node? name = none →
    ∃ m ∈ s.candidates, m.name = name
  reserved : ∀ m ∈ s.candidates, m.name ∈ s.registry.names
  unsettled : ∀ name node, s.registry.node? name = some node → node.kind ≠ .constant
  distinct : (s.candidates.map (·.name)).Nodup

/-- What a declaration that cannot be resolved leaves: the names that were there, with the nodes they
had. A macro's name may have got a node. -/
structure Undone (s s' : State) : Prop where
  names : s'.registry.names = s.registry.names
  kept : ∀ name node, s.registry.node? name = some node → s'.registry.node? name = some node
  fresh : ∀ name, s.registry.node? name = none → (s'.registry.node? name).isSome →
    name ∈ s.registry.names ∧ ∃ m ∈ s.candidates, m.name = name
  unsettled : ∀ name node, s'.registry.node? name = some node → node.kind ≠ .constant

namespace Pending

variable {s s' s'' : State}

theorem completed (h : Pending s) (hcompletes : Completes s s') : Pending s' where
  wellFormed := hcompletes.continues.wellFormed h.wellFormed
  waiting name hname hnode := by
    obtain ⟨hname', hnode'⟩ := hcompletes.settles name hname hnode
    rw [hcompletes.continues.candidates]
    exact h.waiting name hname' hnode'
  reserved m hm := hcompletes.continues.names.subset
    (h.reserved m (hcompletes.continues.candidates ▸ hm))
  unsettled name node hnode := by
    rcases hcompletes.continues.fresh name node hnode with hold | hkind
    · exact h.unsettled name node hold
    · exact hkind
  distinct := hcompletes.continues.candidates ▸ h.distinct

/-- Cutting off the names that were added undoes a declaration. -/
theorem cut (h : Pending s) (hcontinues : Continues s s')
    (hregistry : s''.registry = s'.registry.cut s.registry.size) : Undone s s'' := by
  have hnames : s''.registry.names = s.registry.names := by
    have hlength : s.registry.size = s.registry.names.length := by
      rw [Registry.size, Registry.names, List.length_map]
    rw [hregistry, Registry.names_cut, hlength]
    exact (List.prefix_iff_eq_take.mp hcontinues.names).symm
  have hlookup (name : String) (hname : name ∈ s.registry.names) :
      s''.registry.node? name = s'.registry.node? name := by
    rw [hregistry]
    exact Registry.node?_cut (by rw [← hregistry, hnames]; exact hname)
  refine ⟨hnames, fun name node hnode => ?_, fun name hnone hsome => ?_, fun name node hnode => ?_⟩
  · rw [hlookup name (Registry.mem_names_of_node? hnode)]
    exact hcontinues.kept name node hnode
  · obtain ⟨node, hnode⟩ := Option.isSome_iff_exists.mp hsome
    have hname : name ∈ s.registry.names := hnames ▸ Registry.mem_names_of_node? hnode
    exact ⟨hname, h.waiting name hname hnone⟩
  · have hname : name ∈ s.registry.names := hnames ▸ Registry.mem_names_of_node? hnode
    rw [hlookup name hname] at hnode
    rcases hcontinues.fresh name node hnode with hold | hkind
    · exact h.unsettled name node hold
    · exact hkind

theorem undone (h : Pending s) (hundone : Undone s s') (hwell : s'.registry.WellFormed)
    (hcandidates : s'.candidates = s.candidates) : Pending s' where
  wellFormed := hwell
  waiting name hname hnode := by
    rw [hcandidates]
    refine h.waiting name (hundone.names ▸ hname) ?_
    cases hbefore : s.registry.node? name with
    | none => rfl
    | some node =>
      rw [hundone.kept name node hbefore] at hnode
      cases hnode
  reserved m hm := by
    rw [hundone.names]
    exact h.reserved m (hcandidates ▸ hm)
  unsettled := hundone.unsettled
  distinct := hcandidates ▸ h.distinct

end Pending

namespace Build

/-- No assumption about the names that are given for types. -/
abbrev Unrestricted : String → Prop := fun _ => True

theorem fits_unrestricted (s : State) : Fits Unrestricted s := ⟨fun _ _ => trivial, fun _ _ => trivial⟩

section

variable {α : Type} {x : Build α} {s s' : State} {stopped : State → Prop} {done : α → State → Prop}

/-- What a step leads to where it has a result. -/
theorem leads_ok {a : α} (h : Leads Unrestricted x s stopped done) (hx : x s = .ok a s') :
    done a s' := by
  unfold Leads at h
  rw [hx] at h
  exact h.2 (fits_unrestricted s')

theorem quiet_of_ok {a : α} (h : Leads Unrestricted x s (fun _ => True) fun _ s' => Quiet s s')
    (hx : x s = .ok a s') : Quiet s s' := by
  have hquiet := leads_ok h hx
  exact hquiet

theorem leads_unresolved {spelling : String} (h : Leads Unrestricted x s stopped done)
    (hx : x s = .error (.unresolved spelling) s') : stopped s' := by
  unfold Leads at h
  rw [hx] at h
  exact h.2 (fits_unrestricted s')

end

/-! ## The handlers of declarations -/

/-- What is done for a declaration of each kind. -/
inductive Handles (c : Setting) (e : Entity) : {α : Type} → Build α → Prop where
  | function (h : e.kind = .function) : Handles c e (function c e)
  | global (h : e.kind = .global) : Handles c e (global c e)
  | typedef (h : e.kind = .typedef) : Handles c e (typedef c (resolve c) e)
  | tag (h : e.kind.isRecord = true ∨ e.kind = .enumeration) : Handles c e (resolve c e.type)

/-- The diagnostic is about this declaration: it was skipped, or a type it needs cannot be resolved. -/
structure IsReport (c : Setting) (e : Entity) (d : Diagnostic) : Prop where
  place : d.location = some (c.placeText e)
  cause : (∃ reason, d.cause = .unmappable e.spelling reason) ∨
    ∃ spelling, d.cause = .unresolvedType spelling e.spelling

/-- A node of that kind stands under the name, or it is reported why there is none. -/
def Accounted (c : Setting) (e : Entity) (kind : Kind) (s : State) : Prop :=
  (∃ node, s.registry.node? e.spelling = some node ∧ node.kind = kind) ∨
    ∃ d ∈ s.diagnostics, IsReport c e d

variable {α : Type} {c : Setting} {e : Entity} {s : State} {stopped : State → Prop}

/-- A report is told. -/
theorem leads_report_mem (cause : Cause) (place : String) :
    Leads Unrestricted (report cause place) s stopped fun _ s' =>
      Quiet s s' ∧ ⟨cause, some place⟩ ∈ s'.diagnostics :=
  .update (fun hfits => hfits.of_eq rfl rfl) fun _ =>
    ⟨⟨rfl, rfl⟩, List.mem_append_right _ (List.mem_singleton.mpr rfl)⟩

/-- A name is taken if it is reserved, and then a node of the same kind has it or it is reported. -/
theorem leads_isTaken_has (kind : Kind) :
    Leads Unrestricted (isTaken c e kind) s stopped fun taken s' =>
      Quiet s s' ∧ (taken = false → e.spelling ∉ s.registry.names) ∧
        (taken = true → Accounted c e kind s') := by
  unfold isTaken
  refine Leads.get.bind fun before s₁ => ?_
  dsimp only
  split
  · rename_i hfree
    refine .pure ?_
    rintro ⟨rfl, rfl⟩
    exact ⟨.refl _, fun _ hname => by simp [Registry.has_iff_mem.mpr hname] at hfree, nofun⟩
  · split
    · refine (leads_report_mem _ _).bind fun _ s₂ => .pure ?_
      rintro ⟨hquiet, hreport⟩ ⟨rfl, rfl⟩
      exact ⟨hquiet, nofun, fun _ => .inr ⟨_, hreport, rfl, .inl ⟨_, rfl⟩⟩⟩
    · rename_i hkind
      refine .pure ?_
      rintro ⟨rfl, rfl⟩
      refine ⟨.refl _, nofun, fun _ => .inl ?_⟩
      simpa [Option.all_eq_true] using hkind

theorem accounted_declare {s' : State} {node : Declaration} (hname : node.name = e.spelling) :
    Accounted c e node.kind (s'.declare node) :=
  .inl ⟨node, by rw [State.registry_declare, Registry.node?_declare, if_pos hname.symm], rfl⟩

/-- The last step for a function or a variable. -/
theorem leads_declare_completes {node : Declaration} (hname : node.name = e.spelling)
    (hkind : node.kind ≠ .constant) :
    Leads Unrestricted (declare node) s stopped fun _ s' =>
      Accounted c e node.kind s' ∧ ∀ base, Grown Unrestricted base s →
        e.spelling ∉ base.registry.names → Completes base s' :=
  .update (fun h => ⟨h.resolved, h.strings⟩) fun _ =>
    ⟨accounted_declare hname, fun _ hgrown hnew => Grown.completes_declare hgrown (hname ▸ hnew) hkind⟩

/-- A function that is not static is accounted for. -/
theorem leads_function_completes :
    Leads Unrestricted (function c e) s (Extends Unrestricted s) fun _ s' =>
      Completes s s' ∧ (e.isStatic = false → Accounted c e .function s') := by
  unfold function
  refine ((leads_isTaken_has .function).post fun _ _ h => ⟨h.1.grown, h⟩).bindGrown fun taken s₁ => ?_
  split
  · exact .pure fun hgrown htaken => ⟨hgrown.completes, fun _ => htaken.2.2 ‹_›⟩
  · rename_i hfree
    rw [Bool.not_eq_true] at hfree
    split
    · rename_i hstatic
      refine (leads_detail c _).post fun _ s' hdetail hgrown _ => ?_
      refine ⟨(hgrown.trans hdetail.grown).completes, fun hnot => ?_⟩
      rw [hstatic] at hnot
      cases hnot
    · refine (leads_say _).bindQuiet fun _ s₂ => ?_
      refine (resolves_resolve c).bind e.result fun result s₃ => ?_
      refine (leads_mapM (fun s (p : Parameter String) => Known Unrestricted s p.type)
        (fun hgrowth h => h.mono hgrowth) (fun r s => leads_parameter r)
        e.parameters).bindGrown fun parameters s₄ => ?_
      refine (leads_declare_completes (c := c) (e := e) rfl (by nofun)).post ?_
      intro _ s' hdeclare hparameters _ hresult hsay hgrown htaken
      have hall := hgrown.trans (hsay.grown.trans (hresult.grown.trans hparameters))
      exact ⟨hdeclare.2 s hall (htaken.2.1 hfree), fun _ => hdeclare.1⟩

/-- So is a variable. -/
theorem leads_global_completes :
    Leads Unrestricted (global c e) s (Extends Unrestricted s) fun _ s' =>
      Completes s s' ∧ (e.isStatic = false → Accounted c e .global s') := by
  unfold global
  split
  · rename_i hstatic
    refine .pure ⟨(Grown.refl (A := Unrestricted) s).completes, fun hnot => ?_⟩
    rw [hstatic] at hnot
    cases hnot
  refine ((leads_isTaken_has .global).post fun _ _ h => ⟨h.1.grown, h⟩).bindGrown fun taken s₁ => ?_
  split
  · exact .pure fun hgrown htaken => ⟨hgrown.completes, fun _ => htaken.2.2 ‹_›⟩
  · rename_i hfree
    rw [Bool.not_eq_true] at hfree
    refine (leads_say _).bindQuiet fun _ s₂ => ?_
    refine (resolves_resolve c).bind e.type fun type s₃ => ?_
    refine (leads_declare_completes (c := c) (e := e) rfl (by nofun)).post ?_
    intro _ s' hdeclare htype hsay hgrown htaken
    have hall := hgrown.trans (hsay.grown.trans htype.grown)
    exact ⟨hdeclare.2 s hall (htaken.2.1 hfree), fun _ => hdeclare.1⟩

/-- Every handler completes what it does, or adds to the registry only. -/
theorem leads_handles {body : Build α} (h : Handles c e body) :
    Leads Unrestricted body s (Extends Unrestricted s) fun _ s' => Completes s s' := by
  cases h with
  | function => exact leads_function_completes.post fun _ _ h => h.1
  | global => exact leads_global_completes.post fun _ _ h => h.1
  | tag => exact (resolves_resolve c e.type s).post fun _ _ h => h.grown.completes
  | typedef =>
    refine (leads_typedef (resolves_resolve c) e).post fun name s' h => ?_
    cases hplatform : platformTypedefs.contains e.spelling with
    | true => exact ((h.1 hplatform).2 trivial).grown.completes
    | false => exact (h.2 hplatform).1.completes

theorem telling_handles {body : Build α} (h : Handles c e body) :
    Telling (·.isUnresolved = false) body := by
  refine Telling.mono ?_ fun d => Diagnostic.isUnresolved_of_isRemark
  cases h with
  | function => exact telling_function e
  | global => exact telling_global e
  | tag => exact telling_resolve c e.type
  | typedef => exact telling_typedef e

/-! ## From one declaration to the next -/

/-- What visiting entities amounts to, between two states between declarations: no node is changed,
nothing that was told is taken back, and the macros that are collected are among the entities. -/
structure Proceeds (visited : List Entity) (s s' : State) : Prop where
  pending : Pending s'
  kept : ∀ name node, s.registry.node? name = some node → s'.registry.node? name = some node
  diagnostics : s.diagnostics ⊆ s'.diagnostics
  candidates : ∀ m ∈ s'.candidates, m ∈ s.candidates ∨
    ∃ e ∈ visited, e.kind = .constant ∧ e.spelling = m.name

theorem Proceeds.refl {s : State} (hs : Pending s) : Proceeds [] s s :=
  ⟨hs, fun _ _ h => h, List.Subset.refl _, fun _ h => .inl h⟩

theorem Proceeds.append {visited visited' : List Entity} {s s' s'' : State}
    (h : Proceeds visited s s') (h' : Proceeds visited' s' s'') :
    Proceeds (visited ++ visited') s s'' where
  pending := h'.pending
  kept name node hnode := h'.kept name node (h.kept name node hnode)
  diagnostics := List.Subset.trans h.diagnostics h'.diagnostics
  candidates m hm := by
    rcases h'.candidates m hm with hold | ⟨e, he, hmacro⟩
    · exact (h.candidates m hold).imp_right fun ⟨e, he, hmacro⟩ =>
        ⟨e, List.mem_append_left _ he, hmacro⟩
    · exact .inr ⟨e, List.mem_append_right _ he, hmacro⟩

theorem proceeds_of_completes {visited : List Entity} {s s' : State} (hs : Pending s)
    (h : Completes s s') (htells : Tells (·.isUnresolved = false) s s') : Proceeds visited s s' :=
  ⟨hs.completed h, h.continues.kept, htells.subset, fun _ hm => .inl (h.continues.candidates ▸ hm)⟩

theorem proceeds_of_quiet {visited : List Entity} {s s' : State} (hs : Pending s) (h : Quiet s s')
    (htells : Tells (·.isUnresolved = false) s s') : Proceeds visited s s' :=
  proceeds_of_completes hs (h.grown (A := Unrestricted)).completes htells

/-- What a declaration leaves that cannot be resolved. -/
theorem declaration_unresolved {body : Build α} {spelling : String} {s' : State}
    (hs : Pending s) (hbody : Handles c e body) (hstrict : c.isStrict = false)
    (h : body s = .error (.unresolved spelling) s') :
    ∃ undone, declaration c e body s = .ok () undone ∧ Pending undone ∧ Undone s undone ∧
      undone.candidates = s.candidates ∧ undone.diagnostics =
        s'.diagnostics ++ [⟨.unresolvedType spelling e.spelling, some (c.placeText e)⟩] := by
  have hcontinues := (leads_unresolved (leads_handles hbody) h).continues
  have hdeclaration : ∃ undone : State, declaration c e body s = .ok () undone ∧
      undone.registry = s'.registry.cut s.registry.size ∧ undone.candidates = s'.candidates ∧
      undone.diagnostics =
        s'.diagnostics ++ [⟨.unresolvedType spelling e.spelling, some (c.placeText e)⟩] := by
    unfold declaration
    rw [h]
    dsimp only
    rw [if_neg (by rw [hstrict]; decide)]
    exact ⟨_, rfl, rfl, rfl, rfl⟩
  obtain ⟨undone, hresult, hregistry, hcandidates, hdiagnostics⟩ := hdeclaration
  have hundone := hs.cut hcontinues hregistry
  have hcandidates' := hcandidates.trans hcontinues.candidates
  refine ⟨undone, hresult, hs.undone hundone ?_ hcandidates', hundone, hcandidates', hdiagnostics⟩
  rw [hregistry]
  exact (hcontinues.wellFormed hs.wellFormed).cut _

/-- A declaration that goes on was resolved, or it was not and the run is not strict. -/
theorem declaration_eq_ok {body : Build α} {s' : State} (h : declaration c e body s = .ok () s') :
    (∃ a, body s = .ok a s') ∨
      ∃ spelling left, c.isStrict = false ∧ body s = .error (.unresolved spelling) left := by
  unfold declaration at h
  cases hresult : body s with
  | ok a left =>
    rw [hresult] at h
    cases h
    exact .inl ⟨a, rfl⟩
  | error stop left =>
    rw [hresult] at h
    cases stop with
    | failed failure => cases h
    | unresolved spelling =>
      dsimp only at h
      split at h
      · cases h
      · rename_i hstrict
        rw [Bool.not_eq_true] at hstrict
        exact .inr ⟨spelling, left, hstrict, rfl⟩

theorem proceeds_declaration {body : Build α} {s' : State} (hs : Pending s)
    (hbody : Handles c e body) (h : declaration c e body s = .ok () s') : Proceeds [e] s s' := by
  rcases declaration_eq_ok h with ⟨a, hresult⟩ | ⟨spelling, left, hstrict, hresult⟩
  · have hcompletes := leads_ok (leads_handles (s := s) hbody) hresult
    exact proceeds_of_completes hs hcompletes ((telling_handles hbody).of_ok hresult)
  · obtain ⟨undone, hdeclaration, hpending, hundone, hcandidates, hdiagnostics⟩ :=
      declaration_unresolved hs hbody hstrict hresult
    cases hdeclaration.symm.trans h
    refine ⟨hpending, hundone.kept, ?_, fun _ hm => .inl (hcandidates ▸ hm)⟩
    rw [hdiagnostics]
    exact List.Subset.trans ((telling_handles hbody).of_error hresult).subset
      (List.subset_append_left _ _)

/-- A macro that is collected reserves its name, which then waits for its node. -/
theorem proceeds_collect (hs : Pending s) (hkind : e.kind = .constant) {m : Macro.Candidate}
    (hname : e.spelling = m.name) (hnew : s.candidates.find? (·.name = e.spelling) = none) :
    Proceeds [e] s { s with
      candidates := s.candidates ++ [m], registry := s.registry.reserve e.spelling } where
  pending := by
    have hkept : s.registry.names ⊆ (s.registry.reserve e.spelling).names :=
      (names_prefix_reserve s.registry e.spelling).subset
    have hown : e.spelling ∈ (s.registry.reserve e.spelling).names := by
      rw [Registry.names_reserve]
      split
      · assumption
      · exact List.mem_append_right _ (List.mem_singleton.mpr rfl)
    refine ⟨hs.wellFormed.reserve _, fun name hreserved hnode => ?_, fun other hother => ?_,
      fun name node hnode => ?_, ?_⟩
    case refine_2 =>
      rcases List.mem_append.mp hother with hold | hnew
      · exact hkept (hs.reserved other hold)
      · rw [List.mem_singleton.mp hnew, ← hname]
        exact hown
    case refine_3 =>
      dsimp only at hnode
      rw [Registry.node?_reserve] at hnode
      exact hs.unsettled name node hnode
    case refine_4 =>
      have hother : ∀ other ∈ s.candidates, other.name ≠ m.name := by
        simpa [hname] using List.find?_eq_none.mp hnew
      rw [List.map_append, List.nodup_append]
      refine ⟨hs.distinct, by simp, ?_⟩
      simpa using hother
    dsimp only at hreserved hnode ⊢
    rw [hname] at hreserved hnode
    rw [Registry.node?_reserve] at hnode
    rw [Registry.names_reserve] at hreserved
    have hcases : name ∈ s.registry.names ∨ name = m.name := by
      split at hreserved
      · exact .inl hreserved
      · exact (List.mem_append.mp hreserved).imp_right List.mem_singleton.mp
    rcases hcases with hold | rfl
    · obtain ⟨other, hother, heq⟩ := hs.waiting name hold hnode
      exact ⟨other, List.mem_append_left _ hother, heq⟩
    · exact ⟨m, List.mem_append_right _ (List.mem_singleton.mpr rfl), rfl⟩
  kept name node hnode := by
    dsimp only
    rwa [Registry.node?_reserve]
  diagnostics := List.Subset.refl _
  candidates other hother := by
    rcases List.mem_append.mp hother with hold | hnew
    · exact .inl hold
    · rw [List.mem_singleton.mp hnew]
      exact .inr ⟨e, List.mem_singleton.mpr rfl, hkind, hname⟩

theorem proceeds_collectMacro {s' : State} (hs : Pending s) (hkind : e.kind = .constant)
    (h : collectMacro c e s = .ok () s') : Proceeds [e] s s' := by
  have hquiet {s'' : State} (hquiet : Quiet s s'') (heq : s''.diagnostics = s.diagnostics) :
      Proceeds [e] s s'' := proceeds_of_quiet hs hquiet (.of_eq heq)
  have hnone (h : (pure () : Build Unit) s = .ok () s') : Proceeds [e] s s' := by
    cases h
    exact hquiet (.refl s) rfl
  unfold collectMacro at h
  split at h
  · exact hnone h
  cases htokens : e.tokens with
  | nil =>
    rw [htokens] at h
    exact hnone h
  | cons head body =>
    rw [htokens] at h
    dsimp only at h
    split at h
    · cases h
      exact proceeds_of_quiet hs ⟨rfl, rfl⟩ ⟨_, rfl, List.forall_mem_singleton.mpr rfl⟩
    split at h
    · exact hnone h
    · cases h
      dsimp only
      split
      · split
        · exact hquiet (.refl s) rfl
        · exact hquiet ⟨rfl, rfl⟩ rfl
      · exact proceeds_collect hs hkind rfl ‹_›

/-- From a visit to the next one nothing is lost. -/
theorem proceeds_visit {s' : State} (hs : Pending s) (h : visit c e s = .ok () s') :
    Proceeds [e] s s' := by
  have hnone (h : (pure () : Build Unit) s = .ok () s') : Proceeds [e] s s' := by
    cases h
    exact proceeds_of_quiet hs (.refl s) (.of_eq rfl)
  unfold visit at h
  split at h
  · exact hnone h
  split at h
  · exact proceeds_of_quiet hs (quiet_of_ok (leads_detail c _) h) ((telling_detail c _).of_ok h)
  unfold visitKind at h
  cases hkind : e.kind <;> rw [hkind] at h
  case function => exact proceeds_declaration hs (.function hkind) h
  case global => exact proceeds_declaration hs (.global hkind) h
  case enumeration => exact proceeds_declaration hs (.tag (.inr hkind)) h
  case typedef => exact proceeds_declaration hs (.typedef hkind) h
  case constant => exact proceeds_collectMacro hs hkind h
  case enumerator => exact hnone h
  case other => exact hnone h
  all_goals
    -- a struct or a union that nothing has named yet is passed over
    obtain ⟨_, _, hget, hrest⟩ := Steps.bind_eq_ok h
    cases hget
    split at hrest
    · exact hnone hrest
    · exact proceeds_declaration hs (.tag (.inl (by rw [hkind]; rfl))) hrest

/-- The states between two declarations: the tags that typedefs name have their names, and any
entities were visited. -/
inductive Between (c : Setting) : State → Prop where
  | start {s s' : State} (hregistry : s.registry = {}) (hcandidates : s.candidates = [])
      (h : nameTagsByTypedefs c s = .ok () s') : Between c s'
  | visit {s s' : State} (e : Entity) (hs : Between c s) (h : visit c e s = .ok () s') :
      Between c s'

theorem pending_of_between (h : Between c s) : Pending s := by
  induction h with
  | @start s s' hregistry hcandidates h =>
    have hquiet := quiet_of_ok leads_nameTagsByTypedefs h
    have hempty : s'.registry = {} := hquiet.registry.trans hregistry
    refine ⟨?_, ?_, ?_, ?_, ?_⟩ <;> simp only [hempty, hquiet.candidates.trans hcandidates]
    · exact ⟨.nil, fun _ _ hnode => by cases hnode⟩
    · exact fun _ hname => absurd hname List.not_mem_nil
    · exact fun _ hm => absurd hm List.not_mem_nil
    · exact fun _ _ hnode => by cases hnode
    · exact .nil
  | visit e _ h ih => exact (proceeds_visit ih h).pending

/-- Between declarations, one that needs a type that cannot be resolved is undone in a run that is not
strict: the names are as before, every name that had a node has it still, a name that has got one is
that of a macro, and besides what was told on the way it is reported once that the type cannot be
resolved. One that is resolved adds names behind those there were and leaves every node as it was, and
no name but those of macros waits for its node. -/
theorem declaration_atomic {body : Build α} (hs : Between c s) (hbody : Handles c e body) :
    (∀ spelling left, c.isStrict = false → body s = .error (.unresolved spelling) left →
      ∃ undone own, declaration c e body s = .ok () undone ∧
        undone.registry.names = s.registry.names ∧
        (∀ name node, s.registry.node? name = some node →
          undone.registry.node? name = some node) ∧
        (∀ name, s.registry.node? name = none → (undone.registry.node? name).isSome →
          name ∈ s.registry.names ∧ ∃ m ∈ s.candidates, m.name = name) ∧
        left.diagnostics = s.diagnostics ++ own ∧ (∀ d ∈ own, d.isUnresolved = false) ∧
        undone.diagnostics =
          left.diagnostics ++ [⟨.unresolvedType spelling e.spelling, some (c.placeText e)⟩]) ∧
    ∀ a left, body s = .ok a left →
      declaration c e body s = .ok () left ∧
      s.registry.names <+: left.registry.names ∧
      (∀ name node, s.registry.node? name = some node → left.registry.node? name = some node) ∧
      ∀ name ∈ left.registry.names, left.registry.node? name = none →
        ∃ m ∈ left.candidates, m.name = name := by
  have hpending := pending_of_between hs
  constructor
  · intro spelling left hstrict hresult
    obtain ⟨undone, hdeclaration, -, hundone, -, hdiagnostics⟩ :=
      declaration_unresolved hpending hbody hstrict hresult
    obtain ⟨own, hleft, hown⟩ := (telling_handles hbody).of_error hresult
    exact ⟨undone, own, hdeclaration, hundone.names, hundone.kept, hundone.fresh, hleft, hown,
      hdiagnostics⟩
  · intro a left hresult
    have hcompletes := leads_ok (leads_handles (s := s) hbody) hresult
    have hdeclaration : declaration c e body s = .ok () left := by
      unfold declaration
      rw [hresult]
    exact ⟨hdeclaration, hcompletes.continues.names, hcompletes.continues.kept,
      (hpending.completed hcompletes).waiting⟩

/-- The record header, read without strictness. -/
def recordSetting : Setting where
  translation := recordHeader
  header := "/work/test.h"
  directory := "/work"
  bitness := 64
  arguments := []
  rules := ⟨[]⟩
  isStrict := false
  isVerbose := false

/-- After the macro of the record header, its function declares a record and all it refers to, and is
undone when it comes to the type of its second parameter. -/
theorem declaration_atomic_recordSetting :
    ∃ s left undone own, Between recordSetting s ∧ s.registry.names = ["S"] ∧
      function recordSetting (recordHeader.entity ⟨some 4⟩) s = .error (.unresolved "v4") left ∧
      left.registry.names = ["S", "int", "node", "node*", "color"] ∧
      declaration recordSetting (recordHeader.entity ⟨some 4⟩)
        (function recordSetting (recordHeader.entity ⟨some 4⟩)) s = .ok () undone ∧
      undone.registry.names = ["S"] ∧
      left.diagnostics = s.diagnostics ++ own ∧ (∀ d ∈ own, d.isUnresolved = false) ∧
      undone.diagnostics = left.diagnostics ++ [⟨.unresolvedType "v4" "mix", some "test.h:3"⟩] := by
  have hstart := eq_ok_after (x := nameTagsByTypedefs recordSetting) (s := {}) (by decide +kernel)
  have hmacro := eq_ok_after (x := visit recordSetting (recordHeader.entity ⟨some 7⟩))
    (s := after (nameTagsByTypedefs recordSetting) {}) (by decide +kernel)
  have hs := Between.visit _ (.start rfl rfl hstart) hmacro
  have hnames : (after (visit recordSetting (recordHeader.entity ⟨some 7⟩))
      (after (nameTagsByTypedefs recordSetting) {})).registry.names = ["S"] := by decide +kernel
  have hbody : Handles recordSetting (recordHeader.entity ⟨some 4⟩)
      (function recordSetting (recordHeader.entity ⟨some 4⟩)) := .function rfl
  have hstop : hasStopped (function recordSetting (recordHeader.entity ⟨some 4⟩))
      (after (visit recordSetting (recordHeader.entity ⟨some 7⟩))
        (after (nameTagsByTypedefs recordSetting) {}))
      (fun stop left => stop = .unresolved "v4" &&
        left.registry.names == ["S", "int", "node", "node*", "color"]) = true := by decide +kernel
  generalize after (visit recordSetting (recordHeader.entity ⟨some 7⟩))
    (after (nameTagsByTypedefs recordSetting) {}) = s at hs hnames hstop
  obtain ⟨stop, left, hresult, htest⟩ := eq_error_of_hasStopped hstop
  simp only [Bool.and_eq_true, beq_iff_eq, decide_eq_true_eq] at htest
  obtain ⟨rfl, hleft⟩ := htest
  obtain ⟨undone, own, hdeclaration, hundone, -, -, hown, hresolved, hreport⟩ :=
    (declaration_atomic hs hbody).1 "v4" left rfl hresult
  have hplace : recordSetting.placeText (recordHeader.entity ⟨some 4⟩) = "test.h:3" := by
    decide +kernel
  rw [hplace] at hreport
  exact ⟨s, left, undone, own, hs, hnames, hresult, hleft, hdeclaration, hundone.trans hnames,
    hown, hresolved, hreport⟩

end Build
end CInterop.Extraction
