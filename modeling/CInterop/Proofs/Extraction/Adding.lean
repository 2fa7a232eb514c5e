import CInterop.Proofs.Extraction.Opening
import CInterop.Proofs.Extraction.Settling

/-!
# What nodes an extraction adds

A node that is there after a step was there before it, or is one that the step declared. What holds of
every node that may be declared therefore holds of the nodes of a whole tree. Here it is followed for
records, which are declared in one place only: after their fields, with what these came to.
-/

namespace CInterop.Extraction

open FrontEnd Header
open Macro (Candidate)

variable {Q : Declaration → Prop}

/-- Every node that is there after the step was there before it, or has the property. -/
def Adds (Q : Declaration → Prop) (s s' : State) : Prop :=
  ∀ node ∈ s'.registry.nodes, node ∈ s.registry.nodes ∨ Q node

theorem Adds.of_subset {s s' : State} (h : s'.registry.nodes ⊆ s.registry.nodes) : Adds Q s s' :=
  fun _ hnode => .inl (h hnode)

theorem Adds.trans {s s' s'' : State} (h : Adds Q s s') (h' : Adds Q s' s'') : Adds Q s s'' := by
  intro node hnode
  rcases h' node hnode with hmid | hQ
  · exact h node hmid
  · exact .inr hQ

namespace Build

variable {α β : Type} {c : Setting}

/-- The node of a struct or a union with the given fields. -/
def recordOf (c : Setting) (e : Entity) (name : String) (fields : List (Field String Int)) :
    Declaration :=
  ⟨name, .record (e.kind = .union) fields (max (c.type e.type).size 0) (max (c.type e.type).align 0),
    c.place? e⟩

/-- The property says something of records only, and holds of a record with the fields that were found
for it. -/
structure HoldsOfRecords (c : Setting) (Q : Declaration → Prop) : Prop where
  other : ∀ node, node.kind ≠ .record → Q node
  record : ∀ {resolve : TypeRef → Build String} {e : Entity} {name : String}
    {found : List (Field String Int)} {s s' : State}, fields c resolve e.type name s = .ok found s' →
    Q (recordOf c e name found)

/-- The step adds only nodes with the property, wherever it starts and however it ends. -/
def Adding (Q : Declaration → Prop) (x : Build α) : Prop := ∀ s, Adds Q s (after x s)

namespace Adding

theorem pure (a : α) : Adding Q (pure a : Build α) := fun _ => .of_subset (List.Subset.refl _)

theorem throw (stop : Stop) : Adding Q (throw stop : Build α) := fun _ => .of_subset (List.Subset.refl _)

theorem get : Adding Q (MonadState.get : Build State) := fun _ => .of_subset (List.Subset.refl _)

/-- A change that declares nothing. -/
theorem modify {g : State → State} (h : ∀ s, (g s).registry.nodes ⊆ s.registry.nodes) :
    Adding Q (modify g) := fun s => .of_subset (h s)

/-- The second step may depend on what the first one came to. -/
theorem bind_of_ok {x : Build α} {f : α → Build β} (hx : Adding Q x)
    (hf : ∀ a s s', x s = .ok a s' → Adding Q (f a)) : Adding Q (x >>= f) :=
  fun s => after_bind Adds.trans (hx s) fun a s' h => hf a s s' h s'

theorem bind {x : Build α} {f : α → Build β} (hx : Adding Q x) (hf : ∀ a, Adding Q (f a)) :
    Adding Q (x >>= f) :=
  hx.bind_of_ok fun a _ _ _ => hf a

end Adding

/-! ## Single steps -/

/-- A change of something else than the registry. -/
theorem adding_aside {g : State → State} (h : ∀ s, (g s).registry = s.registry) :
    Adding Q (modify g) :=
  .modify fun s => h s ▸ List.Subset.refl _

theorem adding_report (cause : Cause) (place : String) : Adding Q (report cause place) :=
  adding_aside fun _ => rfl

theorem adding_reserve (name : String) : Adding Q (reserve name) :=
  .modify fun s => Registry.nodes_reserve s.registry name ▸ List.Subset.refl _

theorem adding_declare {node : Declaration} (h : Q node) : Adding Q (declare node) := by
  intro s other hother
  rcases Registry.mem_nodes_declare hother with rfl | hold
  · exact .inr h
  · exact .inl hold

theorem remarks_adding : Remarks (Adding Q) where
  pure := .pure
  bind := .bind
  get := .get
  aside h := adding_aside fun s => (h s).1
  remark cause place _ := adding_report cause place

theorem admits_adding : Admits (Adding Q) := remarks_adding.admits fun _ => .throw _

/-- Resolving types adds records with the fields that were found for them. -/
theorem registers_adding (hQ : HoldsOfRecords c Q) : Registers c (Adding Q) where
  toAdmits := admits_adding
  reserve := adding_reserve
  noteResolved := remarks_adding.noteResolved
  announceIgnored := remarks_adding.announceIgnored
  ownTagName := remarks_adding.ownTagName
  declare node hkind := adding_declare (hQ.other node hkind)
  declareRecord h _ _ := (admits_adding.fieldsWithin (.throw _) h _ _ _ _).bind_of_ok fun _ _ _ hfields =>
    (adding_declare (hQ.record hfields)).bind fun _ => .pure _

theorem adding_attempt {x : Build α} (h : Adding Q x) : Adding Q (attempt x) :=
  fun s => after_attempt x s ▸ h s

/-! ## Declarations and macros -/

/-- Undoing a declaration takes nodes away. -/
theorem adding_declaration {e : Entity} {body : Build α} (h : Adding Q body) :
    Adding Q (declaration c e body) := by
  intro s
  rcases after_declaration c e body s with hkept | ⟨d, hundone⟩
  · rw [hkept]
    exact h s
  · rw [hundone]
    exact (h s).trans (.of_subset (Registry.nodes_cut_subset _))

theorem adding_collectMacro (e : Entity) : Adding Q (collectMacro c e) := by
  unfold collectMacro
  split
  · exact .pure _
  split
  · exact .pure _
  split
  · exact adding_report _ _
  dsimp only
  split
  · exact .pure _
  · refine .modify fun s => ?_
    split
    · split <;> exact List.Subset.refl _
    · exact Registry.nodes_reserve s.registry e.spelling ▸ List.Subset.refl _

theorem adding_visit (hQ : HoldsOfRecords c Q) (e : Entity) : Adding Q (visit c e) :=
  (registers_adding hQ).visit admits_adding.toSpeaks ((registers_adding hQ).resolve (.throw _))
    (fun _ _ hbody => adding_declaration hbody) adding_collectMacro e

/-- A macro that is settled becomes a constant or gives its name up. -/
theorem adding_settle {accepted : List Declaration} (h : ∀ node ∈ accepted, Q node) (m : Candidate) :
    Adding Q (settle accepted m) := by
  unfold settle
  split
  · rename_i node hfind
    exact adding_declare (h node (List.mem_of_find?_eq_some hfind))
  · refine .modify fun s => ?_
    split
    · exact List.Subset.refl _
    · exact Registry.nodes_release_subset

theorem adding_judgeMacros (hQ : HoldsOfRecords c Q) : Adding Q (judgeMacros c) := by
  have hregisters := registers_adding hQ
  have hexclude (m : Candidate) (reason : String) : Adding Q (exclude c m reason) :=
    (admits_adding.detail _).bind fun _ => adding_report _ _
  exact admits_adding.judgeMacros .get (fun _ _ _ => adding_report _ _) fun candidates =>
    admits_adding.constants (fun _ => .throw _) admits_adding.detail (fun _ => adding_aside fun _ => rfl)
      hexclude (hregisters.stringType remarks_adding.noteString)
      (fun t => adding_attempt (hregisters.resolve (.throw _) t)) candidates

theorem adding_settleMacros (hQ : HoldsOfRecords c Q) : Adding Q (settleMacros c) := by
  unfold settleMacros
  refine Adding.get.bind fun s => ?_
  refine (adding_judgeMacros hQ).bind_of_ok fun accepted s₁ s₂ haccepted => ?_
  refine admits_adding.forM fun m _ => adding_settle (fun node hnode => hQ.other node ?_) m
  -- what was accepted are constants
  obtain ⟨before, after, hsplit⟩ := List.append_of_mem hnode
  obtain ⟨_, _, _, _, hbecomes⟩ := (judgeMacros_eq_ok haccepted).2 before node after hsplit
  obtain ⟨type, rfl⟩ := hbecomes.node
  exact nofun

/-- A tree has only nodes with the property, besides those that were there before. -/
theorem adding_tree (hQ : HoldsOfRecords c Q) : Adding Q (tree c) := by
  unfold tree
  refine admits_adding.nameTagsByTypedefs.bind fun _ => ?_
  refine (admits_adding.forM fun e _ => adding_visit hQ e).bind fun _ => ?_
  exact (adding_settleMacros hQ).bind fun _ => Adding.get.bind fun _ => .pure _

end Build

/-- What is known of records holds of every node of a header that was opened. -/
theorem Opened.forall_nodes {c : Setting} {s₀ s : State} {t : Declarations} (h : Opened c s₀)
    (hQ : Build.HoldsOfRecords c Q) (htree : Build.tree c s₀ = .ok t s) : ∀ node ∈ t.nodes, Q node := by
  intro node hnode
  obtain ⟨-, rfl⟩ := course_of_tree h.sound htree
  have hadds := Build.adding_tree hQ s₀
  unfold Build.after at hadds
  rw [htree] at hadds
  rcases hadds node hnode with hold | hQnode
  · -- where a header was only opened, nothing is declared
    rw [h.registry] at hold
    cases hold
  · exact hQnode

end CInterop.Extraction
