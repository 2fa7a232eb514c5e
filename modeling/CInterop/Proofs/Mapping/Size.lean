import CInterop.Proofs.Header.Typedefs
import CInterop.Proofs.Mapping.TypeUse
import CInterop.Proofs.Rank

/-!
# Sizes of types

The size of a type is found at the end of a chain of typedefs and enumerations, which the mapping walks as
far as its limit allows. In a tree without dangling references and without a cycle every descent into the
types that a type is spelled over ends.
-/

namespace CInterop.Mapping

open Header

/-! ## The end of a chain -/

/-- The type that has the size of this one, if this one states none itself. -/
def measuredBy? : Body String Int Bool → Option String
  | .typedef underlying => some underlying
  | .enumeration integerType _ => some integerType
  | _ => none

theorem body_of_measuredBy? {body : Body String Int Bool} {next : String}
    (h : measuredBy? body = some next) :
    body = .typedef next ∨ ∃ values, body = .enumeration next values := by
  cases body <;> cases h
  · exact .inr ⟨_, rfl⟩
  · exact .inl rfl

/-- Through that many typedefs and enumerations a name leads to a type that states the size. -/
inductive Measures (t : Declarations) : Nat → String → Int → Prop where
  | stated {name : String} {node : Declaration} (hnode : t.node? name = some node)
      (hbody : measuredBy? node.body = none) : Measures t 0 name node.body.statedSize
  | link {links : Nat} {name next : String} {size : Int} {node : Declaration}
      (hnode : t.node? name = some node) (hbody : measuredBy? node.body = some next)
      (h : Measures t links next size) : Measures t (links + 1) name size

section

variable {t : Declarations} {name : String} {links links' : Nat} {size size' : Int}

/-- A type of this body states its size itself. -/
theorem measures_of_body {node : Declaration} {body : Body String Int Bool}
    (hnode : t.node? name = some node) (hbody : node.body = body) (h : measuredBy? body = none) :
    Measures t 0 name body.statedSize := by
  subst hbody
  exact .stated hnode h

/-- A name leads to one size only. -/
theorem Measures.unique (h : Measures t links name size) (h' : Measures t links' name size') :
    size = size' := by
  induction h generalizing links' with
  | stated hnode hbody =>
    cases h' with
    | stated hnode' => rw [Option.some.inj (hnode.symm.trans hnode')]
    | link hnode' hbody' =>
      rw [← Option.some.inj (hnode.symm.trans hnode'), hbody] at hbody'
      cases hbody'
  | link hnode hbody _ ih =>
    cases h' with
    | stated hnode' hbody' =>
      rw [← Option.some.inj (hnode.symm.trans hnode'), hbody] at hbody'
      cases hbody'
    | link hnode' hbody' h' =>
      rw [← Option.some.inj (hnode.symm.trans hnode'), hbody] at hbody'
      cases hbody'
      exact ih h'

/-- A typedef has the size of what it leads to. -/
theorem measures_of_reaches {last : String} (h : Relation.ReflTransGen t.RefersTo name last)
    (hlast : Measures t links last size) : ∃ links, Measures t links name size := by
  induction h using Relation.ReflTransGen.head_induction_on with
  | refl => exact ⟨links, hlast⟩
  | head hstep _ ih =>
    obtain ⟨node, hnode, hbody⟩ := hstep
    obtain ⟨links, hlinks⟩ := ih
    exact ⟨links + 1, .link hnode (by rw [hbody]; rfl) hlinks⟩

/-- The size that the tree has for a name is the one the name leads to. -/
theorem measures_of_sizeOf (h : t.sizeOf name = .ok size) : ∃ links, Measures t links name size := by
  unfold Tree.sizeOf at h
  generalize t.nodes.length + 1 = steps at h
  induction steps generalizing name with
  | zero => cases h
  | succ steps ih =>
    have hfinds := Tree.finds_resolveTypedef t name
    cases hresolved : t.resolveTypedef name with
    | error invalid =>
      unfold Tree.sizeWithin at h
      rw [hresolved] at h
      cases h
    | ok node =>
      rw [hresolved] at hfinds
      rw [Tree.sizeWithin_of_endsAt hfinds.endsAt] at h
      obtain ⟨last, hreaches, hkind, hnode⟩ := hfinds.endsAt
      split at h
      · rename_i integerType values hbody
        obtain ⟨links, hlinks⟩ := ih h
        exact measures_of_reaches hreaches (.link hnode (by rw [hbody]; rfl) hlinks)
      · rename_i henumeration
        cases h
        refine measures_of_reaches hreaches (.stated hnode ?_)
        unfold measuredBy?
        split
        · rename_i hbody
          exact absurd (by rw [Node.kind, hbody]; rfl) hkind
        · exact absurd ‹_› (henumeration _ _)
        · rfl

/-- What has a size is a type. -/
theorem Measures.hasType (h : Measures t links name size) (hpos : 0 < size) :
    t.hasType name = true := by
  refine hasType_iff.mpr ?_
  cases h with
  | @stated _ node hnode hbody =>
    refine ⟨node, hnode, ?_⟩
    unfold Body.statedSize at hpos
    rw [Node.kind]
    split at hpos <;> simp_all [Body.kind, Kind.isType]
  | @link _ _ _ _ node hnode hbody =>
    refine ⟨node, hnode, ?_⟩
    rw [Node.kind]
    rcases body_of_measuredBy? hbody with htypedef | ⟨values, henumeration⟩
    · rw [htypedef]
      rfl
    · rw [henumeration]
      rfl

/-! ## Walking along a chain -/

/-- The next type on the way to the size of a name; none where the way ends, at a type that states its
size or at no type. -/
def sizedBy? (t : Declarations) (name : String) : Option String :=
  (t.node? name).bind fun node => measuredBy? node.body

/-- Through that many typedefs and enumerations a name leads to the last one on its way. -/
inductive ChainEnds (t : Declarations) : Nat → String → String → Prop where
  | here {name : String} (h : sizedBy? t name = none) : ChainEnds t 0 name name
  | link {links : Nat} {name next last : String} (h : sizedBy? t name = some next)
      (hrest : ChainEnds t links next last) : ChainEnds t (links + 1) name last

theorem sizedBy?_of_node? {node : Declaration} (hnode : t.node? name = some node) :
    sizedBy? t name = measuredBy? node.body := by
  rw [sizedBy?, hnode, Option.bind_some]

theorem Measures.chainEnds (h : Measures t links name size) :
    ∃ last node, ChainEnds t links name last ∧ t.node? last = some node ∧
      node.body.statedSize = size := by
  induction h with
  | stated hnode hbody => exact ⟨_, _, .here ((sizedBy?_of_node? hnode).trans hbody), hnode, rfl⟩
  | link hnode hbody _ ih =>
    obtain ⟨last, node, hrest, hlast, hsize⟩ := ih
    exact ⟨last, node, .link ((sizedBy?_of_node? hnode).trans hbody) hrest, hlast, hsize⟩

/-- The mapping walks to the end of a chain, as long as the limit on links allows it. -/
theorem sizeWithin_of_chainEnds {s : Setting} {last : String} (h : ChainEnds s.tree links name last)
    (followed steps : Nat) (hlimit : followed + links ≤ Setting.linkLimit) (hsteps : links < steps) :
    s.sizeWithin steps followed name = (s.node last).map (·.body.statedSize) := by
  induction h generalizing followed steps with
  | @here name hend =>
    obtain ⟨steps, rfl⟩ := Nat.exists_eq_succ_of_ne_zero (Nat.ne_of_gt hsteps)
    unfold Setting.sizeWithin
    rw [Setting.node]
    cases hnode : s.tree.node? name with
    | none => rfl
    | some node =>
      rw [sizedBy?_of_node? hnode] at hend
      dsimp only [bind, Except.bind]
      split
      · rename_i hbody
        rw [hbody] at hend
        cases hend
      · rename_i hbody
        rw [hbody] at hend
        cases hend
      · rfl
  | @link links name next last hnext _ ih =>
    obtain ⟨steps, rfl⟩ := Nat.exists_eq_succ_of_ne_zero (Nat.ne_of_gt (Nat.zero_lt_of_lt hsteps))
    have hrest := ih (followed + 1) steps (by omega) (by omega)
    obtain ⟨node, hnode, hbody⟩ := Option.bind_eq_some_iff.mp hnext
    unfold Setting.sizeWithin
    rw [← hrest, Setting.node, hnode]
    dsimp only [bind, Except.bind]
    rcases body_of_measuredBy? hbody with htypedef | ⟨values, henumeration⟩
    · rw [htypedef]
      exact if_pos (by omega)
    · rw [henumeration]

theorem sizeOf_of_chainEnds {s : Setting} {last : String} (h : ChainEnds s.tree links name last)
    (hlinks : links ≤ Setting.linkLimit) :
    s.sizeOf name = (s.node last).map (·.body.statedSize) :=
  sizeWithin_of_chainEnds h 0 _ (by omega) (by omega)

/-- The mapping finds the size at the end of a chain within the limit. -/
theorem sizeOf_of_measures {s : Setting} (h : Measures s.tree links name size)
    (hlinks : links ≤ Setting.linkLimit) : s.sizeOf name = .ok size := by
  obtain ⟨last, node, hchain, hnode, hsize⟩ := h.chainEnds
  rw [sizeOf_of_chainEnds hchain hlinks, Setting.node, hnode, ← hsize]
  rfl

end

/-! ## Descending into types -/

/-- The type that a pointer, an array, a typedef or an enumeration is spelled over. -/
def spelledOver? : Body String Int Bool → Option String
  | .pointer pointee _ => some pointee
  | .array element .. => some element
  | .typedef underlying => some underlying
  | .enumeration integerType _ => some integerType
  | _ => none

/-- One type is spelled over another. -/
def Follows (t : Declarations) (name next : String) : Prop :=
  ∃ node, t.node? name = some node ∧ spelledOver? node.body = some next

/-- No type is spelled over itself, however remotely. -/
def Acyclic (t : Declarations) : Prop := ∀ name, ¬Relation.TransGen (Follows t) name name

section

variable {t : Declarations} {name next : String}

theorem mem_references_of_spelledOver? {body : Body String Int Bool}
    (h : spelledOver? body = some next) : next ∈ body.references := by
  unfold spelledOver? at h
  split at h <;> cases h <;> exact List.mem_singleton.mpr rfl

theorem spelledOver?_of_measuredBy? {body : Body String Int Bool}
    (h : measuredBy? body = some next) : spelledOver? body = some next := by
  rcases body_of_measuredBy? h with rfl | ⟨values, rfl⟩ <;> rfl

/-- A decreasing rank rules cycles out. -/
theorem acyclic_of_rank {rank : String → Nat}
    (h : ∀ node ∈ t.nodes, ∀ next, spelledOver? node.body = some next → rank next < rank node.name) :
    Acyclic t := by
  have hdecreases {name next : String} (hpath : Relation.TransGen (Follows t) name next) :
      rank next < rank name := by
    induction hpath with
    | single hstep =>
      obtain ⟨node, hnode, hnext⟩ := hstep
      exact node?_name hnode ▸ h node (node?_mem hnode) _ hnext
    | tail _ hstep ih =>
      obtain ⟨node, hnode, hnext⟩ := hstep
      exact (node?_name hnode ▸ h node (node?_mem hnode) _ hnext).trans ih
  exact fun name hcycle => Nat.lt_irrefl _ (hdecreases hcycle)

/-- No chain is longer than the rank of the name where it starts. -/
theorem Measures.le_rank {rank : String → Nat} {links : Nat} {size : Int}
    (hrank : ∀ node ∈ t.nodes, ∀ next, spelledOver? node.body = some next →
      rank next < rank node.name)
    (h : Measures t links name size) : links ≤ rank name := by
  induction h with
  | stated => exact Nat.zero_le _
  | link hnode hbody _ ih =>
    have hlt := hrank _ (node?_mem hnode) _ (spelledOver?_of_measuredBy? hbody)
    rw [node?_name hnode] at hlt
    exact Nat.le_trans (Nat.succ_le_succ ih) hlt

/-- Without a cycle the descent from any name takes no more steps than there are nodes. -/
theorem exists_rank (acyclic : Acyclic t) :
    ∃ rank : String → Nat, (∀ name, rank name ≤ t.nodes.length) ∧
      ∀ name next, Follows t name next → rank next < rank name := by
  have hsources (name next : String) (hstep : Follows t name next) : name ∈ t.names.toFinset := by
    obtain ⟨node, hnode, -⟩ := hstep
    exact List.mem_toFinset.mpr (List.mem_map.mpr ⟨node, node?_mem hnode, node?_name hnode⟩)
  obtain ⟨rank, hle, hlt⟩ := exists_rank_of_acyclic t.names.toFinset hsources acyclic
  refine ⟨rank, fun name => ?_, hlt⟩
  calc rank name ≤ t.names.toFinset.card := hle name
    _ ≤ t.names.length := List.toFinset_card_le _
    _ = t.nodes.length := List.length_map _

/-- In a closed tree without a cycle, what passes to a type from the one it is spelled over holds of
every type. -/
theorem forall_types_of_acyclic {P : String → Prop} (closed : Closed t) (acyclic : Acyclic t)
    (hstep : ∀ name node, t.node? name = some node →
      (∀ next, spelledOver? node.body = some next → P next) → P name)
    (h : t.hasType name = true) : P name := by
  obtain ⟨rank, -, hrank⟩ := exists_rank acyclic
  generalize hsteps : rank name = steps
  induction steps using Nat.strong_induction_on generalizing name with
  | _ steps ih =>
    obtain ⟨node, hnode, -⟩ := hasType_iff.mp h
    refine hstep name node hnode fun next hnext => ?_
    have hlt := hrank name next ⟨node, hnode, hnext⟩
    have htype := closed node (node?_mem hnode) next (mem_references_of_spelledOver? hnext)
    exact ih (rank next) (hsteps ▸ hlt) htype rfl

end

end CInterop.Mapping
