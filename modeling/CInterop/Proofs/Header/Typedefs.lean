import Mathlib.Data.List.Perm.Subperm
import Mathlib.Logic.Relation
import CInterop.Header.Tree

/-!
# Following typedefs

From every name typedefs lead to one other name at most. So the way from a name is a line, which ends at a
node that is no typedef, ends at a name that has no node, or comes back to a typedef that it has passed.
Resolving a name tells these three apart exactly, whatever the tree is: on a line with tails that lead into
cycles as well.

The typedefs that were passed are all different and all in the tree, which is why the search needs no more
steps than there are nodes.
-/

namespace CInterop.Header

/-! ## Lines of typedefs -/

namespace Tree

/-- The name is that of a typedef of the tree, which refers to the other name. -/
def RefersTo (t : Declarations) (name underlying : String) : Prop :=
  ∃ node, t.node? name = some node ∧ node.body = .typedef underlying

/-- Typedefs lead from the name to this node, which is none itself. -/
def EndsAt (t : Declarations) (name : String) (node : Declaration) : Prop :=
  ∃ last, Relation.ReflTransGen t.RefersTo name last ∧ node.kind ≠ .typedef ∧
    t.node? last = some node

/-- Typedefs lead from the name out of the tree. -/
def Leaves (t : Declarations) (name : String) : Prop :=
  ∃ last, Relation.ReflTransGen t.RefersTo name last ∧ t.node? last = none

/-- Typedefs lead from the name to a typedef, and from there back to it. -/
def Revisits (t : Declarations) (name through : String) : Prop :=
  Relation.ReflTransGen t.RefersTo name through ∧ Relation.TransGen t.RefersTo through through

variable {t : Declarations} {name other next : String} {node : Declaration}

theorem exists_underlying (h : node.kind = .typedef) : ∃ underlying, node.body = .typedef underlying := by
  unfold Node.kind Body.kind at h
  split at h <;> first | exact ⟨_, ‹_›⟩ | cases h

theorem RefersTo.mem (h : t.RefersTo name next) : name ∈ t.names := by
  obtain ⟨node, hnode, -⟩ := h
  rw [← node?_name hnode]
  exact List.mem_map_of_mem (node?_mem hnode)

/-- A name leads to one other name at most. -/
theorem RefersTo.unique (h : t.RefersTo name next) (h' : t.RefersTo name other) : next = other := by
  obtain ⟨node, hnode, hbody⟩ := h
  obtain ⟨node', hnode', hbody'⟩ := h'
  cases hnode.symm.trans hnode'
  have hsame : Body.typedef next = .typedef other := hbody.symm.trans hbody'
  injection hsame

theorem not_refersTo_of_none (h : t.node? name = none) : ¬t.RefersTo name next := by
  rintro ⟨node, hnode, -⟩
  cases h.symm.trans hnode

theorem not_refersTo_of_kind (hnode : t.node? name = some node) (hkind : node.kind ≠ .typedef) :
    ¬t.RefersTo name next := by
  rintro ⟨node', hnode', hbody⟩
  cases hnode.symm.trans hnode'
  exact hkind (by rw [Node.kind, hbody]; rfl)

/-! ## A line has one end -/

/-- A name from which nothing leads on is reached from every name that the line passes. -/
theorem reaches_end {last : String} (hlast : ∀ next, ¬t.RefersTo last next)
    (h : Relation.ReflTransGen t.RefersTo name last)
    (hother : Relation.ReflTransGen t.RefersTo name other) :
    Relation.ReflTransGen t.RefersTo other last := by
  have hunique : Relator.RightUnique t.RefersTo := fun _ _ _ hb hc => hb.unique hc
  rcases Relation.ReflTransGen.total_of_right_unique hunique h hother with hback | hforth
  · rcases hback.cases_head with heq | ⟨next, hnext, -⟩
    · rw [heq]
    · exact absurd hnext (hlast next)
  · exact hforth

/-- Nothing leads on from either name, so both are the end of the line. -/
theorem end_unique {last last' : String} (hlast : ∀ next, ¬t.RefersTo last next)
    (hlast' : ∀ next, ¬t.RefersTo last' next) (h : Relation.ReflTransGen t.RefersTo name last)
    (h' : Relation.ReflTransGen t.RefersTo name last') : last = last' := by
  rcases (reaches_end hlast' h' h).cases_head with heq | ⟨next, hnext, -⟩
  · exact heq
  · exact absurd hnext (hlast next)

/-- From a name on a cycle only names on cycles are reached. -/
theorem cycle_of_reaches (h : Relation.ReflTransGen t.RefersTo name other)
    (hcycle : Relation.TransGen t.RefersTo name name) :
    Relation.TransGen t.RefersTo other other := by
  induction h with
  | refl => exact hcycle
  | @tail other next _ hnext ih =>
    obtain ⟨first, hfirst, hrest⟩ := Relation.TransGen.head'_iff.mp ih
    cases hnext.unique hfirst
    exact .tail' hrest hnext

/-- A line that has an end comes back to nothing. -/
theorem Revisits.not_end {last through : String} (h : t.Revisits name through)
    (hlast : ∀ next, ¬t.RefersTo last next) : ¬Relation.ReflTransGen t.RefersTo name last := by
  intro hend
  have hcycle := cycle_of_reaches (reaches_end hlast hend h.1) h.2
  obtain ⟨next, hnext, -⟩ := Relation.TransGen.head'_iff.mp hcycle
  exact hlast next hnext

/-! ## The search -/

/-- The names passed on the line from `start` to a name, the latest first, none of them twice. -/
inductive Passed (t : Declarations) (start : String) : List String → String → Prop where
  | start : Passed t start [] start
  | step {seen : List String} {name next : String} (h : Passed t start seen name)
      (hnext : t.RefersTo name next) (hnew : name ∉ seen) : Passed t start (name :: seen) next

variable {start : String} {seen : List String} {steps : Nat}

theorem Passed.reaches (h : Passed t start seen name) :
    Relation.ReflTransGen t.RefersTo start name := by
  induction h with
  | start => exact .refl
  | step _ hnext _ ih => exact ih.tail hnext

/-- A name that was passed leads on to where the search is. -/
theorem Passed.leads (h : Passed t start seen name) (hother : other ∈ seen) :
    Relation.TransGen t.RefersTo other name := by
  induction h with
  | start => cases hother
  | step _ hnext _ ih =>
    rcases List.mem_cons.mp hother with rfl | hother
    · exact .single hnext
    · exact (ih hother).tail hnext

/-- No more names are passed than there are nodes. -/
theorem Passed.length_le (h : Passed t start seen name) : seen.length ≤ t.nodes.length := by
  have hdistinct : seen.Nodup ∧ seen ⊆ t.names := by
    induction h with
    | start => exact ⟨List.nodup_nil, List.nil_subset _⟩
    | step _ hnext hnew ih =>
      exact ⟨List.nodup_cons.mpr ⟨hnew, ih.1⟩, List.cons_subset.mpr ⟨hnext.mem, ih.2⟩⟩
  have hle := (hdistinct.1.subperm hdistinct.2).length_le
  rwa [names, List.length_map] at hle

/-- What there is to find for a name: the end of its line, or a typedef that it comes back to. -/
inductive Finds (t : Declarations) (name : String) : Except Invalid Declaration → Prop where
  | node {node : Declaration} (h : t.EndsAt name node) : Finds t name (.ok node)
  | nothing (h : t.Leaves name) : Finds t name (.error (.unknownType name))
  | cycle {through : String} (h : t.Revisits name through) :
      Finds t name (.error (.typedefCycle through))

/-- One step of the search: it is over, or goes on from a typedef that was not passed yet. -/
theorem follow_cases (h : Passed t start seen name) :
    (∃ found, Finds t start found ∧ ∀ steps, t.follow start steps seen name = found) ∨
    ∃ next, Passed t start (name :: seen) next ∧
      ∀ steps, t.follow start (steps + 1) seen name = t.follow start steps (name :: seen) next := by
  cases hnode : t.node? name with
  | none =>
    refine .inl ⟨_, .nothing ⟨name, h.reaches, hnode⟩, fun steps => ?_⟩
    unfold follow
    rw [hnode]
  | some node =>
    have hname := node?_name hnode
    by_cases hkind : node.kind = .typedef
    · obtain ⟨underlying, hbody⟩ := exists_underlying hkind
      by_cases hseen : name ∈ seen
      · refine .inl ⟨_, .cycle ⟨h.reaches, h.leads hseen⟩, fun steps => ?_⟩
        unfold follow
        rw [hnode]
        dsimp only
        rw [hbody]
        dsimp only
        rw [hname, if_pos (List.contains_iff_mem.mpr hseen)]
      · refine .inr ⟨underlying, h.step ⟨node, hnode, hbody⟩ hseen, fun steps => ?_⟩
        conv => lhs; unfold follow
        rw [hnode]
        dsimp only
        rw [hbody]
        dsimp only
        rw [hname, if_neg (mt List.contains_iff_mem.mp hseen)]
    · refine .inl ⟨_, .node ⟨name, h.reaches, hkind, hnode⟩, fun steps => ?_⟩
      unfold follow
      rw [hnode]
      dsimp only
      split
      · rename_i hbody
        exact absurd (by rw [Node.kind, hbody]; rfl) hkind
      · rfl

/-- With as many steps as there are nodes that were not passed, and one more, the search finds what there is
to find, and further steps change nothing. -/
theorem finds_follow (h : Passed t start seen name)
    (hsteps : t.nodes.length < seen.length + steps) :
    Finds t start (t.follow start steps seen name) ∧
      ∀ more, steps ≤ more → t.follow start more seen name = t.follow start steps seen name := by
  induction steps generalizing seen name with
  | zero =>
    have hle := h.length_le
    omega
  | succ steps ih =>
    rcases follow_cases h with ⟨found, hfound, hover⟩ | ⟨next, hpassed, hgoes⟩
    · rw [hover (steps + 1)]
      exact ⟨hfound, fun more _ => hover more⟩
    · obtain ⟨hfinds, hmore⟩ := ih hpassed (by rw [List.length_cons]; omega)
      rw [hgoes steps]
      refine ⟨hfinds, fun more hle => ?_⟩
      obtain ⟨more, rfl⟩ : ∃ more', more = more' + 1 := ⟨more - 1, by omega⟩
      rw [hgoes more]
      exact hmore more (by omega)

/-- The bound that resolving a name is given is enough. -/
theorem finds_resolveTypedef (t : Declarations) (name : String) :
    Finds t name (t.resolveTypedef name) :=
  (finds_follow .start (by rw [List.length_nil]; omega)).1

/-! ## What is found -/

section

variable {found : Except Invalid Declaration} {through : String}

/-- Whatever else a line is, nothing but the node at its end is found. -/
theorem Finds.of_endsAt (hfound : Finds t name found) (h : t.EndsAt name node) :
    found = .ok node := by
  obtain ⟨last, hlast, hkind, hnode⟩ := h
  have hend (next : String) : ¬t.RefersTo last next := not_refersTo_of_kind hnode hkind
  cases hfound with
  | node h' =>
    obtain ⟨last', hlast', hkind', hnode'⟩ := h'
    cases end_unique hend (fun _ => not_refersTo_of_kind hnode' hkind') hlast hlast'
    rw [Option.some.inj (hnode.symm.trans hnode')]
  | nothing h' =>
    obtain ⟨last', hlast', hnone⟩ := h'
    cases end_unique hend (fun _ => not_refersTo_of_none hnone) hlast hlast'
    cases hnode.symm.trans hnone
  | cycle h' => exact absurd hlast (h'.not_end hend)

theorem Finds.endsAt (hfound : Finds t name (.ok node)) : t.EndsAt name node := by
  cases hfound with
  | node h => exact h

theorem Finds.of_leaves (hfound : Finds t name found) (h : t.Leaves name) :
    found = .error (.unknownType name) := by
  cases hfound with
  | node h' => cases (Finds.nothing h).of_endsAt h'
  | nothing h' => rfl
  | cycle h' =>
    obtain ⟨last, hlast, hnone⟩ := h
    exact absurd hlast (h'.not_end fun _ => not_refersTo_of_none hnone)

theorem Finds.of_revisits (hfound : Finds t name found) (h : t.Revisits name through) :
    ∃ through, found = .error (.typedefCycle through) := by
  cases hfound with
  | node h' => cases (Finds.cycle h).of_endsAt h'
  | nothing h' => cases (Finds.cycle h).of_leaves h'
  | @cycle through h' => exact ⟨through, rfl⟩

end

/-! ## Sizes at the end of a line -/

/-- A name has the size of what its typedefs lead to. -/
theorem sizeWithin_of_endsAt (h : t.EndsAt name node) :
    t.sizeWithin (steps + 1) name = match node.body with
      | .enumeration integerType _ => t.sizeWithin steps integerType
      | body => .ok body.statedSize := by
  rw [sizeWithin, (finds_resolveTypedef t name).of_endsAt h]
  rfl

theorem sizeWithin_of_leaves (h : t.Leaves name) :
    t.sizeWithin (steps + 1) name = .error (.invalid (.unknownType name)) := by
  rw [sizeWithin, (finds_resolveTypedef t name).of_leaves h]
  rfl

/-! ## What resolving gives -/

/-- Resolving a name gives the node at the end of its line, and tells a line that leaves the tree, by the
name it was asked for, from one that comes back to a typedef, by a typedef on the cycle. It gives nothing
else, whatever the bound of its steps is, as long as it is above the number of nodes. -/
theorem resolveTypedef_exact (t : Declarations) (name : String) :
    (∀ node, t.resolveTypedef name = .ok node ↔ t.EndsAt name node) ∧
    (t.resolveTypedef name = .error (.unknownType name) ↔ t.Leaves name) ∧
    ((∃ through, t.resolveTypedef name = .error (.typedefCycle through)) ↔
      ∃ through, t.Revisits name through) ∧
    (∀ cause, t.resolveTypedef name = .error cause →
      (cause = .unknownType name ∧ cause.message = s!"Type '{name}' does not resolve to a node.") ∨
      ∃ through, cause = .typedefCycle through ∧
        cause.message = s!"Typedef cycle through '{through}'." ∧ t.Revisits name through) ∧
    ∀ steps, t.nodes.length < steps → t.follow name steps [] name = t.resolveTypedef name := by
  have hfound := finds_resolveTypedef t name
  refine ⟨fun node => ⟨fun h => ?_, hfound.of_endsAt⟩, ⟨fun h => ?_, hfound.of_leaves⟩,
    ⟨fun ⟨through, h⟩ => ?_, fun ⟨_, h⟩ => hfound.of_revisits h⟩, fun cause h => ?_,
    fun steps h => ?_⟩
  · exact (h ▸ hfound).endsAt
  · rw [h] at hfound
    cases hfound with
    | nothing hleaves => exact hleaves
  · rw [h] at hfound
    cases hfound with
    | cycle hcycle => exact ⟨through, hcycle⟩
  · rw [h] at hfound
    cases hfound with
    | nothing _ => exact .inl ⟨rfl, rfl⟩
    | @cycle through hcycle => exact .inr ⟨through, rfl, rfl, hcycle⟩
  · have hlast : t.nodes.length < ([] : List String).length + (t.nodes.length + 1) := by
      rw [List.length_nil]
      omega
    exact (finds_follow .start hlast).2 steps h

/-- A typedef that leads into a cycle is reported by the first typedef that comes up again. -/
example : resolveTypedef ⟨"loop.h", 64, [⟨"first", .typedef ("second"), none⟩,
      ⟨"second", .typedef ("third"), none⟩, ⟨"third", .typedef ("second"), none⟩]⟩ "first" =
    .error (.typedefCycle "second") := by
  decide

end Tree
end CInterop.Header
