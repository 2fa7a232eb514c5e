import CInterop.Extraction.Registry

/-!
# Looking names up in a registry

A registry is known by the order of its names and by the node that each name has. Every operation is
described by what it does to the two. In a well-formed registry, which every operation leaves, no name
is reserved twice and nodes stand under their own names, so that a lookup in the registry is a lookup
among its nodes.
-/

namespace CInterop.Extraction.Registry

open Header

/-! ## The node of a name after each operation -/

theorem node?_of_notMem {r : Registry} {name : String} (h : name ∉ r.names) :
    r.node? name = none := by
  have hnone : r.slots.find? (·.name = name) = none := by
    rw [List.find?_eq_none]
    intro slot hslot heq
    exact h (List.mem_map.mpr ⟨slot, hslot, by simpa using heq⟩)
  rw [node?, hnone]
  rfl

theorem mem_names_of_node? {r : Registry} {name : String} {node : Declaration}
    (h : r.node? name = some node) : name ∈ r.names := by
  by_cases hmem : name ∈ r.names
  · exact hmem
  · rw [node?_of_notMem hmem] at h
    cases h

theorem node?_reserve (r : Registry) (name other : String) :
    (r.reserve name).node? other = r.node? other := by
  unfold reserve
  split
  · rfl
  · rw [node?, node?, List.find?_append]
    cases hfound : r.slots.find? (·.name = other) with
    | some slot => rfl
    | none =>
      rw [Option.none_or]
      by_cases heq : name = other <;> simp [heq]

theorem node?_declare (r : Registry) (node : Declaration) (name : String) :
    (r.declare node).node? name = if name = node.name then some node else r.node? name := by
  -- giving a slot a node does not change its name, so the search finds the same slot
  have hmap : ∀ slots : List Slot,
      ((slots.map fun slot => if slot.name = node.name then { slot with node? := some node } else slot
        ).find? (·.name = name)) =
      (slots.find? (·.name = name)).map fun slot =>
        if slot.name = node.name then { slot with node? := some node } else slot := by
    intro slots
    rw [List.find?_map]
    congr 2
    funext slot
    simp only [Function.comp]
    split <;> rfl
  rw [declare, node?, hmap]
  split
  · rename_i heq
    have hmem : node.name ∈ (r.reserve node.name).names := by
      rw [names_reserve]
      split <;> simp_all
    obtain ⟨slot, hslot, hname⟩ := List.mem_map.mp hmem
    cases hfound : (r.reserve node.name).slots.find? (·.name = name) with
    | none =>
      rw [List.find?_eq_none] at hfound
      exact absurd (hfound slot hslot) (by simp [hname, heq])
    | some slot =>
      have hslotName := List.find?_some hfound
      simp_all
  · rename_i hne
    rw [← node?_reserve r node.name name, node?]
    cases hfound : (r.reserve node.name).slots.find? (·.name = name) with
    | none => rfl
    | some slot =>
      have hslotName := List.find?_some hfound
      simp_all

theorem node?_cut {r : Registry} {n : Nat} {name : String} (h : name ∈ (r.cut n).names) :
    (r.cut n).node? name = r.node? name := by
  obtain ⟨slot, hslot, hname⟩ := List.mem_map.mp h
  rw [node?, node?]
  -- the name is among those that were kept, and the search ends before the cut
  conv => rhs; rw [← List.take_append_drop n r.slots, List.find?_append]
  cases hfound : (r.cut n).slots.find? (·.name = name) with
  | none =>
    rw [List.find?_eq_none] at hfound
    exact absurd (hfound slot hslot) (by simp [hname])
  | some slot =>
    rw [cut] at hfound
    rw [hfound]
    rfl

theorem node?_release (r : Registry) (name other : String) :
    (r.release name).node? other = if other = name then none else r.node? other := by
  split
  · rename_i heq
    apply node?_of_notMem
    rw [names_release, List.mem_filter]
    simp [heq]
  · rename_i hne
    rw [node?, node?, release, List.find?_filter]
    congr 2
    funext slot
    by_cases heq : slot.name = other <;> simp_all

/-! ## Well-formed registries -/

/-- No name is reserved twice, and every node stands under its own name. -/
structure WellFormed (r : Registry) : Prop where
  nodup : r.names.Nodup
  named : ∀ name node, r.node? name = some node → node.name = name

section

variable {r : Registry}

theorem WellFormed.reserve (h : r.WellFormed) (name : String) : (r.reserve name).WellFormed := by
  refine ⟨?_, fun other node hnode => h.named other node (by rwa [node?_reserve] at hnode)⟩
  rw [names_reserve]
  split
  · exact h.nodup
  · rename_i hnew
    rw [List.nodup_append]
    refine ⟨h.nodup, by simp, ?_⟩
    rintro a ha b hb rfl
    exact hnew (by simpa [List.mem_singleton.mp hb] using ha)

theorem WellFormed.declare (h : r.WellFormed) (node : Declaration) : (r.declare node).WellFormed := by
  refine ⟨?_, fun name other hother => ?_⟩
  · rw [names_declare]
    exact (h.reserve node.name).nodup
  · rw [node?_declare] at hother
    split at hother
    · cases hother
      simp_all
    · exact h.named name other hother

theorem WellFormed.cut (h : r.WellFormed) (n : Nat) : (r.cut n).WellFormed := by
  refine ⟨?_, fun name node hnode => h.named name node ?_⟩
  · rw [names_cut]
    exact h.nodup.sublist (List.take_sublist _ _)
  · rw [← node?_cut (mem_names_of_node? hnode)]
    exact hnode

theorem WellFormed.release (h : r.WellFormed) (name : String) : (r.release name).WellFormed := by
  refine ⟨?_, fun other node hnode => ?_⟩
  · rw [names_release]
    exact h.nodup.sublist List.filter_sublist
  · rw [node?_release] at hnode
    split at hnode
    · cases hnode
    · exact h.named other node hnode

/-! ## The nodes of a registry -/

theorem find?_slots {slots : List Slot} (h : (slots.map (·.name)).Nodup) {slot : Slot}
    (hslot : slot ∈ slots) : slots.find? (·.name = slot.name) = some slot := by
  induction slots with
  | nil => exact absurd hslot List.not_mem_nil
  | cons head rest ih =>
    rw [List.map_cons, List.nodup_cons] at h
    rcases List.mem_cons.mp hslot with rfl | hrest
    · rw [List.find?_cons_of_pos (by simp)]
    · have hne : head.name ≠ slot.name := by
        intro heq
        exact h.1 (List.mem_map.mpr ⟨slot, hrest, heq.symm⟩)
      rw [List.find?_cons_of_neg (by simpa using hne)]
      exact ih h.2 hrest

theorem mem_nodes_iff (h : r.WellFormed) {node : Declaration} :
    node ∈ r.nodes ↔ r.node? node.name = some node := by
  constructor
  · intro hmem
    obtain ⟨slot, hslot, hnode⟩ := List.mem_filterMap.mp hmem
    have hlookup : r.node? slot.name = some node := by
      rw [node?, find?_slots h.nodup hslot]
      exact hnode
    rw [h.named _ _ hlookup]
    exact hlookup
  · intro hlookup
    obtain ⟨slot, hslot, hnode⟩ := Option.bind_eq_some_iff.mp hlookup
    exact List.mem_filterMap.mpr ⟨slot, List.mem_of_find?_eq_some hslot, hnode⟩

/-- The names of the nodes are names of the registry, in the same order. -/
theorem names_nodes_sublist (h : r.WellFormed) : (r.nodes.map (·.name)).Sublist r.names := by
  have hnamed : ∀ slot ∈ r.slots, ∀ node, slot.node? = some node → node.name = slot.name := by
    intro slot hslot node hnode
    refine h.named slot.name node ?_
    rw [node?, find?_slots h.nodup hslot]
    exact hnode
  unfold nodes names
  generalize r.slots = slots at hnamed
  induction slots with
  | nil => exact .slnil
  | cons slot rest ih =>
    rw [List.forall_mem_cons] at hnamed
    rw [List.filterMap_cons, List.map_cons]
    cases hnode : slot.node? with
    | none => exact (ih hnamed.2).cons _
    | some node =>
      rw [List.map_cons, hnamed.1 node hnode]
      exact (ih hnamed.2).cons_cons _

/-- The tree of the nodes knows a type by its name in the registry. -/
theorem hasType_nodes (h : r.WellFormed) {file : String} {bitness : Int} {name : String}
    {node : Declaration} (hnode : r.node? name = some node) (htype : node.kind.isType = true) :
    Tree.hasType (⟨file, bitness, r.nodes⟩ : Declarations) name = true := by
  obtain rfl := h.named name node hnode
  have hmem := (mem_nodes_iff h).mpr hnode
  unfold Tree.hasType Tree.node?
  cases hfound : r.nodes.find? (fun other => other.name = node.name) with
  | none =>
    rw [List.find?_eq_none] at hfound
    exact absurd (hfound node hmem) (by simp)
  | some other =>
    have hname : other.name = node.name := by simpa using List.find?_some hfound
    have hother := (mem_nodes_iff h).mp (List.mem_of_find?_eq_some hfound)
    rw [hname, hnode] at hother
    cases hother
    exact htype

end

end CInterop.Extraction.Registry
