import CInterop.Header.Tree

/-!
# The registry of names

While a header is extracted, a name is first reserved and later declared by a node. The registry keeps
the names in the order in which they were reserved, each with its node as soon as there is one. A
failed declaration is undone by cutting the registry back to the length it had before.
-/

namespace CInterop.Extraction

open Header

/-- A reserved name with its node, once it is declared. -/
structure Slot where
  name : String
  node? : Option Declaration := none
deriving DecidableEq, Repr

/-- The reserved names in order. -/
structure Registry where
  slots : List Slot := []
deriving DecidableEq, Repr

namespace Registry

/-- The reserved names in order. -/
def names (r : Registry) : List String := r.slots.map (·.name)

/-- The number of reserved names. -/
def size (r : Registry) : Nat := r.slots.length

/-- Whether the name is reserved. -/
def has (r : Registry) (name : String) : Bool := r.slots.any (·.name = name)

/-- The node that declares the name. -/
def node? (r : Registry) (name : String) : Option Declaration :=
  (r.slots.find? (·.name = name)).bind (·.node?)

/-- Reserves a name that is not reserved yet. -/
def reserve (r : Registry) (name : String) : Registry :=
  if r.has name then r else ⟨r.slots ++ [⟨name, none⟩]⟩

/-- Declares a name, which is reserved if necessary. -/
def declare (r : Registry) (node : Declaration) : Registry :=
  ⟨(r.reserve node.name).slots.map fun slot =>
    if slot.name = node.name then { slot with node? := some node } else slot⟩

/-- The registry without the names after the first `n`. -/
def cut (r : Registry) (n : Nat) : Registry := ⟨r.slots.take n⟩

/-- The registry without a name. -/
def release (r : Registry) (name : String) : Registry := ⟨r.slots.filter (·.name ≠ name)⟩

/-- The nodes of the declared names in order. -/
def nodes (r : Registry) : List Declaration := r.slots.filterMap (·.node?)

/-! ## The names after each operation -/

theorem has_iff_mem {r : Registry} {name : String} : r.has name = true ↔ name ∈ r.names := by
  simp [has, names]

theorem names_reserve (r : Registry) (name : String) :
    (r.reserve name).names = if name ∈ r.names then r.names else r.names ++ [name] := by
  unfold reserve
  by_cases h : name ∈ r.names
  · rw [if_pos h, if_pos (has_iff_mem.2 h)]
  · rw [if_neg h, if_neg (mt has_iff_mem.1 h)]
    simp [names]

theorem names_declare (r : Registry) (node : Declaration) :
    (r.declare node).names = (r.reserve node.name).names := by
  simp only [declare, names, List.map_map]
  congr 1
  funext slot
  simp only [Function.comp]
  split <;> rfl

theorem names_cut (r : Registry) (n : Nat) : (r.cut n).names = r.names.take n := by
  simp [cut, names, List.map_take]

theorem names_release (r : Registry) (name : String) :
    (r.release name).names = r.names.filter (· ≠ name) := by
  simp only [release, names, List.filter_map]
  rfl

end Registry
end CInterop.Extraction
