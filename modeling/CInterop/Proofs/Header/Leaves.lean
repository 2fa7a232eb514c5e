import CInterop.Header.Tree

/-!
# The leaves of a tree

Replacing every leaf of a node loses nothing if the replacement of every leaf can be undone. The integers
of a tree are listed in the order in which its document has them.
-/

namespace CInterop.Header

/-- What is read back one by one is read back as a list. -/
theorem mapM_map_pure {m : Type → Type} [Monad m] [LawfulMonad m] {α β : Type} {write : α → β}
    {read : β → m α} (h : ∀ a, read (write a) = pure a) (as : List α) :
    (as.map write).mapM read = pure as := by
  induction as with
  | nil => rfl
  | cons a as ih =>
    rw [List.map_cons, List.mapM_cons, h, ih, pure_bind, pure_bind]

/-! ## Leaves put in and taken out again -/

section

variable {τ ι β τ' ι' β' : Type} {f : τ → τ'} {g : ι → ι'} {h : β → β'} {f' : τ' → Option τ}
  {g' : ι' → Option ι} {h' : β' → Option β} (hf : ∀ a, f' (f a) = some a)
  (hg : ∀ a, g' (g a) = some a) (hh : ∀ a, h' (h a) = some a)

include hf

theorem Parameter.mapM?_map (p : Parameter τ) : (p.map f).mapM? f' = some p := by
  simp [Parameter.map, Parameter.mapM?, hf]

include hg

theorem Location.mapAbsentM?_map (l : Option (Location τ ι)) :
    Location.mapAbsentM? f' g' (l.map (·.map f g)) = some l := by
  cases l <;> simp [Location.mapAbsentM?, Location.mapM?, Location.map, hf, hg]

theorem Field.mapM?_map (x : Field τ ι) : (x.map f g).mapM? f' g' = some x := by
  simp [Field.map, Field.mapM?, hf, hg]

theorem Enumerator.mapM?_map (v : Enumerator τ ι) : (v.map f g).mapM? f' g' = some v := by
  simp [Enumerator.map, Enumerator.mapM?, Location.mapAbsentM?_map hf hg, hf, hg]

include hh

theorem Body.mapM?_map (b : Body τ ι β) : (b.map f g h).mapM? f' g' h' = some b := by
  have hparameters := fun ps => mapM_map_pure (Parameter.mapM?_map hf) ps
  have hfields := fun xs => mapM_map_pure (Field.mapM?_map hf hg) xs
  have hvalues := fun vs => mapM_map_pure (Enumerator.mapM?_map hf hg) vs
  cases b <;> simp [Body.map, Body.mapM?, hf, hg, hh, hparameters, hfields, hvalues]

theorem Node.mapM?_map (n : Node τ ι β) : (n.map f g h).mapM? f' g' h' = some n := by
  simp [Node.map, Node.mapM?, Body.mapM?_map hf hg hh, Location.mapAbsentM?_map hf hg, hf]

end

/-! ## The integers of a tree -/

section

variable {τ ι β : Type}

/-- The line of a place, if there is one. -/
def Location.lines (l : Option (Location τ ι)) : List ι := (l.map (·.line)).toList

/-- The integers of a body in the order of the document. -/
def Body.integers : Body τ ι β → List ι
  | primitive size align => [size, align]
  | pointer _ size => [size]
  | array _ count size => [count, size]
  | functionPointer _ _ size => [size]
  | record _ fields size align => fields.flatMap (fun x => [x.offset, x.size]) ++ [size, align]
  | enumeration _ values => values.flatMap fun v => v.value :: Location.lines v.location
  | enumerator value => [value]
  | incomplete | typedef _ | function .. | global _ | constant .. => []

/-- The integers of a node in the order of the document. -/
def Node.integers (n : Node τ ι β) : List ι := n.body.integers ++ Location.lines n.location

/-- The integers of a tree in the order of the document. -/
def Tree.integers (t : Tree τ ι β) : List ι := t.bitness :: t.nodes.flatMap Node.integers

end

end CInterop.Header
