import CInterop.Header.Node
import CInterop.Failure

/-!
# The tree of a header

An ordered collection of nodes under distinct names, with the file it describes and the width of its
pointers in bits.
-/

namespace CInterop.Header

variable {τ ι β : Type}

/-- The declarations of one header, in order. -/
structure Tree (τ ι β : Type) where
  file : τ
  bitness : ι
  nodes : List (Node τ ι β)
deriving DecidableEq, Repr

/-- A place in a file, as text and number. -/
abbrev Place := Location String Int

/-- A node of texts, integers and truth values. -/
abbrev Declaration := Node String Int Bool

/-- A tree of such nodes. -/
abbrev Declarations := Tree String Int Bool

/-- The place as it is shown: the file, then the line. -/
def Place.text (p : Place) : String := s!"{p.file}:{p.line}"

/-- The place of a node as it is shown; a node without one shows nothing. -/
def Node.place (n : Declaration) : String := n.location.elim "" Place.text

namespace Tree

/-- The node of that name. -/
def node? [DecidableEq τ] (t : Tree τ ι β) (name : τ) : Option (Node τ ι β) :=
  t.nodes.find? fun n => n.name = name

/-- The names of the nodes, in order. -/
def names (t : Tree τ ι β) : List τ := t.nodes.map (·.name)

/-- The nodes of one kind, in order. -/
def ofKind (t : Tree τ ι β) (kind : Kind) : List (Node τ ι β) :=
  t.nodes.filter fun n => n.kind = kind

/-- Whether the name is that of a type. -/
def hasType [DecidableEq τ] (t : Tree τ ι β) (name : τ) : Bool :=
  (t.node? name).any fun n => n.kind.isType

/-- Every reference to something that is no type of the tree, with the node that makes it. -/
def danglingReferences [DecidableEq τ] (t : Tree τ ι β) : List (τ × τ) :=
  t.nodes.flatMap fun n =>
    (n.body.references.filter fun name => !t.hasType name).map fun name => (n.name, name)

end Tree

theorem node?_name [DecidableEq τ] {t : Tree τ ι β} {name : τ} {node : Node τ ι β}
    (h : t.node? name = some node) : node.name = name := by
  have hname := List.find?_some h
  exact of_decide_eq_true hname

theorem node?_mem [DecidableEq τ] {t : Tree τ ι β} {name : τ} {node : Node τ ι β}
    (h : t.node? name = some node) : node ∈ t.nodes :=
  List.mem_of_find?_eq_some h

/-! ## Resolving typedefs -/

namespace Body

/-- The size a body states; what states none counts as empty. -/
def statedSize : Body String Int Bool → Int
  | primitive size _ | pointer _ size | array _ _ size | functionPointer _ _ size
  | record _ _ size _ => size
  | _ => 0

end Body

namespace Tree

/-- Follows typedefs from `name` until something else, where `seen` are the typedefs on the way. Each
step meets a typedef of the tree for the first time, so `n` steps suffice for `n` nodes. -/
def follow (t : Declarations) (start : String) :
    Nat → List String → String → Except Invalid Declaration
  | steps, seen, name =>
    match t.node? name with
    | none => .error (.unknownType start)
    | some node =>
      match node.body with
      | .typedef underlying =>
        if seen.contains node.name then .error (.typedefCycle node.name)
        else match steps with
          | 0 => .error (.typedefCycle node.name)
          | steps + 1 => follow t start steps (node.name :: seen) underlying
      | _ => .ok node

/-- The node a name stands for after all typedefs are resolved. -/
def resolveTypedef (t : Declarations) (name : String) : Except Invalid Declaration :=
  t.follow name (t.nodes.length + 1) [] name

/-- The size of the type of that name, where enumerations are as large as their integer type. The
steps bound the number of enumerations on the way. -/
def sizeWithin (t : Declarations) : Nat → String → Except Failure Int
  | 0, _ => .error (.fault .endlessTypes)
  | steps + 1, name => do
    let node ← (t.resolveTypedef name).mapError .invalid
    match node.body with
    | .enumeration integerType _ => t.sizeWithin steps integerType
    | body => return body.statedSize

/-- The size of the type of that name in bytes. -/
def sizeOf (t : Declarations) (name : String) : Except Failure Int :=
  t.sizeWithin (t.nodes.length + 1) name

end Tree
end CInterop.Header
