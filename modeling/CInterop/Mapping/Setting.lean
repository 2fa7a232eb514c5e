import CInterop.Header.Tree
import CInterop.Mapping.Outcome
import CInterop.Policy

/-!
# What a mapping depends on

The tree, the policy and the pointer width that both agree on, with the two questions that every rule
asks the tree: which node a name stands for, and how large a type is.
-/

namespace CInterop.Mapping

open Header

/-- Everything the result for a type or a declaration depends on. -/
structure Setting where
  tree : Declarations
  policy : Policy

namespace Setting

/-- The pointer width in bits: that of the policy, or else of the tree. -/
def bitness (s : Setting) : Int := s.policy.bitness.getD s.tree.bitness

/-- The size of a pointer in bytes. -/
def pointerSize (s : Setting) : Int := s.bitness / 8

/-- The node of that name. -/
def node (s : Setting) (name : String) : Except Stop Declaration :=
  match s.tree.node? name with
  | some node => .ok node
  | none => .error (.dangling name)

/-- The number of links after which a typedef is not followed any more. -/
def linkLimit : Nat := 64

/-- The size of a type, where `links` typedefs and enumerations were followed already. -/
def sizeWithin (s : Setting) : Nat → Nat → String → Except Stop Int
  | 0, _, _ => .error (.failed (.fault .endlessTypes))
  | steps + 1, links, name => do
    let node ← s.node name
    match node.body with
    | .typedef underlying =>
      if links < linkLimit then s.sizeWithin steps (links + 1) underlying else return 0
    | .enumeration integerType _ => s.sizeWithin steps (links + 1) integerType
    | body => return body.statedSize

/-- The size of a type in bytes, through typedefs and the integer types of enumerations. -/
def sizeOf (s : Setting) (name : String) : Except Stop Int :=
  s.sizeWithin (linkLimit + s.tree.nodes.length + 1) 0 name

end Setting
end CInterop.Mapping
