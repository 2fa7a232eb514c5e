import CInterop.Binding.Naming
import CInterop.Mapping.Primitive

/-!
# How a type is spelled where it is used

The spelling depends on the place: in a field a type keeps its size, so that arrays become buffers,
while a value that is passed or returned decays as in C. Ignored types leave a placeholder of the
same size behind, and an alias puts its target in the place of a type.
-/

namespace CInterop.Mapping

open Binding (TypeUse IntegerType escape fixedBufferName?)
open Header

/-- Where a type is used. -/
inductive Position where
  | value
  | field
deriving DecidableEq, Repr

/-- The element types C# accepts in a fixed buffer. -/
def bufferTypes : List String :=
  ["bool", "byte", "sbyte", "char", "short", "ushort", "int", "uint", "long", "ulong", "float",
    "double"]

/-- The use of a type that has the size of a pointer. -/
def pointerUse (s : Setting) (name : String) : TypeUse := ⟨name, s.pointerSize, s.pointerSize, none⟩

/-- What stands for an ignored type: its bytes in a field, a pointer elsewhere. -/
def placeholder (s : Setting) (name : String) (position : Position) : Outcome TypeUse := do
  Outcome.emit (.reportOnce name ⟨.ignoredTypeUsed name "is in the ignored type names", none⟩)
  let size ← Outcome.ofExcept (s.sizeOf name)
  return if position = .field && 0 < size then ⟨"byte", size, 1, some size⟩
    else pointerUse s "IntPtr"

/-- The helper for an array that no fixed buffer can hold. -/
def arrayHelper (array : String) (element : TypeUse) (count size : Int) : Outcome String := do
  let label := match element.count with
    | some inner => element.name ++ toString inner
    | none => element.name
  match fixedBufferName? label count with
  | none => Outcome.stop (.failed (.fault .countTooLarge))
  | some name =>
    Outcome.emit (.helper
      ⟨name, .fixedBuffer element count size, "FixedBuffer @ " ++ array, some array⟩)
    return name

section

/- The rules for one node, where `use` gives the uses of the types it refers to. -/
variable (use : String → Position → Outcome TypeUse) (s : Setting)

/-- The size of the integer type of a mapped enumeration: the smallest that holds its values. -/
def backing (integerType : String) (values : List (Enumerator String Int)) : Outcome TypeUse :=
  if values.isEmpty then use integerType .value
  else
    let type := IntegerType.narrowest (values.map (·.value))
    pure ⟨type.name, type.size, type.size, none⟩

/-- The element of an array. An enumeration that would be narrower in C# is replaced by its C integer
type, so that the elements keep their distance. -/
def elementUse (name : String) : Outcome TypeUse := do
  let element ← use name .field
  let node ← Outcome.ofExcept (s.node name)
  match node.body with
  | .enumeration integerType values =>
    if element.name = escape node.name then
      let narrow ← backing use integerType values
      if narrow.size ≠ element.size then use integerType .field else return element
    else return element
  | _ => return element

/-- The use of a primitive type, a pointer or an array; nothing for other nodes. -/
def structural? (node : Declaration) (position : Position) : Option (Outcome TypeUse) :=
  match node.body with
  | .primitive size align => some (
      if s.policy.ignores node.name then placeholder s node.name position
      else match s.policy.aliasFor? node.name with
        | some target => pure ⟨target, size, align, none⟩
        | none => primitive s node.name size align)
  | .pointer pointee _ => some (
      if s.policy.ignores pointee then do
        let _ ← placeholder s pointee .value
        return pointerUse s "void*"
      else do
        let target ← Outcome.ofExcept (s.node pointee)
        let inner ← use pointee (if target.kind = .array then .field else .value)
        return pointerUse s (inner.name ++ "*"))
  | .array element count size => some do
      let inner ← elementUse use s element
      match position with
      | .value => return pointerUse s (inner.name ++ "*")
      | .field =>
        if bufferTypes.contains inner.name && !inner.isFixedBuffer then
          return ⟨inner.name, size, inner.align, some count⟩
        else
          let helper ← arrayHelper node.name inner count size
          return ⟨helper, size, inner.align, none⟩
  | _ => none

/-- The use of a type that has a name of its own. -/
def named (node : Declaration) (position : Position) : Outcome TypeUse :=
  match node.body with
  | .typedef underlying => do
    let inner ← use underlying position
    if inner.name = "void" then return inner
    else return ⟨escape node.name, inner.size, inner.align, none⟩
  | .record _ _ size align => pure ⟨escape node.name, size, align, none⟩
  | .enumeration .. => do
    let size ← Outcome.ofExcept (s.sizeOf node.name)
    return ⟨escape node.name, size, size, none⟩
  | .functionPointer .. => pure (pointerUse s (escape node.name))
  | .incomplete => pure ⟨escape node.name, 0, 0, none⟩
  | _ => Outcome.stop (.dangling node.name)

/-- The use of the type of a node. -/
def nodeUse (node : Declaration) (position : Position) : Outcome TypeUse :=
  match structural? use s node position with
  | some outcome => outcome
  | none =>
    if s.policy.ignores node.name then placeholder s node.name position
    else match s.policy.aliasFor? node.name with
      | some target => do
        let size ← Outcome.ofExcept (s.sizeOf node.name)
        return ⟨target, size, 0, none⟩
      | none => named use s node position

end

/-- The use of the type of that name, through at most the given number of references. -/
def useWithin (s : Setting) : Nat → String → Position → Outcome TypeUse
  | 0, _, _ => Outcome.stop (.failed (.fault .endlessTypes))
  | steps + 1, name, position => do
    let node ← Outcome.ofExcept (s.node name)
    nodeUse (useWithin s steps) s node position

/-- The use of the type of that name. Without a cycle no more references than nodes are followed. -/
def typeUse (s : Setting) (name : String) (position : Position) : Outcome TypeUse :=
  useWithin s (s.tree.nodes.length + 1) name position

end CInterop.Mapping
