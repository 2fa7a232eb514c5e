import CInterop.Header.Tree
import CInterop.Json.Printer

/-!
# Writing a document

Every node is written as an object that starts with its kind and name and ends with its place. Equal
trees have equal texts.
-/

namespace CInterop.Document

open Header Json

def ofLocation : Option (Location Json Json) → Json
  | none => .null
  | some l => .obj [("filePath", l.file), ("line", l.line)]

def ofParameters (parameters : List (Parameter Json)) : Json :=
  .arr (parameters.map fun p => .obj [("name", p.name), ("type", p.type)])

def ofField (x : Field Json Json) : Json :=
  .obj [("name", x.name), ("type", x.type), ("offset", x.offset), ("sizeOf", x.size)]

/-- An object for a node of the given kind, with the members that are its own. -/
def ofParts (kind : Kind) (name : Json) (own : List (String × Json))
    (location : Option (Location Json Json)) : Json :=
  .obj ([("kind", .str kind.name), ("name", name)] ++ own ++ [("location", ofLocation location)])

def ofEnumerator (v : Enumerator Json Json) : Json :=
  ofParts .enumerator v.name [("value", v.value)] v.location

/-- The members that are particular to a body. -/
def ownMembers : Body Json Json Json → List (String × Json)
  | .primitive size align => [("sizeOf", size), ("alignOf", align)]
  | .pointer pointee size => [("pointeeType", pointee), ("sizeOf", size)]
  | .array element count size =>
    [("elementType", element), ("elementCount", count), ("sizeOf", size)]
  | .functionPointer result parameters size =>
    [("returnType", result), ("parameters", ofParameters parameters), ("sizeOf", size)]
  | .record isUnion fields size align =>
    [("isUnion", isUnion), ("fields", .arr (fields.map ofField)), ("sizeOf", size),
      ("alignOf", align)]
  | .enumeration integerType values =>
    [("integerType", integerType), ("values", .arr (values.map ofEnumerator))]
  | .enumerator value => [("value", value)]
  | .incomplete => []
  | .typedef underlying => [("underlyingType", underlying)]
  | .function result parameters isVariadic convention =>
    [("returnType", result), ("parameters", ofParameters parameters), ("isVariadic", isVariadic),
      ("callingConvention", convention)]
  | .global type => [("type", type)]
  | .constant type value => [("type", type), ("value", value)]

def ofNode (n : Node Json Json Json) : Json :=
  ofParts n.kind n.name (ownMembers n.body) n.location

/-- The document value of a tree. -/
def ofTree (t : Tree Json Json Json) : Json :=
  .obj [("kind", .str Kind.translationUnit.name), ("fileName", t.file), ("bitness", t.bitness),
    ("nodes", .arr (t.nodes.map ofNode))]

/-- The text of a tree whose leaves are document values. -/
def writeRaw (t : Tree Json Json Json) : String := (ofTree t).toText

/-- The tree with its leaves as document values. -/
def raw (t : Declarations) : Tree Json Json Json :=
  ⟨.str t.file, .int t.bitness, t.nodes.map (·.map .str .int .bool)⟩

/-- The text of a tree. -/
def write (t : Declarations) : String := writeRaw (raw t)

end CInterop.Document
