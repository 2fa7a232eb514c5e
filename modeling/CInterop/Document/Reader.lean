import CInterop.Header.Tree
import CInterop.Json.Parser

/-!
# Reading a document

A document is read member by member in a fixed order, and the first thing that does not fit stops it.
Values are taken as they are: only the kinds of nodes, the width of pointers and the names of nodes are
checked.

What stops the reading is told in two places. A node tells a missing or unknown kind, and the document as
a whole tells what does not fit anywhere in it. Anything else would be a fault of the reader.
-/

namespace CInterop.Document

open Header Json

/-- A tree as it was read: its leaves are whatever values stood there. -/
abbrev RawTree := Tree Json Json Json

/-- A node as it was read. -/
abbrev RawNode := Node Json Json Json

/-- What stops the reading of a value. -/
inductive Stop where
  /-- A rule is broken, and told as such. -/
  | rule (cause : Invalid)
  /-- A missing member, or an access to a value that does not have it. -/
  | misfit (misfit : Misfit)
  /-- A value that names no kind of node. -/
  | noKind (shown : String)
  /-- An optional member of something that is no object. -/
  | noObject (kind : String)
deriving DecidableEq, Repr

abbrev Reading (α : Type) := Except Stop α

/-- The member of that name. -/
def member (v : Json) (key : String) : Reading Json := (v.member key).mapError .misfit

/-- The member of that name, which an object may lack. -/
def optional (v : Json) (key : String) : Reading (Option Json) :=
  match v with
  | .obj members => .ok (lookup key members)
  | v => .error (.noObject v.kindName)

/-- The elements of a value. -/
def elements (v : Json) : Reading (List Json) := v.elements.mapError .misfit

/-- The elements of a member. -/
def memberElements (v : Json) (key : String) : Reading (List Json) := do
  elements (← member v key)

/-- The place of a node; it may be absent. -/
def location (v : Json) : Reading (Option (Location Json Json)) := do
  match ← optional v "location" with
  | none | some .null => return none
  | some place => return some ⟨← member place "filePath", ← member place "line"⟩

def parameter (v : Json) : Reading (Parameter Json) := do
  return ⟨← member v "name", ← member v "type"⟩

def parameters (v : Json) : Reading (List (Parameter Json)) := do
  (← memberElements v "parameters").mapM parameter

def field (v : Json) : Reading (Field Json Json) := do
  return ⟨← member v "name", ← member v "type", ← member v "offset", ← member v "sizeOf"⟩

/-- The kind a value names. -/
def ofShown (shown : Json) : Reading Kind :=
  match shown with
  | .str text => (Kind.ofName? text).elim (.error (.noKind shown.inner)) .ok
  | _ => .error (.noKind shown.inner)

/-- The kind of a node. A missing kind and a value that names none are told alike. -/
def kind (v : Json) : Reading Kind :=
  match member v "kind" >>= ofShown with
  | .error (.misfit (.missingMember _)) | .error (.noKind _) => do
    let shown ← optional v "kind"
    .error (.rule (.nodeKind (shown.getD .null).inner))
  | outcome => outcome

/-- The body of a node of the given kind, apart from the members of an enumeration. -/
def plainBody (v : Json) : Kind → Reading (Body Json Json Json)
  | .primitive => do return .primitive (← member v "sizeOf") (← member v "alignOf")
  | .pointer => do return .pointer (← member v "pointeeType") (← member v "sizeOf")
  | .array => do
    return .array (← member v "elementType") (← member v "elementCount") (← member v "sizeOf")
  | .functionPointer => do
    return .functionPointer (← member v "returnType") (← parameters v) (← member v "sizeOf")
  | .record => do
    let fields ← (← memberElements v "fields").mapM field
    return .record (← member v "isUnion") fields (← member v "sizeOf") (← member v "alignOf")
  | .enumeration => do return .enumeration (← member v "integerType") []
  | .enumerator => do return .enumerator (← member v "value")
  | .incomplete => .ok .incomplete
  | .typedef => do return .typedef (← member v "underlyingType")
  | .function => do
    return .function (← member v "returnType") (← parameters v) (← member v "isVariadic")
      (← member v "callingConvention")
  | .global => do return .global (← member v "type")
  | .constant => do return .constant (← member v "type") (← member v "value")
  | .translationUnit => .error (.rule .nestedTranslationUnit)

mutual

/-- A node. -/
def node : Json → Reading RawNode
  | v@(.obj members) => do
    let kind ← kind v
    let name ← member v "name"
    let location ← location v
    match kind with
    | .enumeration =>
      let values ← enumeratorsAt name members
      return ⟨name, .enumeration (← member v "integerType") values, location⟩
    | kind => return ⟨name, ← plainBody v kind, location⟩
  | v => do
    let kind ← kind v
    let name ← member v "name"
    let location ← location v
    return ⟨name, ← plainBody v kind, location⟩

/-- The values of an enumeration, from the members of its node. -/
def enumeratorsAt (enumeration : Json) :
    List (String × Json) → Reading (List (Enumerator Json Json))
  | [] => .error (.misfit (.missingMember "values"))
  | (key, v) :: rest =>
    if key = "values" then
      match v with
      | .arr items => enumerators enumeration items
      | v => do
        let items ← elements v
        match items with
        | [] => return []
        -- a text, which has no members
        | item :: _ => (kind item).bind fun _ => .error (.misfit .memberOfText)
    else enumeratorsAt enumeration rest

/-- The values of an enumeration: each a node of the kind for them. -/
def enumerators (enumeration : Json) : List Json → Reading (List (Enumerator Json Json))
  | [] => .ok []
  | item :: rest => do
    let node ← node item
    match node.body with
    | .enumerator value =>
      let others ← enumerators enumeration rest
      return ⟨node.name, value, node.location⟩ :: others
    | _ => do
      let shown ← optional item "kind"
      .error (.rule (.notAnEnumerator enumeration.display (shown.getD .null).display))

end

/-- The pointer width, which has to be one of the two supported. -/
def checkBitness (v : Json) : Reading Unit :=
  if v.sameName (.int 32) || v.sameName (.int 64) then .ok () else .error (.rule (.bitness v.display))

/-- Every name has to be able to serve as one, and none may occur twice. -/
def checkNames (before : List Json) : List RawNode → Reading Unit
  | [] => .ok ()
  | n :: rest => do
    let name ← n.name.asName.mapError .misfit
    if before.any (·.sameName name) then .error (.rule (.duplicateNode name.display))
    else checkNames (name :: before) rest

/-- The tree an object describes. -/
def tree (v : Json) : Reading RawTree := do
  let nodes ← (← memberElements v "nodes").mapM node
  let file ← member v "fileName"
  let bitness ← member v "bitness"
  checkBitness bitness
  checkNames [] nodes
  return ⟨file, bitness, nodes⟩

/-- What does not fit in a document is told with the words for the document as a whole. -/
def Stop.tellMisfit : Stop → Stop
  | misfit found => rule (.documentShape found)
  | stop => stop

/-- The tree a document value describes. -/
def document : Json → Reading RawTree
  | v@(.obj members) =>
    match lookup "kind" members with
    | some (.str "translationUnit") => (tree v).mapError Stop.tellMisfit
    | _ => .error (.rule .notATranslationUnit)
  | _ => .error (.rule .notATranslationUnit)

/-- A stop ends the run with the rule that was broken. One that was not told as such is a fault. -/
def Stop.failure : Stop → Failure
  | rule cause => .invalid cause
  | misfit _ | noKind _ | noObject _ => .fault .illTyped

/-- The tree a document describes. -/
def read (text : String) : Except Failure RawTree :=
  match parse text with
  | .error error =>
    if error.fault = .tooManyDigits then .error (.fault .integerTooLong)
    else .error (.invalid (.documentText error))
  | .ok v => (document v).mapError Stop.failure

/-- The rule that a stop breaks, also where it was not told. -/
def Stop.cause : Stop → Invalid
  | rule cause => cause
  | misfit found => .documentShape found
  | noKind shown => .nodeKind shown
  | noObject kind => .documentShape (.noMembers kind)

/-- The tree a document value describes, or the rule it breaks. -/
def ofJson (v : Json) : Except Invalid RawTree := (document v).mapError Stop.cause

/-! ## Trees of texts and numbers

The rest of the library works on trees whose leaves are texts, integers and truth values. That is no rule
for documents: reading takes leaves of any type. -/

def text? : Json → Option String
  | .str text => some text
  | _ => none

def integer? : Json → Option Int
  | .int n => some n
  | _ => none

def flag? : Json → Option Bool
  | .bool b => some b
  | _ => none

/-- The tree as one of texts, integers and truth values, if its leaves are such. The file is only ever
shown, so that any value will do for it; one that counts as absent becomes the empty text. -/
def typed? (t : RawTree) : Option Declarations := do
  let nodes ← t.nodes.mapM (·.mapM? text? integer? flag?)
  let bitness ← integer? t.bitness
  return ⟨if t.file.isEmptyValue then "" else t.file.display, bitness, nodes⟩

/-- The tree as one of texts, integers and truth values, for those who have no use for any other. -/
def typed (t : RawTree) : Except Failure Declarations :=
  match typed? t with
  | some declarations => .ok declarations
  | none => .error (.fault .illTyped)

/-- Reads a document that is expected to have been written from a tree of texts, integers and truth
values. -/
def load (text : String) : Except Failure Declarations := (read text).bind typed

/-! ## Trees for making bindings -/

/-- The file of a place is only ever shown there. -/
def shownPlace (place : Location Json Json) : Location Json Json := ⟨.str place.file.display, place.line⟩

/-- The places of the values of an enumeration are not looked at, so that one without a line is none. -/
def shownValue (v : Enumerator Json Json) : Enumerator Json Json :=
  { v with location := (v.location.map shownPlace).filter fun place => (integer? place.line).isSome }

/-- Of a flag, only whether it counts as true is asked. -/
def shownFlag (flag : Json) : Json := .bool !flag.isEmptyValue

def shownBody : Body Json Json Json → Body Json Json Json
  | .record isUnion fields size align => .record (shownFlag isUnion) fields size align
  | .enumeration integerType values => .enumeration integerType (values.map shownValue)
  | .function result parameters isVariadic convention =>
    .function result parameters (shownFlag isVariadic) convention
  | body => body

def shownNode (n : RawNode) : RawNode := ⟨n.name, shownBody n.body, n.location.map shownPlace⟩

/-- The tree as the maker of bindings looks at it. -/
def shown (t : RawTree) : RawTree := { t with nodes := t.nodes.map shownNode }

/-- Any value will do for the file of a place and for a flag. -/
example :
    typed? (shown ⟨.str "x.h", .int 64, [⟨.str "o", .incomplete, some ⟨.int 3, .int 1⟩⟩,
      ⟨.str "u", .record (.int 1) [] (.int 0) (.int 1), none⟩]⟩) =
    some ⟨"x.h", 64, [⟨"o", .incomplete, some ⟨"3", 1⟩⟩, ⟨"u", .record true [] 0 1, none⟩]⟩ := by
  rfl

end CInterop.Document
