import CInterop.Diagnostic
import CInterop.FrontEnd.Entity

/-!
# What the C front end is asked and what it answers

The front end is asked to read the header and then, if there are macros to be typed, a second source
that declares one variable for each. Both answers speak about the same tables of types and entities.
-/

namespace CInterop.FrontEnd

/-- A request to read a source. -/
structure Request where
  path : String
  arguments : List String
  options : Nat
  /-- The text of a source that is not in a file. -/
  source : Option String
deriving DecidableEq, Repr

/-- The options of every request: macros are recorded, function bodies skipped, attributed types kept,
and what is not an error in an included file is passed over. -/
def requestOptions : Nat := 0x01 + 0x40 + 0x1000 + 0x4000

/-- A message of the front end. -/
structure Message where
  rank : Int := 0
  text : String := ""
  file : Option String := none
  line : Int := 0
  column : Int := 0
deriving DecidableEq, Repr

namespace Message

/-- The rank from which on a message is an error. -/
def errorRank : Int := 3

def isError (m : Message) : Bool := errorRank ≤ m.rank

/-- How grave the message is. -/
def severity (m : Message) : Severity :=
  if m.rank = 2 then .warning
  else if m.rank = 3 ∨ m.rank = 4 then .error
  else .info

/-- The message with its place in front. -/
def shown (m : Message) : String :=
  match m.file with
  | some file => s!"{file}:{m.line}:{m.column}: {m.text}"
  | none => m.text

end Message

/-- The answer to one request: the entities at the top level, in order, and the messages. -/
structure TranslationUnit where
  top : List EntityRef := []
  messages : List Message := []
  /-- Whether the front end could read the source at all. -/
  isReadable : Bool := true
deriving DecidableEq, Repr

/-- All answers. -/
structure Translation where
  types : Array TypeInfo := #[]
  entities : Array Entity := #[]
  header : TranslationUnit := {}
  /-- The answer for the source that types the macros. -/
  typing : TranslationUnit := {}
deriving DecidableEq, Repr

namespace Translation

/-- What is known about a type. -/
def type (t : Translation) (r : TypeRef) : TypeInfo := (r.index?.bind (t.types[·]?)).getD {}

/-- What is known about an entity. -/
def entity (t : Translation) (r : EntityRef) : Entity := (r.index?.bind (t.entities[·]?)).getD {}

/-- The type after all names are resolved. -/
def canonical (t : Translation) (r : TypeRef) : TypeRef :=
  if (t.type r).canonical.index?.isNone then r else (t.type r).canonical

/-- The type that an elaborated type stands for, after at most the given number of names. -/
def unwrapWithin (t : Translation) : Nat → TypeRef → TypeRef
  | 0, r => r
  | steps + 1, r =>
    if (t.type r).kind = .elaborated then t.unwrapWithin steps (t.type r).named else r

/-- The type that an elaborated type stands for. Without a cycle there are no more names than types. -/
def unwrap (t : Translation) (r : TypeRef) : TypeRef := t.unwrapWithin (t.types.size + 1) r

/-- The definition of what is declared, or the declaration if there is none. -/
def definitionOf (t : Translation) (r : EntityRef) : EntityRef :=
  if (t.entity r).definition.index?.isNone then r else (t.entity r).definition

/-- The tag that a type names directly. -/
def tag? (t : Translation) (r : TypeRef) : Option Entity :=
  let info := t.type (t.unwrap r)
  match info.kind with
  | .record | .enumeration => some (t.entity (t.definitionOf info.declaration))
  | _ => none

/-- The entities at the top level of the header. -/
def topLevel (t : Translation) : List Entity := t.header.top.map t.entity

end Translation
end CInterop.FrontEnd
