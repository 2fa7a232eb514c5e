import CInterop.Extraction.IgnoreRules
import CInterop.FrontEnd.Translation
import CInterop.Header.Tree

/-!
# What an extraction depends on

The answers of the C front end, the header they are about and the wishes of the user. Places are given
relative to the directory of the header where the file is below it, and absolute otherwise.
-/

namespace CInterop.Extraction

open FrontEnd Header

/-- Everything an extraction depends on. -/
structure Setting where
  translation : Translation
  /-- The absolute path of the header. -/
  header : String
  /-- Where relative paths start. -/
  directory : String
  /-- The pointer width in bits. -/
  bitness : Int
  /-- The arguments of the C front end. -/
  arguments : List String
  rules : IgnoreRules
  /-- Whether the first type that cannot be resolved ends the run. -/
  isStrict : Bool
  /-- Whether details are to be told. -/
  isVerbose : Bool

namespace Setting

def type (c : Setting) (r : TypeRef) : TypeInfo := c.translation.type r

def entity (c : Setting) (r : EntityRef) : Entity := c.translation.entity r

def canonical (c : Setting) (r : TypeRef) : TypeRef := c.translation.canonical r

/-- The size of a pointer in bytes. -/
def pointerSize (c : Setting) : Int := c.bitness / 8

/-- The directory of the header. -/
def base (c : Setting) : String := Path.parent c.header

/-- A path as it is stored: from the directory of the header, or absolute if that leads upwards. -/
def storedPath (c : Setting) (path : String) : String :=
  let absolute := Path.absolute c.directory path
  let way := Path.relative c.directory absolute c.base
  IgnoreRules.forwardSlashes (if "..".toList.isPrefixOf way.toList then absolute else way)

/-- The place of an entity as it is stored. -/
def place? (c : Setting) (e : Entity) : Option Place :=
  e.file.map fun file => ⟨c.storedPath file, e.line⟩

/-- A place as diagnostics of an extraction show it. -/
def shownPlace (place : Option Place) : String := place.elim "None" Place.text

/-- The place of an entity as diagnostics show it. -/
def placeText (c : Setting) (e : Entity) : String := shownPlace (c.place? e)

/-- Whether the entity is in a file that is to be ignored. -/
def ignores (c : Setting) (e : Entity) : Bool :=
  e.file.any fun file => c.rules.ignores c.directory (some file) (some c.base)

/-- Whether an entity at the top level takes a name beside the tags: functions, variables, macros and
typedefs do, unless the typedef gives a tag its own name. -/
def takesOrdinaryName (c : Setting) (e : Entity) : Bool :=
  e.file.isSome && match e.kind with
  | .function | .global | .constant => true
  | .typedef => (c.translation.tag? e.underlying).all fun tag => tag.spelling ≠ e.spelling
  | _ => false

/-- The names that functions, variables, macros and typedefs of the header share. Tags have names of
their own in C, which may be the same. -/
def ordinaryNames (c : Setting) : List String :=
  (c.translation.topLevel.filter c.takesOrdinaryName).map (·.spelling)

end Setting
end CInterop.Extraction
