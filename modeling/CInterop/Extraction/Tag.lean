import CInterop.Extraction.Build
import CInterop.Extraction.Naming

/-!
# Names of structs, unions and enumerations

A tag keeps its name unless a function, a variable, a macro or a typedef has the same. An anonymous tag
is named by the typedef or the field that it belongs to, or else by its place.
-/

namespace CInterop.Extraction

open FrontEnd

/-- Whether a tag has no name of its own. -/
def isAnonymous (e : Entity) : Bool := e.isAnonymous || !isName e.spelling

/-- A name with as few underscores after it as keep it apart from the names that are taken. No more of
them are necessary than there are names. -/
def freshName (taken : List String) : Nat → String → String
  | 0, name => name
  | steps + 1, name => if taken.contains name then freshName taken steps (name ++ "_") else name

namespace Build

/-- Names an anonymous tag unless it is named. -/
def nameTag (e : Entity) (name : String) : Build Unit :=
  modify fun s =>
    if (s.tagNames.lookup e.spot).isSome then s
    else { s with tagNames := (e.spot, name) :: s.tagNames }

/-- The name of a tag with a name of its own. -/
def ownTagName (c : Setting) (e : Entity) : Build String := do
  if !c.ordinaryNames.contains e.spelling then return e.spelling
  let keyword := e.kind.keyword
  match (← get).tagRenames.lookup (keyword, e.spelling) with
  | some renamed => return renamed
  | none =>
    let renamed := freshName c.ordinaryNames c.ordinaryNames.length s!"{keyword}_{e.spelling}"
    modify fun s => { s with tagRenames := ((keyword, e.spelling), renamed) :: s.tagRenames }
    report (.nameCollision s!"{keyword} {e.spelling}" renamed) (c.placeText e)
    return renamed

/-- The name of a tag. -/
def tagName (c : Setting) (e : Entity) : Build String := do
  match (← get).tagNames.lookup e.spot with
  | some name => return name
  | none =>
    if isAnonymous e then
      let name := s!"Anonymous_{e.kind.label}_{e.line}_{e.column}"
      nameTag e name
      return name
    else ownTagName c e

/-- Names the anonymous tags at the top level that a typedef gives a name to. -/
def nameTagsByTypedefs (c : Setting) : Build Unit :=
  c.translation.topLevel.forM fun e =>
    match e.kind with
    | .typedef =>
      match c.translation.tag? e.underlying with
      | some tag => if isAnonymous tag then nameTag tag e.spelling else pure ()
      | none => pure ()
    | _ => pure ()

end Build
end CInterop.Extraction
