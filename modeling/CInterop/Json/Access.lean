import CInterop.Json.Display

/-!
# Taking values apart

A document or a configuration is read by asking values for members and elements. What is missing is
told by the first question a value has no answer to.
-/

namespace CInterop.Json

/-- Why a value cannot be read as what it should be. -/
inductive Misfit where
  | missingMember (key : String)
  /-- A member of something that has none. -/
  | noMembers (kind : String)
  /-- A member of a text. -/
  | memberOfText
  /-- A member of an array. -/
  | memberOfArray
  | notIterable (kind : String)
  /-- A name that cannot serve as one. -/
  | notAName (kind : String)
deriving DecidableEq, Repr

/-- The wording of a misfit. -/
def Misfit.message : Misfit → String
  | missingMember key => Text.quoted key
  | noMembers kind => s!"'{kind}' object is not subscriptable"
  | memberOfText => "string indices must be integers, not 'str'"
  | memberOfArray => "list indices must be integers or slices, not str"
  | notIterable kind => s!"'{kind}' object is not iterable"
  | notAName kind => s!"unhashable type: '{kind}'"

/-- The member of that name. -/
def member (v : Json) (key : String) : Except Misfit Json :=
  match v with
  | obj members => match lookup key members with
    | some item => .ok item
    | none => .error (.missingMember key)
  | str _ => .error .memberOfText
  | arr _ => .error .memberOfArray
  | v => .error (.noMembers v.kindName)

/-- The elements of a value: the items of an array, the keys of an object, the characters of a
text. -/
def elements : Json → Except Misfit (List Json)
  | arr items => .ok items
  | obj members => .ok (members.map fun m => str m.1)
  | str text => .ok (text.toList.map fun c => str (String.ofList [c]))
  | v => .error (.notIterable v.kindName)

/-- The value itself, if it can serve as a name. -/
def asName : Json → Except Misfit Json
  | arr items => .error (.notAName (arr items).kindName)
  | obj members => .error (.notAName (obj members).kindName)
  | v => .ok v

end CInterop.Json
