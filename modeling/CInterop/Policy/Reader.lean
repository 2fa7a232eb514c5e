import CInterop.Json.Parser
import CInterop.Policy

/-!
# Reading a policy

A configuration is an object with four optional members. Names in it may be any values; they are
taken by the text they are shown as.
-/

namespace CInterop.Policy

/-- The items of an optional list in a configuration. -/
def listMember (data : Json) (key : String) : Except Json.Misfit (List Json) :=
  match data.get? key with
  | none => .ok []
  | some v => v.elements

def aliasOfJson (v : Json) : Except Json.Misfit Alias := do
  return ⟨(← v.member "from").display, (← v.member "to").display⟩

/-- The class name of a configuration: an absent or empty one is refused by name, anything else has
to be text. -/
def classNameOfJson (v : Option Json) : Except Failure String :=
  match v with
  | none => .ok ""
  | some (.str text) => .ok text
  | some v =>
    if v.isEmptyValue then .error (.invalid (.className v.display))
    else .error (.fault .classNameNotAText)

/-- The pointer width of a configuration. -/
def bitnessOfJson (v : Option Json) : Except Invalid (Option Int) :=
  match v with
  | none | some .null => .ok none
  | some v =>
    if v.sameName (.int 32) then .ok (some 32)
    else if v.sameName (.int 64) then .ok (some 64)
    else .error (.bitness v.display)

/-- The policy a configuration describes. A class name or a pointer width that is given beside it
takes precedence over its own. -/
def ofJson (data : Json) (className : Option String) (bitness : Option Int) :
    Except Failure Policy := do
  match data with
  | .obj _ =>
    let shape {α : Type} (x : Except Json.Misfit α) : Except Failure α :=
      x.mapError fun misfit => .invalid (.configurationShape misfit)
    let aliases ← shape do (← listMember data "aliases").mapM aliasOfJson
    let ignored ← shape (listMember data "ignoredTypeNames")
    let name ← match className with
      | some name => pure name
      | none => classNameOfJson (data.get? "className")
    let policy ← (make name aliases (ignored.map (·.display)) none).mapError .invalid
    let width ← match bitness with
      | some n => if isBitness n then pure (some n) else throw (.invalid (.bitness (toString n)))
      | none => (bitnessOfJson (data.get? "bitness")).mapError .invalid
    return { policy with bitness := width }
  | _ => throw (.fault .configurationNotAnObject)

/-- The policy in the text of a configuration file. -/
def read (path text : String) (className : Option String) (bitness : Option Int) :
    Except Failure Policy :=
  match Json.parse text with
  | .error error =>
    if error.fault = .tooManyDigits then .error (.fault .integerTooLong)
    else .error (.invalid (.configurationText path error))
  | .ok data => ofJson data className bitness

end CInterop.Policy
