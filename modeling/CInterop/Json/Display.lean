import CInterop.Json.Basic
import CInterop.Number.Shortest
import CInterop.Text.Quoted

/-!
# Values inside messages

How a JSON value is shown where a message, or a setting that has to be text, names it: text stands
as itself at the outside and quoted inside arrays and objects, and the three words are capitalised.
-/

namespace CInterop.Json

mutual

/-- The value as it is shown inside an array or an object. -/
def inner : Json → String
  | null => "None"
  | bool true => "True"
  | bool false => "False"
  | int n => toString n
  | real x => String.ofList (x.text "inf" "nan")
  | str text => Text.quoted text
  | arr [] => "[]"
  | arr (item :: rest) => "[" ++ inner item ++ innerItems rest ++ "]"
  | obj [] => "\x7b\x7d"
  | obj ((key, item) :: rest) =>
    "\x7b" ++ Text.quoted key ++ ": " ++ inner item ++ innerMembers rest ++ "\x7d"

/-- The items after the first. -/
def innerItems : List Json → String
  | [] => ""
  | item :: rest => ", " ++ inner item ++ innerItems rest

/-- The members after the first. -/
def innerMembers : List (String × Json) → String
  | [] => ""
  | (key, item) :: rest => ", " ++ Text.quoted key ++ ": " ++ inner item ++ innerMembers rest

end

/-- The value as it is shown on its own. -/
def display : Json → String
  | str text => text
  | v => inner v

/-- The name of a value's kind, as messages about unsuitable values give it. -/
def kindName : Json → String
  | null => "NoneType"
  | bool _ => "bool"
  | int _ => "int"
  | real _ => "float"
  | str _ => "str"
  | arr _ => "list"
  | obj _ => "dict"

/-- Whether a value counts as absent where only presence matters: the empty values do. -/
def isEmptyValue : Json → Bool
  | null => true
  | bool b => !b
  | int n => n == 0
  | real x => x.isFinite && x.significand == 0
  | str text => text == ""
  | arr items => items.isEmpty
  | obj members => members.isEmpty

/-- Whether two values are the same as names. Numbers are compared by value, a truth value counts as
zero or one, and arrays and objects are no names. -/
def sameName : Json → Json → Bool
  | null, null => true
  | str a, str b => a == b
  | real a, real b => a.sameValue b
  | a, b => match asNumber a, asNumber b with
    | some m, some n => m == n
    | _, _ => false
where
  asNumber : Json → Option Int
    | bool b => some (if b then 1 else 0)
    | int n => some n
    | real x => x.toInt?
    | _ => none

end CInterop.Json
