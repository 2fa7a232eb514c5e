import CInterop.Json.Basic
import CInterop.Number.Shortest

/-!
# Writing JSON

The written form puts every item and member on a line of its own, two blanks further in than what
holds it. Characters beyond ASCII stand as themselves; quotes, backslashes and control characters
are escaped.
-/

namespace CInterop.Json

/-- A small number as two hexadecimal digits. -/
def hexByte (n : Nat) : List Char := [Nat.digitChar (n / 16 % 16), Nat.digitChar (n % 16)]

/-- A character inside a written string. -/
def escapeChar (c : Char) : List Char :=
  match c with
  | '"' => ['\\', '"']
  | '\\' => ['\\', '\\']
  | '\n' => ['\\', 'n']
  | '\r' => ['\\', 'r']
  | '\t' => ['\\', 't']
  | '\x08' => ['\\', 'b']
  | '\x0c' => ['\\', 'f']
  | c => if c.toNat < 0x20 then ['\\', 'u', '0', '0'] ++ hexByte c.toNat else [c]

/-- A written string with its quotes. -/
def quote (text : String) : List Char :=
  '"' :: (text.toList.flatMap escapeChar ++ ['"'])

/-- A line break and the indentation of the given depth. -/
def newLine (depth : Nat) : List Char := '\n' :: List.replicate (2 * depth) ' '

mutual

/-- The written form of a value whose first line is already indented. -/
def render (depth : Nat) : Json → List Char
  | null => "null".toList
  | bool true => "true".toList
  | bool false => "false".toList
  | int n => (toString n).toList
  | real x => x.text "Infinity" "NaN"
  | str text => quote text
  | arr [] => "[]".toList
  | arr (item :: rest) =>
    '[' :: (newLine (depth + 1) ++ render (depth + 1) item ++ renderItems (depth + 1) rest
      ++ newLine depth ++ [']'])
  | obj [] => "{}".toList
  | obj ((key, item) :: rest) =>
    '{' :: (newLine (depth + 1) ++ quote key ++ [':', ' '] ++ render (depth + 1) item
      ++ renderMembers (depth + 1) rest ++ newLine depth ++ ['}'])

/-- The items after the first, each behind a comma. -/
def renderItems (depth : Nat) : List Json → List Char
  | [] => []
  | item :: rest => ',' :: (newLine depth ++ render depth item ++ renderItems depth rest)

/-- The members after the first, each behind a comma. -/
def renderMembers (depth : Nat) : List (String × Json) → List Char
  | [] => []
  | (key, item) :: rest =>
    ',' :: (newLine depth ++ quote key ++ [':', ' '] ++ render depth item ++ renderMembers depth rest)

end

/-- The written form of a value, ended by a line break. -/
def toText (v : Json) : String := String.ofList (render 0 v ++ ['\n'])

end CInterop.Json
