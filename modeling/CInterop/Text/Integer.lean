import CInterop.Text.Blank
import CInterop.Text.Digit

/-!
# Integers as users write them

Decimal digits of any script with an optional sign in front. A single underscore may stand between two
digits, and blanks around the number do not count, except for the four information separators.
-/

namespace CInterop.Text

/-- The most digits a number may have. -/
def maxIntegerDigits : Nat := 4300

/-- Whether `c` may stand around a number. -/
def isBlankAroundInteger (c : Char) : Bool := isBlank c && !(28 ≤ c.toNat && c.toNat ≤ 31)

/-- The digits of a number without the underscores between them. -/
def digitsOf? : List Char → Option (List Nat)
  | [] => none
  | [c] => (decimalValue? c).map fun d => [d]
  | c :: '_' :: rest => do return (← decimalValue? c) :: (← digitsOf? rest)
  | c :: rest => do return (← decimalValue? c) :: (← digitsOf? rest)

/-- The number with the given decimal digits. -/
def numberOf (digits : List Nat) : Nat := digits.foldl (fun n d => 10 * n + d) 0

/-- The integer that a text denotes. -/
def integer? (text : String) : Option Int := do
  let start := text.toList.dropWhile isBlankAroundInteger
  let bare := (start.reverse.dropWhile isBlankAroundInteger).reverse
  let (isNegative, unsigned) := match bare with
    | '-' :: rest => (true, rest)
    | '+' :: rest => (false, rest)
    | rest => (false, rest)
  let digits ← digitsOf? unsigned
  if maxIntegerDigits < digits.length then none
  else return if isNegative then -(numberOf digits : Int) else numberOf digits

end CInterop.Text
