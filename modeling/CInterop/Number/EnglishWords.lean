/-!
# Numbers in English words

Cardinal numbers by the short scale, as the package num2words spells them in English, whose version
0.5.14 is followed. A number is spelled in groups of three digits, each followed by the name of its
power of a thousand, and a last part below a hundred is joined by `and`. The package knows the powers
up to the centillion and gives up on numbers from a thousand centillions on; so do these words. What
it puts between the words, blanks, commas and hyphens, is left out: a name has underscores there.
-/

namespace CInterop.EnglishWords

/-- The words below twenty. -/
def small : List String :=
  ["zero", "one", "two", "three", "four", "five", "six", "seven", "eight", "nine", "ten", "eleven",
    "twelve", "thirteen", "fourteen", "fifteen", "sixteen", "seventeen", "eighteen", "nineteen"]

/-- The words for the tens. -/
def tens : List String :=
  ["zero", "ten", "twenty", "thirty", "forty", "fifty", "sixty", "seventy", "eighty", "ninety"]

/-- The stems of the first names above a thousand. -/
def firstStems : List String := ["m", "b", "tr", "quadr", "quint", "sext", "sept", "oct", "non"]

/-- What goes before the stem of a multiple of ten. -/
def unitStems : List String :=
  ["", "un", "duo", "tre", "quattuor", "quin", "sex", "sept", "octo", "novem"]

/-- The stems of the multiples of ten. -/
def tenStems : List String :=
  ["dec", "vigint", "trigint", "quadragint", "quinquagint", "sexagint", "septuagint", "octogint",
    "nonagint"]

/-- The names of the powers of a thousand, from the first power on; the last is the centillion. -/
def powers : List String :=
  "thousand" :: (firstStems ++ (tenStems.flatMap fun ten => unitStems.map (· ++ ten)) ++ ["cent"]).map
    (· ++ "illion")

theorem length_powers : powers.length = 101 := by decide

/-- The words of a number below a hundred. -/
def belowHundred (n : Nat) : List String :=
  if n < 20 then [small.getD n ""]
  else tens.getD (n / 10) "" :: (if n % 10 = 0 then [] else [small.getD (n % 10) ""])

/-- The words of a number below a thousand. -/
def belowThousand (n : Nat) : List String :=
  if n < 100 then belowHundred n
  else small.getD (n / 100) "" :: "hundred" ::
    (if n % 100 = 0 then [] else "and" :: belowHundred (n % 100))

/-- The words of a number below the power of a thousand after `power`. -/
def groups : Nat → Nat → List String
  | 0, n => belowThousand n
  | power + 1, n =>
    let unit := Nat.pow 1000 (power + 1)
    if n < unit then groups power n
    else
      let rest := n % unit
      belowThousand (n / unit) ++ [powers.getD power ""] ++
        (if rest = 0 then [] else if rest < 100 then "and" :: belowHundred rest else groups power rest)

/-- The words of an integer, if there is a name for its size: from 10³⁰⁶ on, the package fails. -/
def cardinal? (n : Int) : Option (List String) :=
  if n.natAbs < Nat.pow 1000 102 then
    some ((if n < 0 then ["minus"] else []) ++ groups 101 n.natAbs)
  else none

end CInterop.EnglishWords
