import CInterop.Number.Binary64

/-!
# The shortest decimal that reads back

A finite number `m · 2 ^ q` is the nearest one to every real in an interval around it. Its decimal
text has the fewest digits with which some decimal lies in that interval, and of those the nearest
to the number. Everything is decided in exact integer arithmetic.
-/

namespace CInterop.Binary64

/-- A decimal `digits · 10 ^ power`. -/
structure Decimal where
  digits : Nat
  power : Int
deriving DecidableEq, Repr

/-- A fraction of natural numbers. -/
structure Ratio where
  num : Nat
  den : Nat

/-- `a · 2 ^ q` as a fraction. -/
def Ratio.scaled (a : Nat) (q : Int) : Ratio :=
  if 0 ≤ q then ⟨a * Nat.pow 2 q.toNat, 1⟩ else ⟨a, Nat.pow 2 (-q).toNat⟩

/-- Whether `r < d`. -/
def Ratio.below (r : Ratio) (d : Decimal) : Bool :=
  if 0 ≤ d.power then r.num < d.digits * Nat.pow 10 d.power.toNat * r.den
  else r.num * Nat.pow 10 (-d.power).toNat < d.digits * r.den

/-- Whether `d < r`. -/
def Ratio.above (r : Ratio) (d : Decimal) : Bool :=
  if 0 ≤ d.power then d.digits * Nat.pow 10 d.power.toNat * r.den < r.num
  else d.digits * r.den < r.num * Nat.pow 10 (-d.power).toNat

/-- The whole number of units `10 ^ power` in `r`. -/
def Ratio.units (r : Ratio) (power : Int) : Nat :=
  if 0 ≤ power then r.num / (r.den * Nat.pow 10 power.toNat) else r.num * Nat.pow 10 (-power).toNat / r.den

/-- The interval of reals that round to a number, as its ends and whether they belong to it. -/
structure Basin where
  value : Ratio
  low : Ratio
  high : Ratio
  closed : Bool

/-- The reals nearest to the positive number `x`. Below a power of two the neighbour is only half as
far away; a tie goes to the even significand. -/
def basin (x : Binary64) : Basin :=
  let m := x.significand
  let q := x.exponent
  let lowGap := if x.fraction = 0 && 1 < x.storedExponent then 1 else 2
  { value := .scaled (4 * m) (q - 2)
    low := .scaled (4 * m - lowGap) (q - 2)
    high := .scaled (4 * m + 2) (q - 2)
    closed := m % 2 = 0 }

/-- Whether the decimal rounds to the number. -/
def Basin.holds (b : Basin) (d : Decimal) : Bool :=
  if b.closed then !b.low.above d && !b.high.below d else b.low.below d && b.high.above d

/-- Whether `d` is nearer to the value than `e`, where `d` lies below it and `e` one unit higher;
a tie goes to the even digit. -/
def Basin.prefersLower (b : Basin) (d : Decimal) : Bool :=
  let middle : Decimal := ⟨10 * d.digits + 5, d.power - 1⟩
  b.value.above middle == false && (b.value.below middle || d.digits % 2 = 0)

/-- The candidates on the grid of `10 ^ power`: the two neighbours of the value. -/
def Basin.onGrid? (b : Basin) (power : Int) : Option Decimal :=
  let lower : Decimal := ⟨b.value.units power, power⟩
  let upper : Decimal := ⟨lower.digits + 1, power⟩
  match b.holds lower && lower.digits != 0, b.holds upper with
  | true, true => some (if b.prefersLower lower then lower else upper)
  | true, false => some lower
  | false, true => some upper
  | false, false => none

/-- The number of decimal digits of `n`. -/
def digitCount (n : Nat) : Nat := (Nat.toDigits 10 n).length

/-- The power of ten of the first digit of a positive ratio. -/
def Ratio.leading (r : Ratio) : Int :=
  let guess : Int := (digitCount r.num : Int) - digitCount r.den
  if r.units guess = 0 then guess - 1 else guess

/-- The shortest decimal of a positive finite number: seventeen digits always suffice. -/
def shortest (x : Binary64) : Decimal :=
  let b := x.basin
  let top := b.value.leading
  ((List.range 17).findSome? fun (k : Nat) => b.onGrid? (top - (k : Int))).getD
    ⟨b.value.units (top - 17), top - 17⟩

/-- Where the text of a decimal goes over to an exponent. -/
structure Style where
  /-- Positional while the power of the first digit is at least this. -/
  least : Int
  /-- Positional while the power of the first digit is below this. -/
  limit : Int
  /-- Digits an exponent has at least. -/
  exponentDigits : Nat

/-- Ordinary size is written positionally, the rest with an exponent of at least two digits. -/
def plainStyle : Style := ⟨-4, 16, 2⟩

/-- The text of a positive decimal: positional text keeps a digit on both sides of the point. -/
def Decimal.text (style : Style) (d : Decimal) : List Char :=
  let all := Nat.toDigits 10 d.digits
  let kept := (all.reverse.dropWhile (· == '0')).reverse
  let first : Int := d.power + all.length - 1
  if style.least ≤ first && first < style.limit then
    if first < 0 then
      "0.".toList ++ List.replicate (-first - 1).toNat '0' ++ kept
    else
      let whole := first.toNat + 1
      let head := kept.take whole
      let tail := kept.drop whole
      head ++ List.replicate (whole - head.length) '0' ++ ['.'] ++ (if tail.isEmpty then ['0'] else tail)
  else
    let exponent := Nat.toDigits 10 first.natAbs
    kept.take 1 ++ (if 1 < kept.length then '.' :: kept.drop 1 else [])
      ++ ['e', if first < 0 then '-' else '+']
      ++ List.replicate (style.exponentDigits - exponent.length) '0' ++ exponent

/-- The decimal text of a number, with the given words for infinity and NaN. -/
def text (x : Binary64) (infinityWord nanWord : String) : List Char :=
  if x.isNan then nanWord.toList
  else
    (if x.isNegative then ['-'] else []) ++
      (if !x.isFinite then infinityWord.toList
       else if x.significand = 0 then "0.0".toList
       else x.shortest.text plainStyle)

end CInterop.Binary64
