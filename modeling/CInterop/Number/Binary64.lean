/-!
# Binary floating-point numbers

A number of the 64-bit binary format, kept as its bit pattern so that it can be compared and
decoded exactly: a finite number is `± significand · 2 ^ exponent` with integers.
-/

namespace CInterop

/-- A 64-bit binary floating-point number, by its bit pattern. -/
structure Binary64 where
  bits : UInt64
deriving DecidableEq, Repr

namespace Binary64

def ofFloat (x : Float) : Binary64 := ⟨x.toBits⟩

def infinity : Binary64 := ⟨0x7FF0000000000000⟩
def zero : Binary64 := ⟨0⟩
def nan : Binary64 := ⟨0x7FF8000000000000⟩

/-- The same magnitude with the other sign. -/
def neg (x : Binary64) : Binary64 := ⟨x.bits ^^^ 0x8000000000000000⟩

def isNegative (x : Binary64) : Bool := x.bits >>> 63 == 1

/-- The stored exponent: 0 for zero and subnormal numbers, 2047 for infinities and NaN. -/
def storedExponent (x : Binary64) : Nat := (x.bits.toNat / Nat.pow 2 52) % Nat.pow 2 11

/-- The stored fraction, without the leading bit of a normal number. -/
def fraction (x : Binary64) : Nat := x.bits.toNat % Nat.pow 2 52

def isFinite (x : Binary64) : Bool := x.storedExponent != 2047

def isNan (x : Binary64) : Bool := !x.isFinite && x.fraction != 0

/-- The integer `m` in `± m · 2 ^ q`. -/
def significand (x : Binary64) : Nat :=
  if x.storedExponent = 0 then x.fraction else Nat.pow 2 52 + x.fraction

/-- The integer `q` in `± m · 2 ^ q`. -/
def exponent (x : Binary64) : Int :=
  if x.storedExponent = 0 then -1074 else (x.storedExponent : Int) - 1075

/-- The integer a finite number is equal to, if it is one. -/
def toInt? (x : Binary64) : Option Int :=
  if !x.isFinite then none
  else
    let magnitude : Option Nat :=
      if 0 ≤ x.exponent then some (x.significand * Nat.pow 2 x.exponent.toNat)
      else
        let scale := Nat.pow 2 (-x.exponent).toNat
        if x.significand % scale = 0 then some (x.significand / scale) else none
    magnitude.map fun (m : Nat) => if x.isNegative then -(m : Int) else m

/-- Equality of values: the two zeros are equal, and NaN is equal to nothing. -/
def sameValue (x y : Binary64) : Bool :=
  !x.isNan && !y.isNan && (x == y || (x.significand == 0 && x.isFinite && y.significand == 0 && y.isFinite))

/-- The number nearest to `digits · 10 ^ power`, which has `count` digits. The guards keep the
exact arithmetic small: beyond them the answer is infinity or zero. -/
def ofDecimal (digits : Nat) (count : Nat) (power : Int) : Binary64 :=
  if digits = 0 then zero
  else if 400 < power + count then infinity
  else if power + count < -400 then zero
  else ofFloat (Float.ofScientific digits (power < 0) power.natAbs)

end Binary64
end CInterop
