/-!
# Sets of characters

Character classes of the Unicode standard, version 14, are written down as sorted runs of code
points. The tables list characters beyond ASCII only: every class decides ASCII by a short test of
its own, so that the common case stays easy to reason about.
-/

namespace CInterop.Text

/-- A set of characters as the runs of code points it consists of, first and last included. -/
structure CodeSet where
  runs : List (Nat × Nat)

/-- Whether `c` lies in one of the runs. -/
def CodeSet.contains (s : CodeSet) (c : Char) : Bool :=
  s.runs.any fun run => run.1 ≤ c.toNat && c.toNat ≤ run.2

/-- Whether `c` is one of the 128 characters of ASCII. -/
def isAscii (c : Char) : Bool := c.toNat < 128

end CInterop.Text
