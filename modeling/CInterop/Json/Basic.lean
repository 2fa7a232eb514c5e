import CInterop.Number.Binary64

/-!
# JSON values

Objects keep their members in the order in which the keys first occurred, integers are unbounded,
and numbers with a fraction or an exponent are binary floating-point numbers. The three words `NaN`,
`Infinity` and `-Infinity` count as numbers.
-/

namespace CInterop

/-- A JSON value. -/
inductive Json where
  | null
  | bool (value : Bool)
  | int (value : Int)
  | real (value : Binary64)
  | str (text : String)
  | arr (items : List Json)
  | obj (members : List (String × Json))
deriving Inhabited

namespace Json

/-- The member of that name in a list of members. -/
def lookup (key : String) : List (String × Json) → Option Json
  | [] => none
  | (k, v) :: rest => if k = key then some v else lookup key rest

/-- Adds a member, or gives a new value to the one of that name in its old place. -/
def insertMember (key : String) (value : Json) : List (String × Json) → List (String × Json)
  | [] => [(key, value)]
  | (k, v) :: rest =>
    if k = key then (k, value) :: rest else (k, v) :: insertMember key value rest

/-- The member of an object; nothing else has members. -/
def get? (key : String) : Json → Option Json
  | obj members => lookup key members
  | _ => none

theorem lookup_insertMember_self (key : String) (value : Json) (members : List (String × Json)) :
    lookup key (insertMember key value members) = some value := by
  induction members with
  | nil => simp [insertMember, lookup]
  | cons m rest ih => by_cases h : m.1 = key <;> simp [insertMember, lookup, h, ih]

theorem lookup_insertMember_of_ne {key other : String} (h : other ≠ key) (value : Json)
    (members : List (String × Json)) :
    lookup other (insertMember key value members) = lookup other members := by
  induction members with
  | nil => simp [insertMember, lookup, Ne.symm h]
  | cons m rest ih =>
    by_cases hk : m.1 = key
    · simp [insertMember, lookup, hk, Ne.symm h]
    · simp [insertMember, lookup, hk, ih]

end Json
end CInterop
