/-!
# File patterns

A pattern is matched against a whole text. A star stands for any characters, a question mark for one,
and brackets for one of the characters they list, where two characters with a hyphen between them
stand for all from the one to the other and an exclamation mark at the beginning for all others. A
bracket that is not closed stands for itself.
-/

namespace CInterop.Glob

/-- What one part of a pattern stands for. -/
inductive Item where
  | anyText
  | anyChar
  | exactly (c : Char)
  /-- One of the characters in the ranges, or none of them if `negated`. -/
  | oneOf (negated : Bool) (ranges : List (Char × Char))
deriving DecidableEq, Repr

/-- The text inside brackets and the text after them, from the text after the opening bracket. A
closing bracket at the beginning, or behind an exclamation mark there, is an ordinary character. -/
def bracketed? (cs : List Char) : Option (List Char × List Char) :=
  let (mark, rest) := match cs with
    | '!' :: rest => (['!'], rest)
    | rest => ([], rest)
  let (first, rest) := match rest with
    | ']' :: rest => ([']'], rest)
    | rest => ([], rest)
  match rest.span (· != ']') with
  | (inner, _ :: after) => some (mark ++ first ++ inner, after)
  | (_, []) => none

/-- Cuts the text inside brackets at the hyphens that make ranges. The first `skip` characters are not
looked at; after a hyphen that makes a range the next two are not, as the first of them ends that
range. A hyphen at the very end makes no range. -/
def cutRanges : Nat → List Char → List (List Char)
  | _, [] => [[]]
  | skip + 1, c :: rest =>
    match cutRanges skip rest with
    | [] => [[c]]
    | piece :: pieces => (c :: piece) :: pieces
  | 0, c :: rest =>
    if c = '-' && !rest.isEmpty then [] :: cutRanges 2 rest
    else match cutRanges 0 rest with
      | [] => [[c]]
      | piece :: pieces => (c :: piece) :: pieces

/-- The pieces with the ranges that hold nothing taken out, ends included. -/
def dropEmptyRanges : List (List Char) → List (List Char)
  | [] => []
  | piece :: rest =>
    match dropEmptyRanges rest with
    | [] => [piece]
    | next :: others =>
      match piece.getLast?, next.head? with
      | some low, some high =>
        if high < low then (piece.dropLast ++ next.drop 1) :: others else piece :: next :: others
      | _, _ => piece :: next :: others

/-- The ranges of pieces: the last character of each with the first of the next, and every other
character on its own. -/
def rangesOf : List (List Char) → List (Char × Char)
  | [] => []
  | piece :: rest =>
    piece.map (fun c => (c, c)) ++
      (match rest with
       | [] => []
       | next :: _ =>
         match piece.getLast?, next.head? with
         | some low, some high => [(low, high)]
         | _, _ => []) ++ rangesOf rest

/-- What brackets around the given text stand for. -/
def bracketItem (inner : List Char) : Item :=
  let skip := if inner.head? = some '!' then 2 else 1
  match dropEmptyRanges (cutRanges skip inner) with
  | ('!' :: piece) :: rest => .oneOf true (rangesOf (piece :: rest))
  | pieces => .oneOf false (rangesOf pieces)

/-- The parts of a pattern of at most the given length. -/
def itemsWithin : Nat → List Char → List Item
  | 0, _ => []
  | _ + 1, [] => []
  | n + 1, '*' :: rest => .anyText :: itemsWithin n rest
  | n + 1, '?' :: rest => .anyChar :: itemsWithin n rest
  | n + 1, '[' :: rest =>
    match bracketed? rest with
    | some (inner, after) => bracketItem inner :: itemsWithin n after
    | none => .exactly '[' :: itemsWithin n rest
  | n + 1, c :: rest => .exactly c :: itemsWithin n rest

/-- The parts of a pattern. -/
def items (pattern : List Char) : List Item := itemsWithin pattern.length pattern

/-- Whether a part stands for the character. -/
def Item.accepts (c : Char) : Item → Bool
  | anyText | anyChar => true
  | exactly d => c = d
  | oneOf negated ranges => (ranges.any fun r => r.1 ≤ c && c ≤ r.2) != negated

/-- Whether some end of the text is as wanted; the text itself and nothing are ends of it. -/
def someEnd (isWanted : List Char → Bool) : List Char → Bool
  | [] => isWanted []
  | c :: cs => isWanted (c :: cs) || someEnd isWanted cs

/-- Whether the parts stand for the text as a whole. -/
def matchItems : List Item → List Char → Bool
  | [], cs => cs.isEmpty
  | .anyText :: rest, cs => someEnd (matchItems rest) cs
  | _ :: _, [] => false
  | item :: rest, c :: cs => item.accepts c && matchItems rest cs

/-- Whether the pattern stands for the text. -/
def accepts (pattern text : String) : Bool := matchItems (items pattern.toList) text.toList

end CInterop.Glob
