/-!
# Paths

Paths are texts whose parts are separated by slashes. They are normalised by their text alone:
repeated separators and the part `.` go away, and `..` takes back the part before it. Exactly two
slashes at the beginning are kept, as they may have a meaning of their own.
-/

namespace CInterop.Path

/-- The parts between the slashes of a text. -/
def splitSlashes : List Char → List (List Char)
  | [] => [[]]
  | c :: cs =>
    match splitSlashes cs with
    | [] => [[c]]
    | part :: rest => if c = '/' then [] :: part :: rest else (c :: part) :: rest

/-- Parts with a slash between each two. -/
def joinSlashes : List (List Char) → List Char
  | [] => []
  | [part] => part
  | part :: rest => part ++ '/' :: joinSlashes rest

/-- The slashes a normalised path begins with. -/
def leadingSlashes : List Char → List Char
  | '/' :: '/' :: '/' :: _ => ['/']
  | '/' :: '/' :: _ => ['/', '/']
  | '/' :: _ => ['/']
  | _ => []

/-- The parts of an absolute path without `.`, `..` and empty ones; `before` are the parts so far, the
last one first. Above the root there is only the root. -/
def resolveParts (before : List (List Char)) : List (List Char) → List (List Char)
  | [] => before.reverse
  | part :: rest =>
    if part = [] || part = ['.'] then resolveParts before rest
    else if part = ['.', '.'] then resolveParts (before.drop 1) rest
    else resolveParts (part :: before) rest

/-- Whether a path starts at the root. -/
def isAbsolute (path : List Char) : Bool := path.head? == some '/'

/-- The normal form of a path, which starts at `directory` unless it starts at the root. -/
def absoluteChars (directory path : List Char) : List Char :=
  let full := if isAbsolute path then path else directory ++ '/' :: path
  leadingSlashes full ++ joinSlashes (resolveParts [] (splitSlashes full))

/-- The normal form of a path, which starts at `directory` unless it starts at the root. -/
def absolute (directory path : String) : String :=
  String.ofList (absoluteChars directory.toList path.toList)

/-- The path of a file in a directory. -/
def join (directory file : String) : String :=
  if directory.toList.getLast? = some '/' then directory ++ file else directory ++ "/" ++ file

/-- The part after the last slash. -/
def base (path : String) : String :=
  String.ofList (path.toList.reverse.takeWhile (· != '/')).reverse

/-- What is before the part after the last slash, without the slashes at its end unless there is
nothing else. -/
def parent (path : String) : String :=
  let head := path.toList.reverse.dropWhile (· != '/')
  let bare := head.dropWhile (· == '/')
  String.ofList (if bare.isEmpty then head else bare).reverse

/-- The parts of a normalised path that are not empty. -/
def parts (path : List Char) : List (List Char) := (splitSlashes path).filter (· != [])

/-- What is left of two lists after their longest common beginning. -/
def dropCommon : List (List Char) → List (List Char) → List (List Char) × List (List Char)
  | a :: as, b :: bs => if a = b then dropCommon as bs else (a :: as, b :: bs)
  | as, bs => (as, bs)

/-- The way from `start` to `path`, both relative to `directory` unless they start at the root. -/
def relative (directory path start : String) : String :=
  let (up, down) := dropCommon (parts (absoluteChars directory.toList start.toList))
    (parts (absoluteChars directory.toList path.toList))
  let way := up.map (fun _ => ['.', '.']) ++ down
  if way.isEmpty then "." else String.ofList (joinSlashes way)

end CInterop.Path
