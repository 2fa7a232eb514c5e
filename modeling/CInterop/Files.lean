import CInterop.Failure
import CInterop.Text.Path

/-!
# Files

What a run reads and writes: texts under absolute paths, and directories. A path is followed part by
part, so that every part but the last has to be a directory; `..` is no exception.
-/

namespace CInterop

/-- Files with their texts and directories, by their absolute paths. A directory that holds something
need not be listed. -/
structure Files where
  texts : List (String × String) := []
  directories : List String := []
deriving DecidableEq, Repr

namespace Files

/-- Whether a path leads to something in a directory. -/
def isBelow (directory path : String) : Bool :=
  (directory ++ "/").toList.isPrefixOf path.toList

/-- The text of the file at an absolute path. -/
def text? (fs : Files) (path : String) : Option String := fs.texts.lookup path

/-- Whether there is a directory at an absolute path. -/
def isDirectory (fs : Files) (path : String) : Bool :=
  path = "/" || fs.directories.any (fun d => d = path || isBelow path d)
    || fs.texts.any (fun file => isBelow path file.1)

/-- The absolute path with the given parts, the last one first. -/
def pathOf (reversed : List (List Char)) : String :=
  String.ofList ('/' :: Path.joinSlashes reversed.reverse)

/-- Why a path cannot be followed. -/
inductive Obstacle where
  /-- There is nothing where a directory should be. -/
  | missing
  /-- There is a file where a directory should be. -/
  | isFile
deriving DecidableEq, Repr

/-- Where the parts of a path lead from a place, whose parts are given the last one first. -/
def follow (fs : Files) (place : List (List Char)) :
    List (List Char) → Except Obstacle (List (List Char))
  | [] => .ok place
  | part :: rest =>
    if !fs.isDirectory (pathOf place) then
      .error (if (fs.text? (pathOf place)).isSome then .isFile else .missing)
    else if part = [] || part = ['.'] then fs.follow place rest
    else if part = ['.', '.'] then fs.follow (place.drop 1) rest
    else fs.follow (part :: place) rest

/-- The parts of a path from the root on, where relative paths start at `directory`. -/
def partsFrom (directory path : String) : List (List Char) :=
  Path.splitSlashes
    (if Path.isAbsolute path.toList then path else directory ++ "/" ++ path).toList

/-- Where a path leads, if it can be followed. There need not be anything. -/
def locate? (fs : Files) (directory path : String) : Option String :=
  if path.isEmpty then none
  else (fs.follow [] (partsFrom directory path)).toOption.map pathOf

/-- The text of a file, if the path leads to one. -/
def read? (fs : Files) (directory path : String) : Option String := do
  fs.text? (← fs.locate? directory path)

/-! ## Changes -/

/-- The files without the one at an absolute path. -/
def remove (fs : Files) (path : String) : Files :=
  { fs with texts := fs.texts.filter (·.1 ≠ path) }

/-- The files with the text at an absolute path. -/
def put (fs : Files) (path text : String) : Files :=
  { fs with texts := (fs.remove path).texts ++ [(path, text)] }

/-- The files with the one at `source` at `target`, where it takes the place of any other. -/
def move (fs : Files) (source target : String) : Files :=
  match fs.text? source with
  | some text => (fs.remove source).put target text
  | none => fs

/-- A step that changes files. Where it fails, they stay as the step has left them by then. -/
abbrev Change (α : Type) := EStateM Fault Files α

/-- A change that is made at once, or not at all. -/
def Change.atOnce {α : Type} (f : Files → Except Fault (α × Files)) : Change α := fun fs =>
  match f fs with
  | .ok (a, left) => .ok a left
  | .error fault => .error fault fs

/-- Makes a directory with all directories above it, unless there is one. -/
def makeDirectories (path : String) : Change Unit := .atOnce fun fs =>
  if fs.isDirectory path then .ok ((), fs)
  else if (fs.text? path).isSome then .error .outputDirectoryIsFile
  else if fs.texts.any fun file => isBelow file.1 path then .error .outputBelowFile
  else .ok ((), { fs with directories := fs.directories ++ [path] })

/-- The letters that make the name of a temporary file differ from others. -/
abbrev Mark := List (Fin 37)

namespace Mark

def letter (i : Fin 37) : Char :=
  if i.val < 26 then Char.ofNat ('a'.toNat + i.val)
  else if i.val < 36 then Char.ofNat ('0'.toNat + (i.val - 26))
  else '_'

def text (mark : Mark) : String := String.ofList (mark.map letter)

/-- The marks that are tried one after the other. -/
def usual : List Mark := (List.finRange 37).map (List.replicate 8)

end Mark

/-- The path of a temporary file in a directory. -/
def temporaryPath (directory suffix : String) (mark : Mark) : String :=
  Path.join directory (".tmp-" ++ mark.text ++ suffix)

/-- Makes an empty file in a directory, under the first name that is not taken. -/
def makeTemporary (directory suffix : String) (marks : List Mark) : Change String := .atOnce fun fs =>
  let isFree (path : String) : Bool := (fs.text? path).isNone && !fs.isDirectory path
  match (marks.map (temporaryPath directory suffix)).find? isFree with
  | some path => .ok (path, fs.put path "")
  | none => .error .outputDirectoryIsFile

/-- The parts of a path without the empty ones at its end. -/
def withoutTrailing (parts : List (List Char)) : List (List Char) :=
  (parts.reverse.dropWhile (· == [])).reverse

/-- Where a file has to be put for a path to lead to it. -/
def target (fs : Files) (directory path : String) : Except Fault String :=
  let parts := partsFrom directory path
  let bare := withoutTrailing parts
  if path.isEmpty then .error .noOutputPath
  else
    match fs.follow [] (bare.dropLast ++ [[]]) with
    | .error .missing => .error .outputDirectoryMissing
    | .error .isFile => .error .outputBelowFile
    | .ok place =>
      match bare.getLast? with
      | none | some ['.'] | some ['.', '.'] => .error .outputWithoutName
      | some name =>
        if parts.getLast? = some [] then .error .outputBelowFile
        else if fs.isDirectory (pathOf (name :: place)) then .error .outputIsDirectory
        else .ok (pathOf (name :: place))

/-- Moves a file to where a path leads. -/
def moveTo (source directory path : String) : Change Unit := .atOnce fun fs => do
  return ((), fs.move source (← fs.target directory path))

/-- What a file is to be filled with: a text, or one with half a surrogate pair in it, for which there
are no bytes. -/
inductive Content where
  | encodable (text : String)
  | unencodable
deriving DecidableEq, Repr

/-- Fills a file. -/
def fill (path : String) (content : Content) : Change Unit := .atOnce fun fs =>
  match content with
  | .encodable text => .ok ((), fs.put path text)
  | .unencodable => .error .illTyped

/-- The directory of what a path names by its text alone. -/
def directoryOf (directory path : String) : String :=
  pathOf ((Path.resolveParts [] (partsFrom directory path)).reverse.drop 1)

/-- Fills a temporary file and moves it to where a path leads. If that fails, the file is removed. -/
def complete (temporary directory path : String) (content : Content) : Change Unit :=
  try
    fill temporary content
    moveTo temporary directory path
  catch fault =>
    modify (·.remove temporary)
    throw fault

/-- Writes a file, where relative paths start at `directory`. Missing directories above the file are made.
The text is put into a temporary file beside it first, so that the file has the whole text or is not
changed. -/
def write (directory path : String) (content : Content) (marks : List Mark) : Change Unit := do
  let beside := directoryOf directory path
  makeDirectories beside
  let temporary ← makeTemporary beside (Path.base path) marks
  complete temporary directory path content

end Files
end CInterop
