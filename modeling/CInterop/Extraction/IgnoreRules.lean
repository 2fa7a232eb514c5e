import CInterop.Text.Glob
import CInterop.Text.Path

/-!
# Files to be ignored

Declarations can be left out by the file they are in. A file is named by its path as it stands, by its
absolute path, by its last part or by the way to it from the header, and a rule is one of these or a
pattern for them. Both kinds of slashes are the same.
-/

namespace CInterop.Extraction

/-- The rules, each a path or a pattern. -/
structure IgnoreRules where
  files : List String
deriving DecidableEq, Repr

namespace IgnoreRules

/-- The text with every backslash turned into a slash. -/
def forwardSlashes (text : String) : String :=
  String.ofList (text.toList.map fun c => if c = '\\' then '/' else c)

/-- The names of a file, where `start` is the directory of the header if there is one. -/
def namesOf (directory file : String) (start : Option String) : List String :=
  let absolute := Path.absolute directory file
  let way := match start with
    | none | some "" => []
    | some start => [Path.relative directory absolute start]
  ([file, absolute, Path.base file] ++ way).map forwardSlashes

/-- Whether a rule applies to a name. -/
def applies (rule name : String) : Bool := name = rule || Glob.accepts rule name

/-- Whether the declarations of a file are to be left out. Relative paths start at `directory`. -/
def ignores (rules : IgnoreRules) (directory : String) (file : Option String)
    (start : Option String) : Bool :=
  match file with
  | none | some "" => false
  | some file =>
    let names := namesOf directory file start
    rules.files.any fun rule => names.any (applies (forwardSlashes rule))

end IgnoreRules
end CInterop.Extraction
