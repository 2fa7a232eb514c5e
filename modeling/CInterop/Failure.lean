import CInterop.Json.Access
import CInterop.Json.Parser

/-!
# Failures

What ends a run. Most failures are reported to the user with a message; a fault is not, as it comes
from outside the program's own rules (the file system, a limit) or from input that no rule covers.
-/

namespace CInterop

/-- Input that breaks one of the program's rules. -/
inductive Invalid where
  | bitness (shown : String)
  | className (shown : String)
  | aliasText (text : String)
  | missingFile (path : String)
  | documentText (error : Json.Error)
  | documentShape (misfit : Json.Misfit)
  | notATranslationUnit
  | nestedTranslationUnit
  | nodeKind (shown : String)
  /-- An enumeration holds a node of another kind. -/
  | notAnEnumerator (enumeration kind : String)
  | duplicateNode (shown : String)
  | typedefCycle (name : String)
  | unknownType (name : String)
  | configurationText (path : String) (error : Json.Error)
  | configurationShape (misfit : Json.Misfit)
deriving DecidableEq, Repr

/-- The wording of a broken rule. -/
def Invalid.message : Invalid → String
  | bitness shown => s!"Bitness must be 32 or 64, got {shown}."
  | className shown => s!"Invalid class name: `{shown}`."
  | aliasText text => s!"Invalid alias `{text}`, expected FROM=TO."
  | missingFile path => s!"File does not exist: `{path}`."
  | documentText error => s!"Malformed abstract syntax tree document: {error.message}"
  | documentShape misfit => s!"Malformed abstract syntax tree document: missing {misfit.message}"
  | notATranslationUnit => "The document is not a translation unit."
  | nestedTranslationUnit => "Node kind 'translationUnit' cannot appear inside a translation unit."
  | nodeKind shown => s!"Unknown node kind: {shown}"
  | notAnEnumerator enumeration kind => s!"Enum '{enumeration}' holds a '{kind}' node."
  | duplicateNode shown => s!"Duplicate node '{shown}' in the abstract syntax tree."
  | typedefCycle name => s!"Typedef cycle through '{name}'."
  | unknownType name => s!"Type '{name}' does not resolve to a node."
  | configurationText path error => s!"Malformed configuration file `{path}`: {error.message}"
  | configurationShape misfit => s!"Malformed mapping configuration: {misfit.message}"

/-- A failure without a message of its own. -/
inductive Fault where
  /-- A number literal, an integer or an array count beyond what can be converted. -/
  | literal
  | countTooLarge
  | integerTooLong
  | configurationNotAnObject
  | classNameNotAText
  /-- Something in a document that is none of the texts, integers and truth values that are worked on here:
  a value of another type in their place, or a text with half a surrogate pair. -/
  | illTyped
  /-- Types that refer to each other without end. -/
  | endlessTypes
  | outputIsDirectory
  /-- There is a file where a directory should be made, or something under each name that was tried for
  a temporary file. -/
  | outputDirectoryIsFile
  | outputBelowFile
  | outputDirectoryMissing
  /-- An output path that ends in `.` or `..`, or that is the root. -/
  | outputWithoutName
  | noOutputPath
deriving DecidableEq, Repr

/-- What ends a run. -/
inductive Failure where
  | invalid (cause : Invalid)
  /-- The C front end did not accept a file at all. -/
  | unparsable (path : String)
  /-- The C front end reported errors. -/
  | frontEndErrors (messages : List String)
  /-- A strict run met a type it could not resolve. -/
  | unresolvedType (summary : String)
  | fault (fault : Fault)
deriving DecidableEq, Repr

/-- The wording of a reported failure. -/
def Failure.message? : Failure → Option String
  | invalid cause => some cause.message
  | unparsable path =>
    some s!"libclang failed to parse '{path}': Error parsing translation unit."
  | frontEndErrors messages =>
    some ("Clang parsing errors:\n\t" ++ String.intercalate "\n\t" messages)
  | unresolvedType summary => some summary
  | fault _ => none

end CInterop
