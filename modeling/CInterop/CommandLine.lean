import CInterop.CommandLine.Switch
import CInterop.Extraction
import CInterop.Text.Integer

/-!
# The command line

There are two commands: `ast` extracts a header into a document, and `cs` makes bindings from a
document. Words after the first `--` are arguments for the C front end. A command line that is not
understood ends the program, as does the wish for help.
-/

namespace CInterop.CommandLine

/-- What a switch of `ast` sets. -/
inductive ExtractSwitch where
  | help
  | output
  | includeDir
  | define
  | bitness
  | ignoredFile
  | strict
  | verbose
deriving DecidableEq, Repr

/-- What a switch of `cs` sets. -/
inductive BindSwitch where
  | help
  | output
  | library
  | className
  | namespaceName
  | configuration
  | typeAlias
  | ignoredType
  | bitness
  | verbose
deriving DecidableEq, Repr

def extractSwitches : List (Switch ExtractSwitch) := [
  ⟨["-h", "--help"], false, .help⟩,
  ⟨["-o", "--output"], true, .output⟩,
  ⟨["-I"], true, .includeDir⟩,
  ⟨["-D"], true, .define⟩,
  ⟨["--bitness"], true, .bitness⟩,
  ⟨["--ignore-file"], true, .ignoredFile⟩,
  ⟨["--strict"], false, .strict⟩,
  ⟨["-v", "--verbose"], false, .verbose⟩]

def bindSwitches : List (Switch BindSwitch) := [
  ⟨["-h", "--help"], false, .help⟩,
  ⟨["-o", "--output"], true, .output⟩,
  ⟨["-l", "--library-name"], true, .library⟩,
  ⟨["-c", "--class-name"], true, .className⟩,
  ⟨["-n", "--namespace"], true, .namespaceName⟩,
  ⟨["--config"], true, .configuration⟩,
  ⟨["--alias"], true, .typeAlias⟩,
  ⟨["--ignore-type"], true, .ignoredType⟩,
  ⟨["--bitness"], true, .bitness⟩,
  ⟨["-v", "--verbose"], false, .verbose⟩]

/-- The only switch in front of a command. -/
def leadingSwitches : List (Switch Unit) := [⟨["-h", "--help"], false, ()⟩]

/-- Why there is nothing to run. -/
inductive Refusal where
  | help
  | misuse
deriving DecidableEq, Repr

/-- The wish to extract a header. -/
structure Extract where
  options : Extraction.Options := { header := "" }
  output : String := "ast.json"
deriving DecidableEq, Repr

/-- The wish to make bindings. -/
structure Bind where
  document : String := ""
  output : String := "Bindings.cs"
  library : String := ""
  className : Option String := none
  namespaceName : Option String := none
  configuration : Option String := none
  aliases : List String := []
  ignoredTypes : List String := []
  bitness : Option Int := none
  isVerbose : Bool := false
deriving DecidableEq, Repr

/-- What is to be run. -/
inductive Invocation where
  | extract (wish : Extract)
  | bind (wish : Bind)
deriving DecidableEq, Repr

/-- The path of the file to be written. -/
def Invocation.output : Invocation → String
  | .extract wish => wish.output
  | .bind wish => wish.output

/-- What was read of a command line so far. -/
structure Draft (α : Type) where
  wish : α
  /-- The first plain argument. -/
  argument : Option String := none
  /-- Whether there was a word that the command has no use for. -/
  hasSurplus : Bool := false

/-- A pointer width as a value. -/
def bitness (value : String) : Except Refusal Int :=
  match Text.integer? value with
  | some n => if n = 32 ∨ n = 64 then .ok n else .error .misuse
  | none => .error .misuse

def setExtract (w : Extract) (value : String) : ExtractSwitch → Except Refusal Extract
  | .help => .error .help
  | .output => .ok { w with output := value }
  | .includeDir =>
    .ok { w with options := { w.options with includeDirs := w.options.includeDirs ++ [value] } }
  | .define => .ok { w with options := { w.options with defines := w.options.defines ++ [value] } }
  | .bitness => do return { w with options := { w.options with bitness? := some (← bitness value) } }
  | .ignoredFile =>
    .ok { w with options := { w.options with ignoredFiles := w.options.ignoredFiles ++ [value] } }
  | .strict => .ok { w with options := { w.options with isStrict := true } }
  | .verbose => .ok { w with options := { w.options with isVerbose := true } }

def setBind (w : Bind) (value : String) : BindSwitch → Except Refusal Bind
  | .help => .error .help
  | .output => .ok { w with output := value }
  | .library => .ok { w with library := value }
  | .className => .ok { w with className := some value }
  | .namespaceName => .ok { w with namespaceName := some value }
  | .configuration => .ok { w with configuration := some value }
  | .typeAlias => .ok { w with aliases := w.aliases ++ [value] }
  | .ignoredType => .ok { w with ignoredTypes := w.ignoredTypes ++ [value] }
  | .bitness => do return { w with bitness := some (← bitness value) }
  | .verbose => .ok { w with isVerbose := true }

/-- A draft after one more event. -/
def Draft.add {α β : Type} (set : α → String → β → Except Refusal α) (d : Draft α) :
    Event β → Except Refusal (Draft α)
  | .given meaning value => do return { d with wish := ← set d.wish value meaning }
  | .argument text =>
    .ok (if d.argument.isNone then { d with argument := some text } else { d with hasSurplus := true })
  | .unknown => .ok { d with hasSurplus := true }
  | .misuse => .error .misuse

/-- The plain argument of a complete command line. -/
def Draft.finish {α : Type} (d : Draft α) : Except Refusal (α × String) :=
  match d.argument with
  | some text => if d.hasSurplus then .error .misuse else .ok (d.wish, text)
  | none => .error .misuse

/-- The wish to extract a header that words express. -/
def readExtract (words extra : List String) : Except Refusal Extract := do
  let start : Draft Extract := { wish := {} }
  let draft ← (events extractSwitches words).foldlM (Draft.add setExtract) start
  let (wish, header) ← draft.finish
  return { wish with options := { wish.options with header, extra } }

/-- The wish to make bindings that words express. A library has to be named. -/
def readBind (words : List String) : Except Refusal Bind := do
  let start : Draft (Bind × Bool) := { wish := ({}, false) }
  let set (w : Bind × Bool) (value : String) (s : BindSwitch) : Except Refusal (Bind × Bool) := do
    return (← setBind w.1 value s, w.2 || s == .library)
  let draft ← (events bindSwitches words).foldlM (Draft.add set) start
  let ((wish, namesLibrary), document) ← draft.finish
  if namesLibrary then return { wish with document } else throw .misuse

/-- What the words up to `--` express, and those after it. -/
def readWords (words extra : List String) : Except Refusal Invocation := do
  let isArgument (word : String) : Bool := classify leadingSwitches word matches .argument
  let leading := words.takeWhile fun word => !isArgument word
  for event in events leadingSwitches leading do
    match event with
    | .given .. => throw .help
    | .misuse => throw .misuse
    | .argument _ | .unknown => pure ()
  let invocation ← match words.drop leading.length with
    | "ast" :: rest => Invocation.extract <$> readExtract rest extra
    | "cs" :: rest => Invocation.bind <$> readBind rest
    | _ => throw .misuse
  if leading.isEmpty then return invocation else throw .misuse

/-- What a command line expresses. -/
def read (args : List String) : Except Refusal Invocation :=
  readWords (args.takeWhile (· != "--")) ((args.dropWhile (· != "--")).drop 1)

end CInterop.CommandLine
