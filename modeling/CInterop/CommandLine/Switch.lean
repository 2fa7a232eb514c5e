import CInterop.Text.Digit

/-!
# Switches on a command line

A command takes switches and plain arguments in any order. A switch has a short name of one dash and a
letter, a long name of two dashes and a word, or both. A long name may be cut short as long as only one
name begins with it. A value follows as the next word, or in the same word: after an equals sign, or
directly after a short name. Switches without values can share a dash.
-/

namespace CInterop.CommandLine

/-- A switch with its names and with what it means to the command. -/
structure Switch (α : Type) where
  names : List String
  takesValue : Bool
  meaning : α

variable {α : Type}

/-- What a word of the command line is. -/
inductive Word (α : Type) where
  | argument
  /-- A switch by its short or its long name, perhaps with more in the same word, which may begin with
  an equals sign. -/
  | switch (switch : Switch α) (isShort : Bool) (attached : Option (Bool × List Char))
  | unknown
  /-- The beginning of several long names. -/
  | ambiguous

/-- The switch of that name. -/
def named? (switches : List (Switch α)) (name : List Char) : Option (Switch α) :=
  switches.find? fun s => s.names.contains (String.ofList name)

/-- Whether a word is the name of a switch with one dash. -/
def isShortName : List Char → Bool
  | '-' :: '-' :: _ => false
  | _ => true

/-- A word cut at its first equals sign. -/
def cutAtEquals (word : List Char) : List Char × Option (List Char) :=
  (word.takeWhile (· != '='), ((word.dropWhile (· != '=')).tail?))

/-- The switches with a name that begins like the word up to its equals sign. -/
def beginningWith (switches : List (Switch α)) (start : List Char) : List (Switch α) :=
  switches.flatMap fun s => (s.names.filter fun name => start.isPrefixOf name.toList).map fun _ => s

/-- Whether a word is a negative number, which is an argument. A line end after it does not count. -/
def isNegativeNumber (word : List Char) : Bool :=
  let isDigit (c : Char) : Bool := (Text.decimalValue? c).isSome
  let bare := if word.getLast? = some '\n' then word.dropLast else word
  match bare with
  | '-' :: number =>
    match number.dropWhile isDigit with
    | [] => number != []
    | '.' :: fraction => fraction != [] && fraction.all isDigit
    | _ => false
  | _ => false

/-- What a word with a dash is that is no complete name of a switch. -/
def classifyPartial (switches : List (Switch α)) (word : List Char) : Word α :=
  let found : List (Word α) := match word with
    | '-' :: '-' :: _ =>
      let (start, value) := cutAtEquals word
      (beginningWith switches start).map fun s => .switch s false (value.map fun v => (true, v))
    | _ => ((named? switches (word.take 2)).map fun s =>
      Word.switch s true (some (false, word.drop 2))).toList
  match found with
  | [one] => one
  | _ :: _ :: _ => .ambiguous
  | [] => if isNegativeNumber word || word.contains ' ' then .argument else .unknown

/-- What a word is to a command with the given switches. -/
def classify (switches : List (Switch α)) (text : String) : Word α :=
  let word := text.toList
  match word with
  | '-' :: _ :: _ =>
    match named? switches word with
    | some s => .switch s (isShortName word) none
    | none =>
      match cutAtEquals word with
      | (name, some value) =>
        match named? switches name with
        | some s => .switch s (isShortName name) (some (true, value))
        | none => classifyPartial switches word
      | (_, none) => classifyPartial switches word
  | _ => .argument

/-- What a command line says, one thing after the other. -/
inductive Event (α : Type) where
  /-- A switch with its value, which is empty for a switch without one. -/
  | given (meaning : α) (value : String)
  | argument (text : String)
  | unknown
  /-- Something that no command line can say; nothing comes after it. -/
  | misuse

/-- What a word with switches says. -/
inductive Reading (α : Type) where
  | complete (events : List (Event α))
  /-- The value of the last switch is the next word. -/
  | needsValue (events : List (Event α)) (meaning : α)
  | misuse

/-- The reading with one more event in front. -/
def Reading.after (event : Event α) : Reading α → Reading α
  | complete events => complete (event :: events)
  | needsValue events meaning => needsValue (event :: events) meaning
  | misuse => misuse

/-- What a switch says with nothing else in the word. -/
def Switch.alone (s : Switch α) : Reading α :=
  if s.takesValue then .needsValue [] s.meaning else .complete [.given s.meaning ""]

/-- What a switch says with more in the word. For a switch with a value this is the value; otherwise
it has to be the letters of more switches. -/
def readCluster (switches : List (Switch α)) (s : Switch α) (afterEquals : Bool) :
    List Char → Reading α
  | [] => if s.takesValue then .complete [.given s.meaning ""] else .misuse
  | c :: rest =>
    if s.takesValue then .complete [.given s.meaning (String.ofList (c :: rest))]
    else if afterEquals || c = '-' then .misuse
    else
      let more := match named? switches ['-', c] with
        | none => Reading.complete [.unknown]
        | some next =>
          match rest with
          | [] => next.alone
          | '=' :: value => readCluster switches next true value
          | value => readCluster switches next false value
      more.after (.given s.meaning "")

/-- What a switch says. -/
def readSwitch (switches : List (Switch α)) (s : Switch α) (isShort : Bool) :
    Option (Bool × List Char) → Reading α
  | none => s.alone
  | some (afterEquals, text) =>
    if isShort || s.takesValue then readCluster switches s afterEquals text else .misuse

/-- What classified words say. -/
def eventsOf (switches : List (Switch α)) : List (String × Word α) → List (Event α)
  | [] => []
  | (text, .argument) :: rest => .argument text :: eventsOf switches rest
  | (_, .unknown) :: rest => .unknown :: eventsOf switches rest
  | (_, .ambiguous) :: _ => [.misuse]
  | (_, .switch s isShort attached) :: rest =>
    match readSwitch switches s isShort attached with
    | .complete events => events ++ eventsOf switches rest
    | .misuse => [.misuse]
    | .needsValue events meaning =>
      match rest with
      | (value, .argument) :: others =>
        events ++ .given meaning value :: eventsOf switches others
      | _ => [.misuse]

/-- What words say to a command with the given switches. -/
def events (switches : List (Switch α)) (words : List String) : List (Event α) :=
  let classified := words.map fun word => (word, classify switches word)
  if classified.any fun w => w.2 matches .ambiguous then [.misuse]
  else eventsOf switches classified

end CInterop.CommandLine
