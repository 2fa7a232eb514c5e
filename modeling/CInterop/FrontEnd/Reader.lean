import CInterop.FrontEnd.Translation
import CInterop.Json.Basic

/-!
# Reading recorded answers of the C front end

Answers can be recorded as a value: an object with the tables and the answer for the header, and
another one with the answer for the source that types the macros. A member that is absent has the
value it has for most types and entities.
-/

namespace CInterop.FrontEnd.Reader

def text? : Option Json → Option String
  | some (.str text) => some text
  | _ => none

def text (v : Json) (key : String) : String := (text? (v.get? key)).getD ""

def integer? : Option Json → Option Int
  | some (.int n) => some n
  | _ => none

def integer (v : Json) (key : String) (absent : Int) : Int := (integer? (v.get? key)).getD absent

def flag (v : Json) (key : String) : Bool := v.get? key matches some (.bool true)

def list (v : Json) (key : String) : List Json :=
  match v.get? key with
  | some (.arr items) => items
  | _ => []

/-- An index into a table. -/
def index? (v : Option Json) : Option Nat := (integer? v).bind fun n => n.toNat?

def typeRef (v : Json) (key : String) : TypeRef := ⟨index? (v.get? key)⟩

def entityRef (v : Json) (key : String) : EntityRef := ⟨index? (v.get? key)⟩

def typeRefs (v : Json) (key : String) : List TypeRef := (list v key).map fun item => ⟨index? (some item)⟩

def entityRefs (v : Json) (key : String) : List EntityRef :=
  (list v key).map fun item => ⟨index? (some item)⟩

def typeInfo (v : Json) : TypeInfo where
  kind := .ofName (text v "kind")
  spelling := text v "spelling"
  canonical := typeRef v "canonical"
  size := integer v "size" (-1)
  align := integer v "align" (-1)
  pointee := typeRef v "pointee"
  element := typeRef v "element"
  count := integer v "count" (-1)
  named := typeRef v "named"
  declaration := entityRef v "decl"
  fields := entityRefs v "fields"
  result := typeRef v "result"
  parameters := typeRefs v "args"
  isVariadic := flag v "variadic"

/-- A token is recorded as its spelling with the offsets where it begins and ends. -/
def token : Json → SourceToken
  | .arr [.str spelling, .int start, .int stop] => ⟨spelling, start, stop⟩
  | _ => ⟨"", 0, 0⟩

def entity (v : Json) : Entity where
  kind := .ofName (text v "kind")
  spelling := text v "spelling"
  file := text? (v.get? "file")
  line := integer v "line" 0
  column := integer v "col" 0
  isInSystemHeader := flag v "system"
  isStatic := text v "storage" == "STATIC"
  type := typeRef v "type"
  result := typeRef v "result"
  underlying := typeRef v "underlying"
  integerType := typeRef v "enum_type"
  parameters := entityRefs v "args"
  children := entityRefs v "children"
  definition := entityRef v "definition"
  isAnonymous := flag v "anonymous"
  bitOffset := integer v "offset" 0
  bitWidth := integer? (v.get? "bitfield")
  value := integer v "value" 0
  tokens := (list v "tokens").map token

def message (v : Json) : Message where
  rank := integer v "severity" 0
  text := text v "spelling"
  file := text? (v.get? "file")
  line := integer v "line" 0
  column := integer v "col" 0

def translationUnit (v : Json) : TranslationUnit where
  top := entityRefs v "top"
  messages := (list v "diagnostics").map message
  isReadable := !flag v "load_error"

/-- The answers recorded for a header and for the source that types its macros. -/
def translation (unit typing : Json) : Translation where
  types := ((list unit "types").map typeInfo).toArray
  entities := ((list unit "cursors").map entity).toArray
  header := translationUnit unit
  typing := translationUnit typing

end CInterop.FrontEnd.Reader
