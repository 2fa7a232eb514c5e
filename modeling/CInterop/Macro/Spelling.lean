import CInterop.Text.Digit

/-!
# Replacement text

A macro's body is stored as the spellings of its tokens one after the other, with a blank only where
two word characters, or a word character and a quote, would meet.
-/

namespace CInterop.Macro

/-- Whether a blank goes between text that ends in `last` and a spelling that begins with `first`. -/
def needsBlank (last first : Char) : Bool :=
  Text.isWordChar last && (Text.isWordChar first || first == '\'' || first == '"')

/-- The text so far with one more spelling. -/
def appendSpelling (text spelling : List Char) : List Char :=
  match text.getLast?, spelling.head? with
  | some last, some first => text ++ (if needsBlank last first then ' ' :: spelling else spelling)
  | _, _ => text ++ spelling

/-- The text of a sequence of spellings. -/
def joinSpellings (spellings : List String) : String :=
  String.ofList (spellings.foldl (fun text spelling => appendSpelling text spelling.toList) [])

end CInterop.Macro
