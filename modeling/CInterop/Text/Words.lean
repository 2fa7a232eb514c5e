import CInterop.Text.Capital
import CInterop.Text.Digit

/-!
# Words in text

Names are made from arbitrary text by turning every run of characters that cannot stand in a name
into one underscore.
-/

namespace CInterop.Text

/-- The text with every maximal run of other characters than `keep` replaced by one underscore.
`inRun` tells whether the character before belonged to such a run. -/
def underscoredFrom (keep : Char → Bool) : Bool → List Char → List Char
  | _, [] => []
  | inRun, c :: cs =>
    if keep c then c :: underscoredFrom keep false cs
    else if inRun then underscoredFrom keep true cs
    else '_' :: underscoredFrom keep true cs

/-- The text with every maximal run of other characters than `keep` replaced by one underscore. -/
def underscored (keep : Char → Bool) (cs : List Char) : List Char := underscoredFrom keep false cs

/-- The text with every occurrence of a character replaced. -/
def replaceChar (old : Char) (new : List Char) (cs : List Char) : List Char :=
  cs.flatMap fun c => if c = old then new else [c]

/-- The maximal runs of characters that satisfy `keep`. -/
def runsOf (keep : Char → Bool) (cs : List Char) : List (List Char) :=
  (cs.splitBy fun a b => keep a == keep b).filter fun run => run.all keep

end CInterop.Text
