import LogicPuzzle.Text.Digit
import LogicPuzzle.Text.Letter

/-!
# Words

A word starts with a letter or an underscore and goes on with letters, numeric
characters and underscores.
-/

namespace LogicPuzzle.Text

def isWordStart (c : Char) : Bool :=
  isLetter c || c == '_'

def isWordPart (c : Char) : Bool :=
  isLetter c || isNumeric c || c == '_'

theorem isWordPart_of_isWordStart {c : Char} (start : isWordStart c = true) :
    isWordPart c = true := by
  cases letter : isLetter c <;> simp_all [isWordStart, isWordPart]

end LogicPuzzle.Text
