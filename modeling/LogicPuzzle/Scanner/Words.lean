import LogicPuzzle.Text.Word
import LogicPuzzle.Token

/-!
# The words of a line

A line is cut into pieces from the left: gaps, operators, punctuation marks,
words and numbers.  Each piece is as long as it can be, and the cut stops at the
first character that starts no piece.
-/

namespace LogicPuzzle

def isGap (c : Char) : Bool :=
  c == ' ' || c == '\t' || c == '\r'

def markKind? : Char → Option Kind
  | '=' => some .equals
  | '.' => some .dot
  | ',' => some .comma
  | ':' => some .colon
  | '\x7b' => some .openBrace
  | '\x7d' => some .closeBrace
  | '[' => some .openBracket
  | ']' => some .closeBracket
  | _ => none

/-- A piece at the start of some characters, and the characters after it.  A gap has no kind. -/
structure Piece where
  kind : Option Kind
  text : List Char
  rest : List Char
  deriving DecidableEq, Repr

namespace Piece

def startingWith? (c : Char) (rest : List Char) : Option Piece :=
  if isGap c then some ⟨none, [c], rest⟩
  else match markKind? c with
    | some kind => some ⟨some kind, [c], rest⟩
    | none =>
        if Text.isWordStart c then
          let word := c :: rest.takeWhile Text.isWordPart
          some ⟨some (Kind.ofWord word), word, rest.dropWhile Text.isWordPart⟩
        else if Text.isDigit c then
          some ⟨some .number, c :: rest.takeWhile Text.isDigit, rest.dropWhile Text.isDigit⟩
        else none

/-- The longest piece at the start of some characters. -/
def first? : List Char → Option Piece
  | [] => none
  | '=' :: '>' :: rest => some ⟨some .yields, ['=', '>'], rest⟩
  | '!' :: '=' :: rest => some ⟨some .differs, ['!', '='], rest⟩
  | c :: rest => startingWith? c rest

theorem startingWith?_text_append_rest {c : Char} {cs : List Char} {piece : Piece}
    (found : startingWith? c cs = some piece) :
    piece.text ++ piece.rest = c :: cs ∧ piece.text ≠ [] := by
  unfold startingWith? at found
  split at found
  · cases found
    simp
  · split at found
    · cases found
      simp
    · split at found
      · cases found
        simp
      · split at found
        · cases found
          simp
        · simp at found

/-- A piece and what follows it are the characters read, and no piece is empty. -/
theorem first?_text_append_rest {cs : List Char} {piece : Piece} (found : first? cs = some piece) :
    piece.text ++ piece.rest = cs ∧ piece.text ≠ [] := by
  unfold first? at found
  split at found
  · simp at found
  · cases found
    simp
  · cases found
    simp
  · exact startingWith?_text_append_rest found

theorem rest_length_lt {cs : List Char} {piece : Piece} (found : first? cs = some piece) :
    piece.rest.length < cs.length := by
  obtain ⟨same, nonempty⟩ := first?_text_append_rest found
  have longer := List.length_pos_iff.mpr nonempty
  rw [← same, List.length_append]
  omega

end Piece

/-- The words found in a line, the column reached, and the characters that start no piece. -/
structure Words where
  tokens : List Token
  column : Nat
  rest : List Char
  deriving DecidableEq, Repr

namespace Words

def read (line column : Nat) (cs : List Char) : Words :=
  match _found : Piece.first? cs with
  | none => ⟨[], column, cs⟩
  | some piece =>
      let later := read line (column + piece.text.length) piece.rest
      match piece.kind with
      | none => later
      | some kind =>
          { later with
            tokens := ⟨kind, String.ofList piece.text, ⟨line, column⟩⟩ :: later.tokens }
termination_by cs.length
decreasing_by exact Piece.rest_length_lt _found

end Words

end LogicPuzzle
