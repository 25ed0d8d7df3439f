/-!
# Lines

A text is a first line and the lines below it; the newline characters between
them are all that the split drops, so joining the lines gives the text back.
-/

namespace LogicPuzzle.Text

def splitLines : List Char → List Char × List (List Char)
  | [] => ([], [])
  | c :: rest =>
      let below := splitLines rest
      if c = '\n' then ([], below.1 :: below.2) else (c :: below.1, below.2)

/-- All lines of a text; there is always at least one. -/
def lines (text : List Char) : List (List Char) :=
  (splitLines text).1 :: (splitLines text).2

/-- The text whose lines are given: the inverse of `splitLines`. -/
def joinLines (first : List Char) (below : List (List Char)) : List Char :=
  first ++ below.flatMap fun line => '\n' :: line

theorem joinLines_splitLines (text : List Char) :
    joinLines (splitLines text).1 (splitLines text).2 = text := by
  induction text with
  | nil => rfl
  | cons c rest ih =>
      by_cases newline : c = '\n' <;> simp_all [splitLines, joinLines]

/-- Reads a carriage return, alone or before a newline, as a newline. -/
def unifyNewlines : List Char → List Char
  | [] => []
  | '\r' :: '\n' :: rest => '\n' :: unifyNewlines rest
  | c :: rest => (if c = '\r' then '\n' else c) :: unifyNewlines rest

def trimReturns (line : List Char) : List Char :=
  (line.reverse.dropWhile (· == '\r')).reverse

end LogicPuzzle.Text
