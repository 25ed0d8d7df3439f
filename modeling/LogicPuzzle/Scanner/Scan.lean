import LogicPuzzle.Scanner.Levels
import LogicPuzzle.Scanner.Words

/-!
# Scanning lines

Scanning goes line by line.  It cuts the rest of the current line into words,
and at each line below it emits the end of the line above, lets the indentation
act on the open levels unless the line is blank, and cuts that line into words.
It stops at the end of the text or at the first failure.
-/

namespace LogicPuzzle

/-- How far a scan got: the tokens found, the place reached, the characters and
lines not read, the levels open there, and the failure that ended it, if any. -/
structure Scan where
  tokens : List Token
  line : Nat
  column : Nat
  here : List Char
  below : List (List Char)
  levels : List Nat
  failure : Option Failure
  deriving DecidableEq, Repr

namespace Scan

/-- Whether nothing but the end of a line follows its indentation. -/
def isBlankBody (body : List Char) : Bool :=
  body == [] || body == ['\r']

theorem isBlankBody_of_solid {c : Char} (solid : isGap c = false) (cs : List Char) :
    isBlankBody (c :: cs) = false := by
  have carriage : (c == '\r') = false := (Bool.or_eq_false_iff.mp solid).2
  simp [isBlankBody, carriage]

/-- What a new line does to the open levels; a blank line does nothing. -/
def lineShift (line : Nat) (levels : List Nat) (characters : List Char) : Shift :=
  if isBlankBody (characters.dropWhile isIndentation) then ⟨[], levels, none⟩
  else Shift.ofWidth line levels (indentationWidth (characters.takeWhile isIndentation))

theorem lineShift_blank {characters : List Char}
    (blank : isBlankBody (characters.dropWhile isIndentation) = true) (line : Nat)
    (levels : List Nat) : lineShift line levels characters = ⟨[], levels, none⟩ := by
  rw [lineShift, blank]
  rfl

/-- A line that is not blank is measured against the open levels. -/
theorem lineShift_of_full {characters : List Char}
    (full : isBlankBody (characters.dropWhile isIndentation) = false) (line : Nat)
    (levels : List Nat) : lineShift line levels characters =
      Shift.ofWidth line levels (indentationWidth (characters.takeWhile isIndentation)) := by
  rw [lineShift, full]
  rfl

theorem mem_lineShift {line : Nat} {levels : List Nat} {characters : List Char} {token : Token}
    (member : token ∈ (lineShift line levels characters).tokens) :
    token = Token.indent line ∨ token = Token.dedent line := by
  unfold lineShift at member
  split at member
  · cases member
  · exact Shift.mem_ofWidth member

def unreadFailure : List Char → Option Failure
  | [] => none
  | c :: _ => some (Shift.unplaced (.unexpectedCharacter c))

def run (levels : List Nat) (line column : Nat) (here : List Char) : List (List Char) → Scan
  | [] =>
      let words := Words.read line column here
      ⟨words.tokens, line, words.column, words.rest, [], levels, unreadFailure words.rest⟩
  | next :: below =>
      let words := Words.read line column here
      match unreadFailure words.rest with
      | some failure =>
          ⟨words.tokens, line, words.column, words.rest, next :: below, levels, some failure⟩
      | none =>
          let shift := lineShift (line + 1) levels next
          let body := next.dropWhile isIndentation
          let start := 1 + (next.takeWhile isIndentation).length
          let tokens := words.tokens ++ Token.newline line words.column :: shift.tokens
          match shift.failure with
          | some failure => ⟨tokens, line + 1, start, body, below, shift.levels, some failure⟩
          | none =>
              let later := run shift.levels (line + 1) start body below
              { later with tokens := tokens ++ later.tokens }

/-- The tokens that end a text: every open block is closed and the last line ends. -/
def ending (levels : List Nat) (line column : Nat) : List Token :=
  (levels.drop 1).map (fun _ => Token.dedent line) ++ [Token.newline line column]

end Scan

end LogicPuzzle
