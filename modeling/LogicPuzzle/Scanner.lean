import LogicPuzzle.EitherEnd
import LogicPuzzle.Scanner.Scan
import LogicPuzzle.Text.Lines

/-!
# The scanner

A scanner stands at a place of a text and holds the levels open there and the
tokens found before it.  It can be moved by single characters, by runs of
characters, or to the end of the text by `tokenize`.  Every operation that can
fail gives back the scanner at the place where it failed.
-/

namespace LogicPuzzle

structure Scanner where
  file : Path
  text : List Char
  line : Nat
  column : Nat
  here : List Char
  below : List (List Char)
  levels : List Nat
  tokens : List Token
  deriving DecidableEq, Repr

namespace Scanner

def ofText (file : Path) (text : String) : Scanner where
  file := file
  text := text.toList
  line := 1
  column := 1
  here := (Text.splitLines text.toList).1
  below := (Text.splitLines text.toList).2
  levels := [0]
  tokens := []

def unread (scanner : Scanner) : List Char :=
  Text.joinLines scanner.here scanner.below

def offset (scanner : Scanner) : Nat :=
  scanner.text.length - scanner.unread.length

def current? (scanner : Scanner) : Option Char :=
  scanner.unread.head?

/-- The character at a distance from the next one; a place before the start of
the text counts from its end. -/
def peek (scanner : Scanner) (distance : Int) : Except Failure (Option Char) :=
  let place := scanner.offset + distance
  if scanner.text.length ≤ place then .ok none
  else match fromEitherEnd? scanner.text place with
    | some c => .ok (some c)
    | none => .error .outOfRange

def advance (scanner : Scanner) : Scanner :=
  match scanner.here, scanner.below with
  | _ :: rest, _ => { scanner with here := rest, column := scanner.column + 1 }
  | [], next :: below =>
      { scanner with here := next, below := below, line := scanner.line + 1, column := 1 }
  | [], [] => scanner

/-- A line of a text, without the carriage returns at its end. -/
def lineOf? (text : List Char) (line : Int) : Option String :=
  if 1 ≤ line then
    ((Text.lines text)[(line - 1).toNat]?).map fun cs => String.ofList (Text.trimReturns cs)
  else none

def sourceLine? (scanner : Scanner) (line : Int) : Option String :=
  lineOf? scanner.text line

def readRun (scanner : Scanner) (ofClass : Char → Bool) : List Char × Scanner :=
  let run := scanner.here.takeWhile ofClass
  (run, { scanner with
    here := scanner.here.dropWhile ofClass, column := scanner.column + run.length })

def readNumber (scanner : Scanner) : String × Scanner :=
  let (run, after) := scanner.readRun Text.isDigit
  (String.ofList run, after)

def readWord (scanner : Scanner) : String × Scanner :=
  let (run, after) := scanner.readRun Text.isWordPart
  (String.ofList run, after)

def readIndentation (scanner : Scanner) : Nat × Scanner :=
  let (run, after) := scanner.readRun isIndentation
  (indentationWidth run, after)

def site (scanner : Scanner) : Site where
  file := scanner.file
  position := ⟨scanner.line, scanner.column⟩
  snippet := scanner.sourceLine? scanner.line

def placed (scanner : Scanner) : Failure → Failure
  | .fault diagnostic => .fault { diagnostic with site := some scanner.site }
  | failure => failure

def shiftTo (scanner : Scanner) (width : Int) : Except Failure Unit × Scanner :=
  let shift := Shift.ofWidth scanner.line scanner.levels width
  let after :=
    { scanner with levels := shift.levels, tokens := scanner.tokens ++ shift.tokens }
  match shift.failure with
  | some failure => (.error (after.placed failure), after)
  | none => (.ok (), after)

def moveTo (scanner : Scanner) (scan : Scan) : Scanner :=
  { scanner with
    line := scan.line, column := scan.column, here := scan.here, below := scan.below,
    levels := scan.levels, tokens := scanner.tokens ++ scan.tokens }

def close (scanner : Scanner) : Scanner :=
  { scanner with
    levels := scanner.levels.drop (scanner.levels.length - 1)
    tokens := scanner.tokens ++ Scan.ending scanner.levels scanner.line scanner.column }

def tokenize (scanner : Scanner) : Except Failure (List Token) × Scanner :=
  let scan := Scan.run scanner.levels scanner.line scanner.column scanner.here scanner.below
  let reached := scanner.moveTo scan
  match scan.failure with
  | some failure => (.error (reached.placed failure), reached)
  | none => (.ok reached.close.tokens, reached.close)

end Scanner

def tokenize (file : Path) (text : String) : Except Failure (List Token) :=
  (Scanner.ofText file text).tokenize.1

end LogicPuzzle
