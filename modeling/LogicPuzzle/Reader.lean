import LogicPuzzle.Reading.Statement
import LogicPuzzle.Scanner

/-!
# Reading puzzles

A reader holds the tokens of a text and how many of them are left.  It knows the
file and, when at hand, the text itself, and so gives every fault a place: that
of the token it concerns, or of the last token when the tokens are used up.
-/

namespace LogicPuzzle

/-- The tokens of a text, and those among them that have not been consumed. -/
structure Reader where
  file : Path
  source : Option (List Char)
  tokens : List Token
  rest : List Token
  deriving DecidableEq, Repr

namespace Reader

def ofTokens (file : Path) (source : Option String) (tokens : List Token) : Reader where
  file := file
  source := source.map (·.toList)
  tokens := tokens
  rest := tokens

def offset (reader : Reader) : Nat :=
  reader.tokens.length - reader.rest.length

/-- The token at a distance from the next one; a place before the first token
counts from the last. -/
def peek (reader : Reader) (distance : Int) : Except Failure (Option Token) :=
  let place := reader.offset + distance
  if reader.tokens.length ≤ place then .ok none
  else match fromEitherEnd? reader.tokens place with
    | some token => .ok (some token)
    | none => .error .outOfRange

def siteOf (reader : Reader) (token : Option Token) : Site :=
  let position : Position :=
    match token <|> reader.tokens.getLast? with
    | some token => token.position
    | none => ⟨1, 1⟩
  ⟨reader.file, position, reader.source.bind (Scanner.lineOf? · position.line)⟩

/-- A diagnostic at a token, at the next token, or at the last one. -/
def diagnose {κ : Type} (reader : Reader) (cause : κ) (token : Option Token) : Diagnostic κ :=
  ⟨cause, some (reader.siteOf (token <|> reader.rest.head?))⟩

def placed (reader : Reader) : Misreading → Failure
  | .fault cause token => .fault ⟨cause, some (reader.siteOf token)⟩
  | .numeral text => .numeral text

def read {α : Type} (reader : Reader) (reading : Reading α) : Except Failure α × Reader :=
  match reading reader.rest with
  | .ok value rest => (.ok value, { reader with rest := rest })
  | .error misreading rest => (.error (reader.placed misreading), { reader with rest := rest })

def stopNotice (reader : Reader) (stop : Reading.Stop) : Notice :=
  .stopped reader.file (reader.siteOf stop.2).position.line stop.1.message

def puzzle (reader : Reader) : Except Failure (Puzzle × List Notice) × Reader :=
  let (result, after) := reader.read Reading.statements
  (result.map fun (statements, stop) =>
    (Puzzle.ofStatements (some reader.file) statements, (stop.map reader.stopNotice).toList),
   after)

end Reader

def readPuzzle (file : Path) (text : String) : Except Failure (Puzzle × List Notice) := do
  let tokens ← tokenize file text
  (Reader.ofTokens file (some text) tokens).puzzle.1

end LogicPuzzle
