import LogicPuzzle.Fault
import LogicPuzzle.Numeral
import LogicPuzzle.Puzzle

/-!
# Reading tokens

A reading consumes tokens from the front of a list and gives a value or fails;
in both cases the tokens left over tell how far it got.  A repetition is a
reading done again and again, by `collect`, for as long as it asks for more.
-/

namespace LogicPuzzle

/-- Why a reading failed.  A fault concerns a token, or the end of the list. -/
inductive Misreading where
  | fault (cause : Fault) (token : Option Token)
  | numeral (text : String)
  deriving DecidableEq, Repr

abbrev Reading (α : Type) := EStateM Misreading (List Token) α

/-- What one round of a repetition gives: an item and the wish for another round, or the end. -/
inductive Round (α ω : Type) where
  | again (item : α)
  | done (last : ω)
  deriving DecidableEq, Repr

namespace Reading

variable {α ω : Type}

def fail (cause : Fault) : Reading α := fun tokens =>
  .error (.fault cause tokens.head?) tokens

def failAt (token : Token) (cause : Fault) : Reading α := fun tokens =>
  .error (.fault cause (some token)) tokens

def startsWith (kind : Kind) (tokens : List Token) : Bool :=
  tokens.head?.any fun token => token.kind == kind

/-- Whether the next token is of a kind; nothing is consumed. -/
def sees (kind : Kind) : Reading Bool := fun tokens =>
  .ok (startsWith kind tokens) tokens

def next : Reading Token := fun tokens =>
  match tokens with
  | [] => .error (.fault .endOfInput none) []
  | token :: rest => .ok token rest

def expect (kind : Kind) : Reading Token := fun tokens =>
  match tokens with
  | [] => .error (.fault (.expected kind none) none) []
  | token :: rest =>
      if token.kind = kind then .ok token rest
      else .error (.fault (.expected kind (some token.kind)) (some token)) (token :: rest)

def accept (kind : Kind) : Reading Bool := fun tokens =>
  if startsWith kind tokens then .ok true (tokens.drop 1) else .ok false tokens

def afterNewlines (tokens : List Token) : List Token :=
  tokens.dropWhile fun token => token.kind == .newline

def skipNewlines : Reading Unit := fun tokens =>
  .ok () (afterNewlines tokens)

/-- Consumes the end of a line and the empty lines after it. -/
def endLine : Reading Unit := do
  let _ ← expect .newline
  skipNewlines

/-- Repeats a round until it is done, at most once for each element of a bound and
once more. -/
def collectWithin (round : Reading (Round α ω)) : List Token → Reading (List α × ω)
  | [] => fun tokens =>
      match round tokens with
      | .error misreading rest => .error misreading rest
      | .ok (.done last) rest => .ok ([], last) rest
      | .ok (.again _) rest => .error (.fault .endOfInput rest.head?) rest
  | _ :: bound => fun tokens =>
      match round tokens with
      | .error misreading rest => .error misreading rest
      | .ok (.done last) rest => .ok ([], last) rest
      | .ok (.again item) rest =>
          match collectWithin round bound rest with
          | .error misreading rest => .error misreading rest
          | .ok (items, last) rest => .ok (item :: items, last) rest

/-- Repeats a round until it is done.  A round that asks for another one consumes a
token, so the tokens are bound enough. -/
def collect (round : Reading (Round α ω)) : Reading (List α × ω) := fun tokens =>
  collectWithin round tokens tokens

end Reading

end LogicPuzzle
