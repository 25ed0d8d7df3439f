import LogicPuzzle.Diagnostic
import LogicPuzzle.Text.Quoted

/-!
# Tokens

The words of a puzzle text.  Besides the words that stand in the text there are
layout tokens: the end of a line, and the start and the end of an indented block.
-/

namespace LogicPuzzle

inductive Kind where
  | identifier
  | number
  | var
  | unique
  | equals
  | differs
  | yields
  | dot
  | comma
  | colon
  | openBrace
  | closeBrace
  | openBracket
  | closeBracket
  | newline
  | indent
  | dedent
  deriving DecidableEq, Repr

namespace Kind

def symbol : Kind → String
  | .identifier => "IDENTIFIER"
  | .number => "NUMBER"
  | .var => "var"
  | .unique => "unique"
  | .equals => "="
  | .differs => "!="
  | .yields => "=>"
  | .dot => "."
  | .comma => ","
  | .colon => ":"
  | .openBrace => "\x7b"
  | .closeBrace => "\x7d"
  | .openBracket => "["
  | .closeBracket => "]"
  | .newline => "NEWLINE"
  | .indent => "INDENT"
  | .dedent => "DEDENT"

/-- The kind of a word of letters and digits: the two keywords, else an identifier. -/
def ofWord (word : List Char) : Kind :=
  if word = ['v', 'a', 'r'] then .var
  else if word = ['u', 'n', 'i', 'q', 'u', 'e'] then .unique
  else .identifier

end Kind

structure Token where
  kind : Kind
  text : String
  position : Position
  deriving DecidableEq, Repr

namespace Token

def newline (line column : Nat) : Token :=
  ⟨.newline, "\\n", ⟨line, column⟩⟩

def indent (line : Nat) : Token :=
  ⟨.indent, "", ⟨line, 1⟩⟩

def dedent (line : Nat) : Token :=
  ⟨.dedent, "", ⟨line, 1⟩⟩

def listing (token : Token) : String :=
  "Token(" ++ token.kind.symbol ++ ", " ++ Text.quoted token.text ++ ", " ++
    toString token.position.line ++ ":" ++ toString token.position.column ++ ")"

end Token

end LogicPuzzle
