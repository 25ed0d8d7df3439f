import LogicPuzzle.Token

/-!
# Faults of a puzzle text

Everything that can be wrong with the text of a puzzle, from a character that
starts no word to a rule without consequences.
-/

namespace LogicPuzzle

inductive Fault where
  | unexpectedCharacter (c : Char)
  | unevenIndentation (width : Int)
  | unmatchedIndentation (level : Nat) (width : Int)
  | expected (wanted : Kind) (found : Option Kind)
  | endOfInput
  | missingComparison
  | missingBody (name : String)
  | duplicateLabel (label domain : String)
  | missingConsequent
  deriving DecidableEq, Repr

namespace Fault

def indentStep : Nat := 4

def message : Fault → String
  | .unexpectedCharacter c =>
      "Unexpected character: " ++ Text.quoted (String.singleton c)
  | .unevenIndentation width =>
      "Indentation must be a multiple of " ++ toString indentStep ++ " (got " ++
        toString width ++ ")"
  | .unmatchedIndentation level width =>
      "Unmatched indentation (expected " ++ toString level ++ " spaces, got " ++
        toString width ++ ")"
  | .expected wanted none =>
      "Expected " ++ wanted.symbol ++ ", got end of input"
  | .expected wanted (some found) =>
      "Expected " ++ wanted.symbol ++ ", got " ++ found.symbol
  | .endOfInput => "Unexpected end of input"
  | .missingComparison => "Expected '=' or '!='"
  | .missingBody name => "Expected '\x7b' or '[' in definition of '" ++ name ++ "'"
  | .duplicateLabel label domain =>
      "Duplicate label '" ++ label ++ "' in domain '" ++ domain ++ "'"
  | .missingConsequent => "Expected at least one consequent after '=>'"

instance : Wording Fault where
  message := message

end Fault

/-- Why reading a puzzle text ended without a result: a fault at a place of the
text, digits that denote no number, or a demand for something that lies before
the first element of what is read. -/
inductive Failure where
  | fault (diagnostic : Diagnostic Fault)
  | numeral (text : String)
  | outOfRange
  deriving DecidableEq, Repr

end LogicPuzzle
