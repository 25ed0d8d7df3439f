import LogicPuzzle.Digits
import LogicPuzzle.Numeral

/-!
# Whole numbers as arguments

The value of an option that asks for a whole number.  Blanks may surround it and
one sign may precede it.  Single underscores may stand between its digits, and a
fraction may follow that has nothing but zeros.  Zeros in front of a number
without a minus sign, and the underscores among them, count for nothing.
-/

namespace LogicPuzzle.Command.WholeNumber

/-- Whether a character may stand between the first zero of a number and the digits that count. -/
def isPadding (c : Char) : Bool :=
  c == '0' || c == '_'

/-- A number without the padding in front of its digits.  When no other digit
follows, the last character of the padding stays. -/
def trimPadding : List Char → List Char
  | '0' :: rest =>
      let others := rest.dropWhile isPadding
      if others.head?.any Char.isDigit then others
      else (rest.takeWhile isPadding).getLastD '0' :: others
  | cs => cs

/-- A number without a fraction of nothing but zeros. -/
def trimFraction (cs : List Char) : List Char :=
  match cs.dropWhile (· != '.') with
  | _ :: fraction => if fraction.all (· == '0') then cs.takeWhile (· != '.') else cs
  | [] => cs

/-- Whether digits are the shortest form of the number that they denote. -/
def isShortest (digits : List Char) : Bool :=
  digits.length == 1 || digits.head? != some '0'

def digits? (cs : List Char) : Option Nat :=
  match Digits.run? Char.isDigit cs with
  | some (digits, []) =>
      if isShortest digits ∧ digits.length ≤ Numeral.digitLimit then
        some (Digits.value 10 digits)
      else none
  | _ => none

def unsigned? (cs : List Char) : Option Nat :=
  digits? (trimFraction (trimPadding cs))

/-- Reads what follows a minus sign: padding does not count as such, but one
underscore may stand before the digits. -/
def negated? : List Char → Option Nat
  | '_' :: cs => digits? (trimFraction cs)
  | cs => digits? (trimFraction cs)

def read? (text : List Char) : Option Int :=
  match Numeral.trim text with
  | '-' :: rest => (negated? rest).map fun n => -(n : Int)
  | '+' :: rest => (unsigned? rest).map fun n => (n : Int)
  | rest => (unsigned? rest).map fun n => (n : Int)

end LogicPuzzle.Command.WholeNumber
