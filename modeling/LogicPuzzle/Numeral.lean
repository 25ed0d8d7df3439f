import LogicPuzzle.Text.Digit

/-!
# Numerals

Reading a whole number from text.  Blanks around the number and one sign before
it are allowed, and single underscores may stand between two digits.  Digits of
any script count, each by its place value.  A numeral of more than
`Numeral.digitLimit` digits, leading zeros included, is not read, and a number
of more digits is not written.
-/

namespace LogicPuzzle.Numeral

/-- The longest numeral that is read or written. -/
def digitLimit : Nat := 4300

def isBlank (c : Char) : Bool :=
  let n := c.toNat
  (9 ≤ n && n ≤ 13) || n == 32 || n == 0x85 || n == 0xA0 || n == 0x1680 ||
    (0x2000 ≤ n && n ≤ 0x200A) || n == 0x2028 || n == 0x2029 || n == 0x202F || n == 0x205F ||
    n == 0x3000

def trim (text : List Char) : List Char :=
  ((text.dropWhile isBlank).reverse.dropWhile isBlank).reverse

/-- The place values of a non-empty run of digits, underscores between digits left out. -/
def digits? : List Char → Option (List Nat)
  | [] => none
  | [c] => (Text.decimalValue? c).map ([·])
  | c :: '_' :: rest => do
      let value ← Text.decimalValue? c
      let values ← digits? rest
      return value :: values
  | c :: rest => do
      let value ← Text.decimalValue? c
      let values ← digits? rest
      return value :: values

def ofDigits (values : List Nat) : Nat :=
  values.foldl (fun n value => 10 * n + value) 0

def readNat? (text : List Char) : Option Nat := do
  let values ← digits? text
  if values.length ≤ digitLimit then some (ofDigits values) else none

/-- Reads a numeral with blanks around it and at most one sign. -/
def read? (text : List Char) : Option Int :=
  match trim text with
  | '-' :: rest => (readNat? rest).map fun n => -(n : Int)
  | '+' :: rest => (readNat? rest).map fun n => (n : Int)
  | rest => (readNat? rest).map fun n => (n : Int)

/-- Whether a number has more digits than a numeral may have. -/
def tooLong (n : Int) : Bool :=
  digitLimit < (Nat.toDigits 10 n.natAbs).length

end LogicPuzzle.Numeral

/-- A number that can be written and read: it has no sign and is not too long. -/
def LogicPuzzle.isWritableNumber (n : Int) : Bool :=
  0 ≤ n && !Numeral.tooLong n

theorem LogicPuzzle.isWritableNumber_iff {n : Int} :
    isWritableNumber n = true ↔ 0 ≤ n ∧ Numeral.tooLong n = false := by
  simp [isWritableNumber]
