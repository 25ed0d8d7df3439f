/-!
# Digits

Runs of digits.  Single underscores may stand between two digits of a run and do
not count.
-/

namespace LogicPuzzle.Digits

def valueOf? (c : Char) : Option Nat :=
  if '0' ≤ c ∧ c ≤ '9' then some (c.toNat - '0'.toNat)
  else if 'a' ≤ c ∧ c ≤ 'f' then some (c.toNat - 'a'.toNat + 10)
  else if 'A' ≤ c ∧ c ≤ 'F' then some (c.toNat - 'A'.toNat + 10)
  else none

def more (isDigit : Char → Bool) : List Char → List Char × List Char
  | [] => ([], [])
  | '_' :: c :: rest =>
      if isDigit c then
        let (digits, behind) := more isDigit rest
        (c :: digits, behind)
      else ([], '_' :: c :: rest)
  | c :: rest =>
      if isDigit c then
        let (digits, behind) := more isDigit rest
        (c :: digits, behind)
      else ([], c :: rest)

def run? (isDigit : Char → Bool) : List Char → Option (List Char × List Char)
  | [] => none
  | c :: rest =>
      if isDigit c then
        let (digits, behind) := more isDigit rest
        some (c :: digits, behind)
      else none

def value (base : Nat) (digits : List Char) : Nat :=
  digits.foldl (fun n c => base * n + (valueOf? c).getD 0) 0

def fixed? (count : Nat) (cs : List Char) : Option (Nat × List Char) :=
  let digits := cs.take count
  if digits.length = count ∧ digits.all Char.isDigit then
    some (value 10 digits, cs.drop count)
  else none

end LogicPuzzle.Digits
