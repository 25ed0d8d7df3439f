/-!
# Positions from either end

A position that is not negative counts from the first element of a list, and a
negative one from the end: `-1` is the last element.  Negative positions below
minus the length name no element.
-/

namespace LogicPuzzle

/-- The distance from the start, in a list of a length, that a position counted
from either end denotes.  It may lie beyond the end of the list. -/
def fromStart? (length : Nat) (position : Int) : Option Nat :=
  if 0 ≤ position then some position.toNat
  else if 0 ≤ length + position then some (length + position).toNat
  else none

def fromEitherEnd? {α : Type} (xs : List α) (position : Int) : Option α :=
  (fromStart? xs.length position).bind fun n => xs[n]?

theorem fromStart?_natCast (length n : Nat) : fromStart? length n = some n := by
  simp [fromStart?]

theorem fromStart?_lt {length element : Nat} {position : Int} (within : position < length)
    (found : fromStart? length position = some element) : element < length := by
  grind [fromStart?]

end LogicPuzzle
