import LogicPuzzle.Table

/-!
# Outcomes

What a search ended with.  Only a solved outcome carries labels: for each record
array its elements, each a table of labels under field names, and for each
scalar array the labels of its elements.
-/

namespace LogicPuzzle

inductive Status where
  | solved
  | noSolution
  | aborted
  deriving DecidableEq, Repr

/-- The end of a search: the assignments tested, the size of the search space, and the labels found. -/
structure Outcome where
  puzzle : String
  status : Status
  iterations : Int
  searchSpace : Int
  records : Table (List (Table String))
  scalars : Table (List String)
  deriving DecidableEq, Repr

namespace Status

def name : Status → String
  | .solved => "solved"
  | .noSolution => "no_solution"
  | .aborted => "aborted"

end Status

namespace Outcome

def solved (outcome : Outcome) : Bool :=
  outcome.status == .solved

end Outcome

end LogicPuzzle
