import LogicPuzzle.Judgement
import LogicPuzzle.Outcome

/-!
# Search

A search walks through all assignments of a model like an odometer whose first
wheel turns fastest.  It can be driven by single steps or by `solve`, which
starts at the assignment of all zeros and ends at the first assignment that
satisfies the model, at a limit, or when every assignment has been tested.
-/

namespace LogicPuzzle

/-- A model, the assignment the search stands at, and how many assignments it has tested. -/
structure Search where
  model : Model
  assignment : Assignment
  iterations : Int
  deriving DecidableEq, Repr

namespace Search

/-- A search at the assignment of all zeros. -/
def ofModel (model : Model) : Search :=
  ⟨model, model.cells.map fun _ => 0, 0⟩

def reset (search : Search) : Search :=
  ofModel search.model

/-- Turns the first wheel by one, and the next one whenever a wheel comes back
to its first place; says whether some wheel did not. -/
def turn : List Cell → Assignment → Bool × Assignment
  | cell :: cells, place :: places =>
      if place + 1 < cell.size then (true, (place + 1) :: places)
      else
        let (moved, turned) := turn cells places
        (moved, 0 :: turned)
  | _, places => (false, places)

def advance (search : Search) : Bool × Search :=
  let (moved, turned) := turn search.model.cells search.assignment
  (moved, { search with assignment := turned })

def check (search : Search) : Except Unresolved Bool :=
  search.model.check search.assignment

def count (search : Search) : Search :=
  { search with iterations := search.iterations + 1 }

/-- Tests assignments from the current one on.  The first argument bounds the
number of tests; the size of the search space is bound enough. -/
def seek (limit : Option Int) : Nat → Search → Except Unresolved Status × Search
  | 0, search => (.ok .noSolution, search)
  | bound + 1, search =>
      if limit.any fun most => most ≤ search.iterations then (.ok .aborted, search)
      else match search.check with
        | .error unresolved => (.error unresolved, search.count)
        | .ok true => (.ok .solved, search.count)
        | .ok false =>
            match search.count.advance with
            | (true, next) => seek limit bound next
            | (false, last) => (.ok .noSolution, last)

/-- A limit that is not positive is no limit. -/
def effectiveLimit (limit : Option Int) : Option Int :=
  limit.filter fun most => 0 < most

def labelOf (search : Search) (number : Nat) : String :=
  match search.model.cells[number]? with
  | some cell => (cell.domain.labelAt? (search.assignment.placeOf number)).getD ""
  | none => ""

def elementLabels (search : Search) (start : Nat) (array : RecordArray) (element : Nat) :
    Table String :=
  array.fields.names.mapIdx fun field name =>
    (name, search.labelOf (start + array.cellNumber element field))

def recordLabels (search : Search) (start : Nat) (array : RecordArray) : List (Table String) :=
  (List.range array.size).map (search.elementLabels start array)

def scalarLabels (search : Search) (start : Nat) (array : ScalarArray) : List String :=
  (List.range' start array.size).map search.labelOf

def labelsOf? (search : Search) (name : String) : Option (List (Table String)) :=
  (search.model.record? name).map fun (start, array) => search.recordLabels start array

def outcome (search : Search) (status : Status) : Outcome where
  puzzle := Puzzle.nameOf search.model.file
  status := status
  iterations := search.iterations
  searchSpace := search.model.searchSpace
  records :=
    if status = .solved then
      search.model.numberedRecords.map fun (start, array) =>
        (array.name, search.recordLabels start array)
    else []
  scalars :=
    if status = .solved then
      search.model.numberedScalars.map fun (start, array) =>
        (array.name, search.scalarLabels start array)
    else []

/-- Searches for the first assignment that satisfies the model, and tests at most
as many as the limit says. -/
def solve (search : Search) (limit : Option Int) : Except Unresolved Outcome × Search :=
  let (result, last) := seek (effectiveLimit limit) search.model.searchSpace search.reset
  (result.map last.outcome, last)

end Search

def Model.solve (model : Model) (limit : Option Int) : Except Unresolved Outcome :=
  ((Search.ofModel model).solve limit).1

end LogicPuzzle
