import LogicPuzzle.Outcome

/-!
# Reports

The text report of an outcome.  A solution is listed one label a line, record
arrays before scalar arrays and both sorted by name, with an empty line after
each element of a record array.  A field order selects and orders the fields of
the record array of its name; other arrays show all fields as declared.
-/

namespace LogicPuzzle.Report

/-- For names of record arrays, the fields to show. -/
abbrev FieldOrder := Table (List String)

def shownFields (orders : FieldOrder) (array : String) (fields : List String) : List String :=
  match Table.find? array orders with
  | none => fields
  | some order => order.filter fun field => field ∈ fields

def sorted {β : Type} (table : Table β) : Table β :=
  List.mergeSort table fun first second => decide (first.1 ≤ second.1)

def line (place label : String) : String :=
  place ++ " = " ++ label

def elementName (array : String) (index : Nat) : String :=
  array ++ "[" ++ toString index ++ "]"

def elementLines (orders : FieldOrder) (array : String) (index : Nat) (labels : Table String) :
    List String :=
  (shownFields orders array labels.names).map (fun field =>
    line (elementName array index ++ "." ++ field) ((Table.find? field labels).getD "")) ++ [""]

def recordLines (orders : FieldOrder) (array : String × List (Table String)) : List String :=
  (array.2.mapIdx (elementLines orders array.1)).flatten

def scalarLines (array : String × List String) : List String :=
  array.2.mapIdx fun index label => line (elementName array.1 index) label

def solutionLines (orders : FieldOrder) (outcome : Outcome) : List String :=
  "SUCCESS:" ::
    ((sorted outcome.records).flatMap (recordLines orders) ++
      (sorted outcome.scalars).flatMap scalarLines)

def render (orders : FieldOrder) (outcome : Outcome) : String :=
  match outcome.status with
  | .noSolution => "NO SOLUTION FOUND.\n"
  | .aborted =>
      "SEARCH ABORTED after " ++ toString outcome.iterations ++ " of " ++
        toString outcome.searchSpace ++ " assignments.\n"
  | .solved => "\n".intercalate (solutionLines orders outcome) ++ "\n"

end LogicPuzzle.Report
