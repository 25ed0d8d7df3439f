import LogicPuzzle.Cell
import LogicPuzzle.Table

/-!
# Arrays of cells

A scalar array has one cell for each element, a record array one cell for each
field of each element.  In a record array the cells of one field are peers of
each other when some entry of that name is unique.
-/

namespace LogicPuzzle

/-- An array whose elements are single cells. -/
structure ScalarArray where
  name : String
  cell : Cell
  size : Nat
  deriving DecidableEq, Repr

/-- An array whose elements have a cell for each field. -/
structure RecordArray where
  name : String
  schema : Schema
  fields : Table Cell
  size : Nat
  deriving DecidableEq, Repr

namespace ScalarArray

def cells (array : ScalarArray) : List Cell :=
  List.replicate array.size array.cell

end ScalarArray

namespace RecordArray

def width (array : RecordArray) : Nat :=
  array.fields.length

def extent (array : RecordArray) : Nat :=
  array.size * array.width

def cells (array : RecordArray) : List Cell :=
  (List.replicate array.size (array.fields.map (·.2))).flatten

def fieldPlace? (array : RecordArray) (field : String) : Option Nat :=
  array.fields.names.idxOf? field

def cellNumber (array : RecordArray) (element field : Nat) : Nat :=
  element * array.width + field

/-- All pairs of different numbers below a bound, the smaller number first. -/
def pairs (bound : Nat) : List (Nat × Nat) :=
  (List.range bound).flatMap fun first =>
    (List.range' (first + 1) (bound - (first + 1))).map fun second => (first, second)

/-- Connects the cells of one field in every two elements. -/
def connectField (array : RecordArray) (peers : Peers) (field : Nat) : Peers :=
  (pairs array.size).foldl
    (fun peers pair =>
      peers.connect (array.cellNumber pair.1 field) (array.cellNumber pair.2 field))
    peers

def peers (array : RecordArray) : Peers :=
  (array.schema.uniqueEntries.filterMap fun entry => array.fieldPlace? entry.name).foldl
    array.connectField (List.replicate array.extent [])

end RecordArray

end LogicPuzzle
