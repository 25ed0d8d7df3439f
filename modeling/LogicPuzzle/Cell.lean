import LogicPuzzle.Puzzle

/-!
# Cells and peers

A cell holds one label of its domain, named by its place there.  Places may lie
outside the domain; the label shown is then the nearest one.  Peers are cells
that must not hold the same place.
-/

namespace LogicPuzzle

/-- A cell: the name it gives its domain, and the domain. -/
structure Cell where
  type : String
  domain : Domain
  deriving DecidableEq, Repr

namespace Cell

def size (cell : Cell) : Nat :=
  cell.domain.labels.length

def listing (cell : Cell) (place : Int) : String :=
  "RuntimeVariable(" ++ cell.type ++ ", " ++ toString place ++ "/" ++ toString cell.size ++ ")"

end Cell

/-- For each cell, by number, the numbers of its peers in the order of connection. -/
abbrev Peers := List (List Nat)

namespace Peers

/-- Adds one cell to the peers of another, unless it is among them. -/
def link (peers : Peers) (cell other : Nat) : Peers :=
  peers.modify cell fun known => if other ∈ known then known else known ++ [other]

def connect (peers : Peers) (cell other : Nat) : Peers :=
  if cell = other then peers else (peers.link cell other).link other cell

def of (peers : Peers) (cell : Nat) : List Nat :=
  peers[cell]?.getD []

def conflict (peers : Peers) (places : List Int) (cell : Nat) : Bool :=
  (peers.of cell).any fun other => places[other]?.getD 0 == places[cell]?.getD 0

end Peers

end LogicPuzzle
