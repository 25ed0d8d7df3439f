/-!
# Ranges of code points

A character property beyond ASCII is a list of closed ranges of code points,
ascending and apart.  ASCII characters are settled by their own short rules, so
the tables of this folder start at code point 128.  All tables follow
Unicode 14.
-/

namespace LogicPuzzle.Text

/-- Closed ranges of code points. -/
abbrev Ranges := List (Nat × Nat)

namespace Ranges

def contains (ranges : Ranges) (point : Nat) : Bool :=
  ranges.any fun range => range.1 ≤ point && point ≤ range.2

/-- Each range is non-empty and starts beyond the successor of the one before it. -/
def ascending : Ranges → Bool
  | [] => true
  | [range] => range.1 ≤ range.2
  | range :: next :: rest =>
      range.1 ≤ range.2 && range.2 + 1 < next.1 && ascending (next :: rest)

/-- Number of code points in the ranges, when they do not overlap. -/
def count (ranges : Ranges) : Nat :=
  ranges.foldr (fun range total => range.2 + 1 - range.1 + total) 0

end Ranges

def isAscii (c : Char) : Bool :=
  c.toNat < 128

end LogicPuzzle.Text
