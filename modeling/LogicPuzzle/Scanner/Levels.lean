import LogicPuzzle.Fault

/-!
# Levels of indentation

The open blocks of a text are the widths at which their lines stand, innermost
first and the width zero of the whole text last.  A line that stands deeper than
the innermost block opens one block; a line that stands less deep closes every
block deeper than itself and must then stand level with the innermost one left.
-/

namespace LogicPuzzle

def isIndentation (c : Char) : Bool :=
  c == ' ' || c == '\t'

/-- The width that a run of indenting characters has; a tabulator is a whole step wide. -/
def indentationWidth (cs : List Char) : Nat :=
  cs.foldr (fun c width => (if c == '\t' then Fault.indentStep else 1) + width) 0

/-- What a line's indentation does: layout tokens, the levels open after it, and
what is wrong with it. -/
structure Shift where
  tokens : List Token
  levels : List Nat
  failure : Option Failure
  deriving DecidableEq, Repr

namespace Shift

def unplaced (fault : Fault) : Failure :=
  .fault ⟨fault, none⟩

/-- Closes the levels deeper than a width. -/
def closing (line : Nat) (levels : List Nat) (width : Int) : Shift :=
  let tokens := (levels.takeWhile fun (level : Nat) => width < level).map fun _ => Token.dedent line
  match levels.dropWhile fun (level : Nat) => width < level with
  | [] => ⟨tokens, [], some .outOfRange⟩
  | level :: outer =>
      if level = width then ⟨tokens, level :: outer, none⟩
      else ⟨tokens, level :: outer, some (unplaced (.unmatchedIndentation level width))⟩

def ofWidth (line : Nat) (levels : List Nat) (width : Int) : Shift :=
  if width % Fault.indentStep ≠ 0 then
    ⟨[], levels, some (unplaced (.unevenIndentation width))⟩
  else
    match levels with
    | [] => ⟨[], [], some .outOfRange⟩
    | level :: outer =>
        if level < width then ⟨[Token.indent line], width.toNat :: level :: outer, none⟩
        else closing line (level :: outer) width

theorem mem_closing {line : Nat} {levels : List Nat} {width : Int} {token : Token}
    (member : token ∈ (closing line levels width).tokens) : token = Token.dedent line := by
  have closes : token ∈ (levels.takeWhile fun (level : Nat) => width < level).map
      fun _ => Token.dedent line := by
    unfold closing at member
    split at member
    · exact member
    · split at member <;> exact member
  obtain ⟨_, _, rfl⟩ := List.mem_map.mp closes
  rfl

/-- Indentation gives starts and ends of blocks only. -/
theorem mem_ofWidth {line : Nat} {levels : List Nat} {width : Int} {token : Token}
    (member : token ∈ (ofWidth line levels width).tokens) :
    token = Token.indent line ∨ token = Token.dedent line := by
  unfold ofWidth at member
  split at member
  · cases member
  · split at member
    · cases member
    · split at member
      · exact .inl (List.mem_singleton.mp member)
      · exact .inr (mem_closing member)

end Shift

end LogicPuzzle
