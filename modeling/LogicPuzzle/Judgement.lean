import LogicPuzzle.EitherEnd
import LogicPuzzle.Model

/-!
# Judging assignments

An assignment gives a place to every numbered cell of a model.  A reference
names a cell independently of the assignment; a comparison compares the places
of two cells, or the place of a cell with that of a label.  The check of an
assignment is the conjunction of the uniqueness of all cells and of all rules,
read from left to right, so that it ends at the first test that is false or
cannot be made.
-/

namespace LogicPuzzle

/-- The places of all cells, by number. -/
abbrev Assignment := List Int

/-- The element of a record array that a quantified rule is about. -/
structure Binding where
  array : String
  index : Int
  deriving DecidableEq, Repr

/-- Why a test cannot be made: a reference is at fault, it counts from the end
of an array past its start, or its fault breaks down over an index that is too
long to be written. -/
inductive Unresolved where
  | fault (diagnostic : Diagnostic ModelFault)
  | outOfRange
  | numeral
  deriving DecidableEq, Repr

namespace Assignment

def placeOf (assignment : Assignment) (cell : Nat) : Int :=
  assignment[cell]?.getD 0

end Assignment

namespace Model

/-- What a reference at fault ends in.  The words for the fault are made at once, so an index in
them that is too long ends the test before there is a fault to be read as a label. -/
def unresolved (model : Model) (reference : Reference) (fault : ModelFault) : Unresolved :=
  if fault.hasLongNumber then .numeral else .fault (model.placed fault reference.position)

/-- The index of a reference, or that of the binding when the array is the bound one. -/
def elementIndex? (binding : Option Binding) (reference : Reference) : Option Int :=
  match reference.index?, binding with
  | some index, _ => some index
  | none, some bound => if bound.array = reference.name then some bound.index else none
  | none, none => none

def resolveRecord (model : Model) (start : Nat) (array : RecordArray) (binding : Option Binding)
    (reference : Reference) : Except Unresolved Nat :=
  match elementIndex? binding reference with
  | none => .error (model.unresolved reference (.missingElement reference.name))
  | some index =>
      if index < 0 ∨ array.size ≤ index then
        .error (model.unresolved reference (.badElement index reference.name))
      else match reference.field? with
        | none => .error (model.unresolved reference (.missingField reference.name))
        | some field =>
            match array.fieldPlace? field with
            | none => .error (model.unresolved reference (.unknownField field reference.name))
            | some place => .ok (start + array.cellNumber index.toNat place)

def resolveScalar (model : Model) (start : Nat) (array : ScalarArray) (reference : Reference) :
    Except Unresolved Nat :=
  match reference.index? with
  | none => .error (model.unresolved reference (.missingScalarElement reference.name))
  | some index =>
      if array.size ≤ index then
        .error (model.unresolved reference (.badScalarElement index reference.name))
      else match fromStart? array.size index with
        | some element => .ok (start + element)
        | none => .error .outOfRange

def resolve (model : Model) (binding : Option Binding) (reference : Reference) :
    Except Unresolved Nat :=
  match model.record? reference.name with
  | some (start, array) => model.resolveRecord start array binding reference
  | none =>
      match model.scalar? reference.name with
      | some (start, array) => model.resolveScalar start array reference
      | none => .error (model.unresolved reference (.unknownArray reference.name))

def labelPlace (model : Model) (cell : Nat) (label : String) : Int :=
  match model.cells[cell]? with
  | some found => found.domain.indexOf label
  | none => -1

/-- What the right side of a comparison stands for, when the left one names a cell: the
place of a cell, or that of a label when the reference is at fault. -/
def rightPlace (model : Model) (assignment : Assignment) (binding : Option Binding) (left : Nat)
    (reference : Reference) : Except Unresolved Int :=
  match model.resolve binding reference with
  | .ok right => .ok (assignment.placeOf right)
  | .error (.fault _) => .ok (model.labelPlace left reference.name)
  | .error .outOfRange => .error .outOfRange
  | .error .numeral => .error .numeral

def evaluate (model : Model) (assignment : Assignment) (binding : Option Binding)
    (comparison : Comparison) : Except Unresolved Bool := do
  let left ← model.resolve binding comparison.left
  let right ← model.rightPlace assignment binding left comparison.right
  return (assignment.placeOf left == right) != comparison.negated

/-- Whether a rule holds for an element: if its guard does, all its consequents do. -/
def holdsAt (model : Model) (assignment : Assignment) (rule : Rule) (binding : Binding) :
    Except Unresolved Bool := do
  if ← model.evaluate assignment (some binding) rule.guard then
    rule.consequents.allM (model.evaluate assignment (some binding))
  else return true

def quantifiedArray? (model : Model) (rule : Rule) : Option RecordArray :=
  if rule.quantified then (model.record? rule.guard.left.name).map (·.2) else none

def checkRule (model : Model) (assignment : Assignment) (rule : Rule) : Except Unresolved Bool :=
  match model.quantifiedArray? rule with
  | none => model.evaluate assignment none rule.guard
  | some array =>
      (List.range array.size).allM fun (index : Nat) =>
        model.holdsAt assignment rule ⟨rule.guard.left.name, index⟩

def checkRules (model : Model) (assignment : Assignment) : Except Unresolved Bool :=
  model.rules.allM (model.checkRule assignment)

def checkUniqueness (model : Model) (assignment : Assignment) : Bool :=
  (List.range model.cells.length).all fun cell => !model.peers.conflict assignment cell

def check (model : Model) (assignment : Assignment) : Except Unresolved Bool :=
  if model.checkUniqueness assignment then model.checkRules assignment else .ok false

/-- The rules whose consequents are never tested, because they name no record array. -/
def notices (model : Model) : List Notice :=
  (model.rules.filter fun rule =>
    rule.quantified && (model.record? rule.guard.left.name).isNone).map .unquantified

end Model

end LogicPuzzle
