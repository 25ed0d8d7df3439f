import LogicPuzzle.Proofs.Numbering
import LogicPuzzle.Proofs.SearchEnd

/-!
# Placings

The assignments of a model in range are placings: places of its scalar cells and
places of its record cells.  The rank of a placing has the scalar cells as its
lower digits.  A search without a limit ends at the first placing that the check
accepts, when every check gives a result.
-/

namespace LogicPuzzle

namespace Model

variable {model : Model} {puzzle : Puzzle}

/-- The places of the scalar cells and those of the record cells of a model. -/
structure Placing (model : Model) where
  scalars : Assignment
  records : Assignment
  scalars_inRange : scalars.InRange model.scalarCells
  records_inRange : records.InRange model.recordCells

namespace Placing

def assignment (placing : Placing model) : Assignment :=
  placing.scalars ++ placing.records

/-- The number of a placing in the order in which a search goes through them. -/
def rank (placing : Placing model) : Nat :=
  Odometer.rank model.scalarCells placing.scalars +
    Odometer.span model.scalarCells * Odometer.rank model.recordCells placing.records

theorem length_scalars (placing : Placing model) :
    placing.scalars.length = model.scalarCount := by
  rw [← placing.scalars_inRange.length_eq, length_scalarCells]

theorem length_records (placing : Placing model) :
    placing.records.length = model.recordCount := by
  rw [← placing.records_inRange.length_eq, length_recordCells]

section Built

variable (built : model.BuiltFrom puzzle) (placing : Placing model)
include built

theorem inRange : placing.assignment.InRange model.cells := by
  rw [built.cells_eq]
  exact List.rel_append placing.scalars_inRange placing.records_inRange

theorem rank_eq : Odometer.rank model.cells placing.assignment = placing.rank := by
  rw [built.cells_eq, assignment, Odometer.rank_append placing.scalars_inRange, rank]

theorem rank_lt : placing.rank < model.searchSpace := by
  rw [← rank_eq built]
  exact Odometer.rank_lt (placing.inRange built)

theorem assignmentAt_rank : model.assignmentAt placing.rank = placing.assignment := by
  rw [assignmentAt, ← rank_eq built]
  exact Odometer.places_rank (placing.inRange built)

omit placing in
theorem exists_rank {number : Nat} (below : number < model.searchSpace) :
    ∃ placing : Placing model, placing.rank = number := by
  have inRange := Odometer.places_inRange built.cell_size_pos number
  rw [built.cells_eq] at inRange
  obtain ⟨scalars, records, same, scalarsIn, recordsIn⟩ :=
    Odometer.exists_of_inRange_append inRange
  refine ⟨⟨scalars, records, scalarsIn, recordsIn⟩, ?_⟩
  rw [← rank_eq built, assignment, ← same, ← built.cells_eq]
  exact Odometer.rank_places below

end Built

end Placing

/-! ## The first solution -/

/-- The check accepts a placing and refuses those that a search tests before it. -/
structure Placing.First (placing : Placing model) : Prop where
  accepted : model.check placing.assignment = .ok true
  earlier : ∀ other : Placing model, other.rank < placing.rank →
    model.check other.assignment = .ok false

theorem first_or_refused (built : model.BuiltFrom puzzle)
    (checks : ∀ assignment, ∃ accepted, model.check assignment = .ok accepted) :
    (∃ placing : Placing model, placing.First) ∨
      ∀ placing : Placing model, model.check placing.assignment = .ok false := by
  by_cases stops : ∃ rank, model.FirstUnrefused rank
  · rcases stops with ⟨rank, first⟩
    obtain ⟨placing, rfl⟩ := Placing.exists_rank built first.bound
    have unrefused := first.unrefused
    rw [verdict, placing.assignmentAt_rank built] at unrefused
    refine .inl ⟨placing, ?_, fun other before => ?_⟩
    · obtain ⟨accepted, checked⟩ := checks placing.assignment
      rw [checked] at unrefused ⊢
      cases accepted with
      | true => rfl
      | false => exact absurd rfl unrefused
    · rw [← other.assignmentAt_rank built]
      exact first.earlier _ before
  · refine .inr fun placing => ?_
    rw [← placing.assignmentAt_rank built]
    exact refused_of_no_firstUnrefused (Nat.le_refl _)
      (fun ⟨rank, first, _⟩ => stops ⟨rank, first⟩) _ (placing.rank_lt built)

theorem solve_of_first (built : model.BuiltFrom puzzle) {placing : Placing model}
    (first : placing.First) :
    model.solve none =
      .ok ((Search.mk model placing.assignment (placing.rank + 1)).outcome .solved) := by
  have accepted : model.verdict placing.rank = .ok true := by
    rw [verdict, placing.assignmentAt_rank built]
    exact first.accepted
  have stops : model.FirstUnrefused placing.rank := by
    refine ⟨placing.rank_lt built, by simp [accepted], fun rank before => ?_⟩
    obtain ⟨other, rfl⟩ :=
      Placing.exists_rank built (Nat.lt_trans before (placing.rank_lt built))
    rw [verdict, other.assignmentAt_rank built]
    exact first.earlier other before
  have allowed : (placing.rank : ℕ∞) < Search.allowance none := ENat.natCast_lt_top _
  have ended := solve_of_seek (Search.seek_of_firstUnrefused stops allowed)
  rw [accepted, Search.endedAt, placing.assignmentAt_rank built] at ended
  exact ended

theorem solve_of_refused (built : model.BuiltFrom puzzle)
    (refused : ∀ placing : Placing model, model.check placing.assignment = .ok false) :
    model.solve none = .ok (unsolved puzzle model .noSolution model.searchSpace) := by
  have all : ∀ rank < model.searchSpace, model.verdict rank = .ok false := by
    intro rank below
    obtain ⟨placing, rfl⟩ := Placing.exists_rank built below
    rw [verdict, placing.assignmentAt_rank built]
    exact refused placing
  have allowed : (model.searchSpace : ℕ∞) ≤ Search.allowance none := le_top
  exact solve_of_all_refused built allowed all

end Model

end LogicPuzzle
