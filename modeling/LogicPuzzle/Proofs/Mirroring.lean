import LogicPuzzle.Proofs.Stepping
import LogicPuzzle.Proofs.Tightening
import Mathlib.Data.Set.Card

/-!
# Models that mirror each other

A model mirrors another one when its assignments in range stand for those of the
other, one for one, and are accepted alike.  The assignments may come in another
order, so a search may find another solution first.  But there are as many of
them, as many are solutions, and a search without a limit finds one in both
models or in neither.
-/

namespace LogicPuzzle

open Search

namespace Model

def assignments (model : Model) : Set Assignment :=
  {assignment | assignment.InRange model.cells}

def solutions (model : Model) : Set Assignment :=
  {assignment | assignment.InRange model.cells ∧ model.check assignment = .ok true}

/-- Two models with search spaces of the same size and as many solutions, whose unlimited searches
end in the same way. -/
structure EquallySolvable (model twin : Model) : Prop where
  searchSpace : twin.searchSpace = model.searchSpace
  solutions : twin.solutions.encard = model.solutions.encard
  status : ∀ limit, allowance limit = ⊤ → ∃ outcome twinOutcome,
    model.solve limit = .ok outcome ∧ twin.solve limit = .ok twinOutcome ∧
      twinOutcome.status = outcome.status

/-- The assignments of one model stand for those of another one, one for one, and the checks say
the same of both. -/
structure Mirrors (model twin : Model) (move : Assignment → Assignment) : Prop where
  bijective : Set.BijOn move model.assignments twin.assignments
  check : ∀ assignment ∈ model.assignments,
    twin.check (move assignment) = model.check assignment

variable {model twin : Model} {puzzle twinPuzzle : Puzzle} {move : Assignment → Assignment}
  {limit : Option Int}

/-- The search space counts the assignments in range. -/
theorem encard_assignments (built : model.BuiltFrom puzzle) :
    model.assignments.encard = model.searchSpace := by
  have listed : model.assignments =
      ↑((List.range model.searchSpace).map model.assignmentAt).toFinset := by
    ext assignment
    rw [Finset.mem_coe, List.mem_toFinset, ← inRange_iff_mem_assignments built]
    rfl
  rw [listed, Set.encard_coe_eq_coe_finsetCard,
    List.toFinset_card_of_nodup (nodup_assignments model), List.length_map, List.length_range]

/-- When every check gives a result, an unlimited search is solved exactly when there is a
solution. -/
theorem status_of_unlimited (built : model.BuiltFrom puzzle) (unlimited : allowance limit = ⊤)
    (checks : ∀ assignment ∈ model.assignments, ∃ result, model.check assignment = .ok result) :
    ∃ outcome, model.solve limit = .ok outcome ∧
      (model.solutions.Nonempty ∧ outcome.status = .solved ∨
        ¬ model.solutions.Nonempty ∧ outcome.status = .noSolution) := by
  have inRange (rank : Nat) : model.assignmentAt rank ∈ model.assignments :=
    Odometer.places_inRange built.cell_size_pos rank
  obtain ⟨rank, _, accepted, ended⟩ | ⟨rank, unresolved, _, failed, _⟩ | ⟨refused, ended⟩ :=
    solve_unlimited built unlimited
  · exact ⟨_, ended, .inl ⟨⟨_, inRange rank, accepted⟩, rfl⟩⟩
  · obtain ⟨result, checked⟩ := checks _ (inRange rank)
    rw [verdict, checked] at failed
    cases failed
  · refine ⟨_, ended, .inr ⟨?_, rfl⟩⟩
    rintro ⟨assignment, solution, accepted⟩
    obtain ⟨rank, below, rfl⟩ := List.mem_map.mp ((inRange_iff_mem_assignments built).mp solution)
    have said : model.check (model.assignmentAt rank) = .ok false :=
      refused rank (List.mem_range.mp below)
    rw [said] at accepted
    cases accepted

namespace Mirrors

variable (mirrors : model.Mirrors twin move)
include mirrors

theorem bijOn_solutions : Set.BijOn move model.solutions twin.solutions := by
  refine ⟨?_, mirrors.bijective.injOn.mono fun _ => And.left, ?_⟩
  · rintro assignment ⟨inRange, accepted⟩
    exact ⟨mirrors.bijective.mapsTo inRange, (mirrors.check assignment inRange).trans accepted⟩
  · rintro other ⟨inRange, accepted⟩
    obtain ⟨assignment, original, rfl⟩ := mirrors.bijective.surjOn inRange
    exact ⟨assignment, ⟨original, (mirrors.check assignment original).symm.trans accepted⟩, rfl⟩

/-- Models that mirror each other are equally solvable, when every check gives a result. -/
theorem equallySolvable (built : model.BuiltFrom puzzle) (twinBuilt : twin.BuiltFrom twinPuzzle)
    (checks : ∀ assignment ∈ model.assignments, ∃ result, model.check assignment = .ok result) :
    model.EquallySolvable twin where
  searchSpace := by
    have counts := mirrors.bijective.injOn.encard_image
    rw [mirrors.bijective.image_eq, encard_assignments twinBuilt,
      encard_assignments built] at counts
    exact_mod_cast counts
  solutions := by
    rw [← mirrors.bijOn_solutions.image_eq, mirrors.bijOn_solutions.injOn.encard_image]
  status := by
    intro limit unlimited
    have twinChecks : ∀ assignment ∈ twin.assignments,
        ∃ result, twin.check assignment = .ok result := by
      intro other inRange
      obtain ⟨assignment, original, rfl⟩ := mirrors.bijective.surjOn inRange
      rw [mirrors.check assignment original]
      exact checks assignment original
    have both : twin.solutions.Nonempty ↔ model.solutions.Nonempty := by
      rw [← mirrors.bijOn_solutions.image_eq, Set.image_nonempty]
    obtain ⟨outcome, ended, status⟩ := status_of_unlimited built unlimited checks
    obtain ⟨twinOutcome, twinEnded, twinStatus⟩ :=
      status_of_unlimited twinBuilt unlimited twinChecks
    refine ⟨outcome, twinOutcome, ended, twinEnded, ?_⟩
    rw [both] at twinStatus
    obtain ⟨solvable, solved⟩ | ⟨unsolvable, unsolved⟩ := status
    · rw [solved]
      exact (twinStatus.resolve_right fun other => other.1 solvable).2
    · rw [unsolved]
      exact (twinStatus.resolve_left fun other => unsolvable other.1).2

end Mirrors

end Model

end LogicPuzzle
