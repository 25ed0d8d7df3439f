import LogicPuzzle.Proofs.Numbering
import LogicPuzzle.Proofs.Odometer
import Mathlib.Data.ENat.Basic

/-!
# Where a search ends

A search tests the assignments of a model in the order of their ranks.  It goes
on while the check refuses them, so it ends at the least rank that the check
does not refuse, at its limit, or after the last rank, whichever comes first.
-/

namespace LogicPuzzle

open Search

namespace Model

def assignmentAt (model : Model) (rank : Nat) : Assignment :=
  Odometer.places model.cells rank

def verdict (model : Model) (rank : Nat) : Except Unresolved Bool :=
  model.check (model.assignmentAt rank)

/-- The least rank whose assignment the check does not refuse: it accepts the
assignment, or it cannot be made. -/
structure FirstUnrefused (model : Model) (rank : Nat) : Prop where
  bound : rank < model.searchSpace
  unrefused : model.verdict rank ≠ .ok false
  earlier : ∀ earlier < rank, model.verdict earlier = .ok false

end Model

namespace Search

/-- How many assignments a search may test under a limit. -/
def allowance : Option Int → ℕ∞
  | none => ⊤
  | some most => if 0 < most then (most.toNat : ℕ∞) else ⊤

/-- The search that has tested all assignments below a rank and stands at it. -/
def atRank (model : Model) (rank : Nat) : Search :=
  ⟨model, model.assignmentAt rank, rank⟩

/-- The search that has accepted or failed to check the assignment of a rank. -/
def endedAt (model : Model) (rank : Nat) : Search :=
  ⟨model, model.assignmentAt rank, rank + 1⟩

/-- The search that has tested all assignments. -/
def exhausted (model : Model) : Search :=
  ⟨model, model.assignmentAt 0, model.searchSpace⟩

variable {model : Model} {limit : Option Int} {rank bound : Nat}

theorem ofModel_eq_atRank_zero (model : Model) : ofModel model = atRank model 0 := by
  rw [ofModel, atRank, Model.assignmentAt, Odometer.places_zero]
  rfl

/-- A limit is reached when it allows no further test. -/
theorem effectiveLimit_reached_iff (limit : Option Int) (count : Nat) :
    ((effectiveLimit limit).any fun most => most ≤ (count : Int)) = true ↔
      allowance limit ≤ count := by
  cases limit with
  | none => simp [effectiveLimit, allowance]
  | some most =>
      by_cases positive : 0 < most
      · simp only [effectiveLimit, Option.filter, positive, decide_true, if_true, Option.any_some,
          decide_eq_true_eq, allowance, Nat.cast_le]
        omega
      · simp [effectiveLimit, Option.filter, positive, allowance]

/-! ## One test -/

/-- A search that may make another test ends there, or goes on at the next assignment. -/
theorem seek_cases (limit : Option Int) (bound : Nat) (search : Search) :
    seek limit (bound + 1) search = (.ok .aborted, search) ∨
    (∃ unresolved, search.check = .error unresolved ∧
      seek limit (bound + 1) search = (.error unresolved, search.count)) ∨
    (search.check = .ok true ∧ seek limit (bound + 1) search = (.ok .solved, search.count)) ∨
    search.check = .ok false ∧
      ((∃ next, search.count.advance = (true, next) ∧
          seek limit (bound + 1) search = seek limit bound next) ∨
        ∃ last, search.count.advance = (false, last) ∧
          seek limit (bound + 1) search = (.ok .noSolution, last)) := by
  rw [seek]
  by_cases reached : (limit.any fun most => most ≤ search.iterations) = true
  · exact .inl (if_pos reached)
  · rw [if_neg reached]
    cases search.check with
    | error unresolved => exact .inr (.inl ⟨unresolved, rfl, rfl⟩)
    | ok accepted =>
        cases accepted with
        | true => exact .inr (.inr (.inl ⟨rfl, rfl⟩))
        | false =>
            refine .inr (.inr (.inr ⟨rfl, ?_⟩))
            cases search.count.advance with
            | mk moved next =>
                cases moved with
                | true => exact .inl ⟨next, rfl, rfl⟩
                | false => exact .inr ⟨next, rfl, rfl⟩

/-- What counting and advancing preserve holds wherever a search ends. -/
theorem seek_invariant (holds : Search → Prop)
    (counts : ∀ search, holds search → holds search.count)
    (advances : ∀ search, holds search → holds search.advance.2) (limit : Option Int)
    (bound : Nat) {search : Search} (start : holds search) :
    holds (seek limit bound search).2 := by
  induction bound generalizing search with
  | zero => exact start
  | succ bound ih =>
      have moved := advances _ (counts _ start)
      obtain same | ⟨_, _, same⟩ | ⟨_, same⟩ |
        ⟨_, ⟨next, advanced, same⟩ | ⟨last, advanced, same⟩⟩ := seek_cases limit bound search
      · rw [same]
        exact start
      · rw [same]
        exact counts _ start
      · rw [same]
        exact counts _ start
      · rw [same]
        rw [advanced] at moved
        exact ih moved
      · rw [same]
        rw [advanced] at moved
        exact moved

theorem seek_reached {search : Search} {tests : Nat} (counted : search.iterations = tests)
    (reached : allowance limit ≤ tests) :
    seek (effectiveLimit limit) (bound + 1) search = (.ok .aborted, search) := by
  rw [seek, counted]
  exact if_pos ((effectiveLimit_reached_iff limit tests).mpr reached)

theorem seek_allowed {search : Search} {tests : Nat} (counted : search.iterations = tests)
    (allowed : (tests : ℕ∞) < allowance limit) :
    seek (effectiveLimit limit) (bound + 1) search =
      match search.check with
      | .error unresolved => (.error unresolved, search.count)
      | .ok true => (.ok .solved, search.count)
      | .ok false =>
          match search.count.advance with
          | (true, next) => seek (effectiveLimit limit) bound next
          | (false, last) => (.ok .noSolution, last) := by
  have unreached : ¬ ((effectiveLimit limit).any fun most => most ≤ (tests : Int)) = true :=
    fun reached => absurd ((effectiveLimit_reached_iff limit tests).mp reached) (not_le.mpr allowed)
  rw [seek, counted]
  exact if_neg unreached

theorem model_of_advance {search next : Search} {moved : Bool}
    (advanced : search.count.advance = (moved, next)) : next.model = search.model :=
  (congrArg (fun advanced => advanced.2.model) advanced).symm

/-- A search stays a search of its model. -/
theorem model_seek (limit : Option Int) (bound : Nat) (search : Search) :
    (seek limit bound search).2.model = search.model :=
  seek_invariant (fun final => final.model = search.model) (fun _ same => same)
    (fun _ same => same) limit bound rfl

theorem advance_count_atRank (below : rank < model.searchSpace) :
    (atRank model rank).count.advance =
      (decide (rank + 1 < model.searchSpace),
        ⟨model, model.assignmentAt ((rank + 1) % model.searchSpace), rank + 1⟩) := by
  have turned : turn model.cells (Odometer.places model.cells rank) = _ :=
    Odometer.turn_places below
  simp only [advance, count, atRank, Model.assignmentAt]
  rw [turned]
  rfl

theorem advance_count_atRank_of_lt (more : rank + 1 < model.searchSpace) :
    (atRank model rank).count.advance = (true, atRank model (rank + 1)) := by
  rw [advance_count_atRank (Nat.lt_of_succ_lt more), decide_eq_true more, Nat.mod_eq_of_lt more,
    atRank]
  rfl

theorem advance_count_atRank_last (last : rank + 1 = model.searchSpace) :
    (atRank model rank).count.advance = (false, exhausted model) := by
  have below : rank < model.searchSpace := by omega
  rw [advance_count_atRank below, exhausted, ← last, Nat.mod_self,
    decide_eq_false (Nat.lt_irrefl _)]
  rfl

theorem seek_aborted (reached : allowance limit ≤ rank) :
    seek (effectiveLimit limit) (bound + 1) (atRank model rank) =
      (.ok .aborted, atRank model rank) :=
  seek_reached rfl reached

/-- Within its limit a search makes the check. -/
theorem seek_succ (allowed : (rank : ℕ∞) < allowance limit) :
    seek (effectiveLimit limit) (bound + 1) (atRank model rank) =
      match model.verdict rank with
      | .error unresolved => (.error unresolved, endedAt model rank)
      | .ok true => (.ok .solved, endedAt model rank)
      | .ok false =>
          match (atRank model rank).count.advance with
          | (true, next) => seek (effectiveLimit limit) bound next
          | (false, last) => (.ok .noSolution, last) :=
  seek_allowed rfl allowed

/-! ## All tests -/

/-- A search passes over refused assignments. -/
theorem seek_skip {start stop : Nat} (order : start ≤ stop) (within : stop < model.searchSpace)
    (allowed : (stop : ℕ∞) ≤ allowance limit)
    (refused : ∀ rank < stop, model.verdict rank = .ok false) :
    seek (effectiveLimit limit) (model.searchSpace - start) (atRank model start) =
      seek (effectiveLimit limit) (model.searchSpace - stop) (atRank model stop) := by
  induction stop, order using Nat.le_induction with
  | base => rfl
  | succ stop order ih =>
      have stopLt : (stop : ℕ∞) < allowance limit :=
        lt_of_lt_of_le (Nat.cast_lt.mpr (Nat.lt_succ_self stop)) allowed
      rw [ih (Nat.lt_of_succ_lt within) stopLt.le fun rank below =>
        refused rank (Nat.lt_succ_of_lt below)]
      have left : model.searchSpace - stop = model.searchSpace - (stop + 1) + 1 := by omega
      rw [left, seek_succ stopLt, refused stop (Nat.lt_succ_self stop)]
      simp only [advance_count_atRank_of_lt within]

theorem seek_of_firstUnrefused (first : model.FirstUnrefused rank)
    (allowed : (rank : ℕ∞) < allowance limit) :
    seek (effectiveLimit limit) model.searchSpace (ofModel model) =
      ((model.verdict rank).map fun _ => .solved, endedAt model rank) := by
  have left : model.searchSpace - rank = model.searchSpace - (rank + 1) + 1 := by
    have := first.bound
    omega
  have skipped := seek_skip (Nat.zero_le rank) first.bound allowed.le first.earlier
  rw [Nat.sub_zero, left, seek_succ allowed] at skipped
  rw [ofModel_eq_atRank_zero, skipped]
  cases said : model.verdict rank with
  | error unresolved => rfl
  | ok accepted =>
      cases accepted with
      | true => rfl
      | false => exact absurd said first.unrefused

theorem seek_of_limit_lt {tests : Nat} (limited : allowance limit = tests)
    (within : tests < model.searchSpace)
    (refused : ∀ rank < tests, model.verdict rank = .ok false) :
    seek (effectiveLimit limit) model.searchSpace (ofModel model) =
      (.ok .aborted, atRank model tests) := by
  have left : model.searchSpace - tests = model.searchSpace - (tests + 1) + 1 := by omega
  have skipped := seek_skip (Nat.zero_le tests) within limited.ge refused
  rw [Nat.sub_zero, left, seek_aborted limited.le] at skipped
  rw [ofModel_eq_atRank_zero, skipped]

theorem seek_of_all_refused (nonempty : 0 < model.searchSpace)
    (allowed : (model.searchSpace : ℕ∞) ≤ allowance limit)
    (refused : ∀ rank < model.searchSpace, model.verdict rank = .ok false) :
    seek (effectiveLimit limit) model.searchSpace (ofModel model) =
      (.ok .noSolution, exhausted model) := by
  obtain ⟨last, size⟩ : ∃ last, last + 1 = model.searchSpace :=
    ⟨model.searchSpace - 1, by omega⟩
  have within : last < model.searchSpace := by omega
  have lastLt : (last : ℕ∞) < allowance limit :=
    lt_of_lt_of_le (Nat.cast_lt.mpr within) allowed
  have left : model.searchSpace - last = 0 + 1 := by omega
  have skipped := seek_skip (Nat.zero_le last) within lastLt.le fun rank below =>
    refused rank (Nat.lt_trans below within)
  rw [Nat.sub_zero, left, seek_succ lastLt, refused last within] at skipped
  rw [ofModel_eq_atRank_zero, skipped]
  simp only [advance_count_atRank_last size]

/-- The size of the search space is bound enough: a search with a larger bound ends alike. -/
theorem seek_atRank_of_le (below : rank < model.searchSpace)
    (enough : model.searchSpace ≤ rank + bound) :
    seek (effectiveLimit limit) bound (atRank model rank) =
      seek (effectiveLimit limit) (model.searchSpace - rank) (atRank model rank) := by
  induction bound generalizing rank with
  | zero => exact absurd below (Nat.not_lt.mpr enough)
  | succ bound ih =>
      have left : model.searchSpace - rank = model.searchSpace - (rank + 1) + 1 := by omega
      rw [left]
      rcases lt_or_ge (rank : ℕ∞) (allowance limit) with allowed | reached
      · rw [seek_succ allowed, seek_succ allowed]
        rcases Nat.lt_or_ge (rank + 1) model.searchSpace with more | last
        · rw [advance_count_atRank_of_lt more]
          simp only [ih more (by omega)]
        · rw [advance_count_atRank_last (by omega)]
      · rw [seek_aborted reached, seek_aborted reached]

theorem seek_ofModel_of_le (nonempty : 0 < model.searchSpace)
    (enough : model.searchSpace ≤ bound) :
    seek (effectiveLimit limit) bound (ofModel model) =
      seek (effectiveLimit limit) model.searchSpace (ofModel model) := by
  rw [ofModel_eq_atRank_zero, seek_atRank_of_le nonempty (by omega), Nat.sub_zero]

/-- An outcome shows how the search for it ended. -/
theorem seek_of_solve {search last : Search} {outcome : Outcome}
    (ended : search.solve limit = (.ok outcome, last)) :
    ∃ status, seek (effectiveLimit limit) search.model.searchSpace search.reset =
      (.ok status, last) ∧ outcome = last.outcome status := by
  rw [solve] at ended
  cases sought : seek (effectiveLimit limit) search.model.searchSpace search.reset with
  | mk result final =>
      simp only [sought] at ended
      cases result with
      | error unresolved => cases ended
      | ok status =>
          cases ended
          exact ⟨status, rfl, rfl⟩

/-- A cell that holds a place of its domain shows the label there. -/
theorem labels_getElem?_placeOf {search : Search}
    (inRange : search.assignment.InRange search.model.cells) {number : Nat} {cell : Cell}
    (found : search.model.cells[number]? = some cell) :
    cell.domain.labels[(search.assignment.placeOf number).toNat]? =
      some (search.labelOf number) := by
  obtain ⟨lower, upper⟩ := inRange.placeOf_bounds found
  have inside : (search.assignment.placeOf number).toNat < cell.domain.labels.length := by
    change search.assignment.placeOf number < (cell.domain.labels.length : Int) at upper
    omega
  have unclamped : min (search.assignment.placeOf number).toNat (cell.domain.labels.length - 1) =
      (search.assignment.placeOf number).toNat := by omega
  rw [labelOf, found]
  simp only [Domain.labelAt?, unclamped, List.getElem?_eq_getElem inside, Option.getD_some]

theorem names_elementLabels (search : Search) (start : Nat) (array : RecordArray) (index : Nat) :
    Table.names (search.elementLabels start array index) = array.fields.names := by
  rw [elementLabels, Table.names, List.mapIdx_eq_zipIdx_map, List.map_map]
  exact List.zipIdx_map_fst ..

theorem getElem?_elementLabels (search : Search) (start index : Nat) {array : RecordArray}
    {place : Nat} {field : String × Cell} (found : array.fields[place]? = some field) :
    (search.elementLabels start array index)[place]? =
      some (field.1, search.labelOf (start + array.cellNumber index place)) := by
  rw [elementLabels, List.getElem?_mapIdx, Table.names, List.getElem?_map, found]
  rfl

theorem getElem?_recordLabels (search : Search) (start : Nat) {array : RecordArray} {index : Nat}
    (inside : index < array.size) :
    (search.recordLabels start array)[index]? = some (search.elementLabels start array index) := by
  rw [recordLabels, List.getElem?_map, List.getElem?_range inside, Option.map_some]

theorem getElem?_scalarLabels (search : Search) (start : Nat) {array : ScalarArray} {index : Nat}
    (inside : index < array.size) :
    (search.scalarLabels start array)[index]? = some (search.labelOf (start + index)) := by
  rw [scalarLabels, List.getElem?_map, List.getElem?_range' inside, Option.map_some, Nat.one_mul]

end Search

namespace Model

variable {puzzle : Puzzle} {model : Model}

theorem searchSpace_pos (built : model.BuiltFrom puzzle) : 0 < model.searchSpace :=
  Odometer.span_pos built.cell_size_pos

theorem refused_of_no_firstUnrefused {bound : Nat} (within : bound ≤ model.searchSpace)
    (noStop : ¬ ∃ rank, model.FirstUnrefused rank ∧ rank < bound) :
    ∀ rank < bound, model.verdict rank = .ok false := by
  intro rank
  induction rank using Nat.strong_induction_on with
  | h rank ih =>
      intro below
      by_contra unrefused
      exact noStop ⟨rank, ⟨Nat.lt_of_lt_of_le below within, unrefused, fun earlier before =>
        ih earlier before (Nat.lt_trans before below)⟩, below⟩

theorem solve_of_seek {limit : Option Int} {result : Except Unresolved Status} {last : Search}
    (ended : seek (effectiveLimit limit) model.searchSpace (ofModel model) = (result, last)) :
    model.solve limit = result.map last.outcome := by
  rw [Model.solve, Search.solve]
  change (Except.map (seek (effectiveLimit limit) model.searchSpace (ofModel model)).2.outcome
    (seek (effectiveLimit limit) model.searchSpace (ofModel model)).1) = _
  rw [ended]

def unsolved (puzzle : Puzzle) (model : Model) (status : Status) (tests : Nat) : Outcome where
  puzzle := puzzle.name
  status := status
  iterations := tests
  searchSpace := model.searchSpace
  records := []
  scalars := []

theorem outcome_eq_unsolved (built : model.BuiltFrom puzzle) {status : Status}
    (unfound : status ≠ .solved) (assignment : Assignment) (tests : Nat) :
    (Search.mk model assignment tests).outcome status = unsolved puzzle model status tests := by
  rw [outcome, if_neg unfound, if_neg unfound, built.file]
  rfl

theorem solve_of_all_refused (built : model.BuiltFrom puzzle) {limit : Option Int}
    (allowed : (model.searchSpace : ℕ∞) ≤ allowance limit)
    (refused : ∀ rank < model.searchSpace, model.verdict rank = .ok false) :
    model.solve limit = .ok (unsolved puzzle model .noSolution model.searchSpace) := by
  rw [solve_of_seek (seek_of_all_refused (searchSpace_pos built) allowed refused)]
  exact congrArg Except.ok (outcome_eq_unsolved built (by decide) _ _)

/-- A cell shows a label at a rank: the one at its place in the assignment of the rank. -/
def ShowsAt (model : Model) (rank number : Nat) (label : String) : Prop :=
  ∃ cell, model.cells[number]? = some cell ∧
    cell.domain.labels[((model.assignmentAt rank).placeOf number).toNat]? = some label

/-- An outcome is that of a search solved at a rank: its arrays are those of the model, in their
order and with all elements and fields, and show the labels of the assignment of the rank. -/
structure SolvedAt (model : Model) (rank : Nat) (outcome : Outcome) : Prop where
  status : outcome.status = .solved
  iterations : outcome.iterations = rank + 1
  searchSpace : outcome.searchSpace = model.searchSpace
  records : List.Forall₂ (fun entry shown => shown.1 = entry.2.name ∧
      shown.2.length = entry.2.size ∧ ∀ element < entry.2.size, ∃ labels,
        shown.2[element]? = some labels ∧ Table.names labels = entry.2.fields.names ∧
          ∀ place < entry.2.width, ∃ field, labels[place]? = some field ∧
            model.ShowsAt rank (entry.1 + entry.2.cellNumber element place) field.2)
    model.numberedRecords outcome.records
  scalars : List.Forall₂ (fun entry shown => shown.1 = entry.2.name ∧
      shown.2.length = entry.2.size ∧ ∀ element < entry.2.size, ∃ label,
        shown.2[element]? = some label ∧ model.ShowsAt rank (entry.1 + element) label)
    model.numberedScalars outcome.scalars

section Labels

variable (built : model.BuiltFrom puzzle) (rank : Nat)
include built

theorem labels_endedAt {number : Nat} {cell : Cell} (found : model.cells[number]? = some cell) :
    cell.domain.labels[((model.assignmentAt rank).placeOf number).toNat]? =
      some ((endedAt model rank).labelOf number) := by
  have inRange : (endedAt model rank).assignment.InRange (endedAt model rank).model.cells :=
    Odometer.places_inRange built.cell_size_pos rank
  exact labels_getElem?_placeOf inRange found

theorem solvedAt_outcome : model.SolvedAt rank ((endedAt model rank).outcome .solved) where
  status := rfl
  iterations := rfl
  searchSpace := rfl
  records := by
    refine List.forall₂_map_right_iff.mpr (List.forall₂_same.mpr ?_)
    rintro ⟨start, array⟩ member
    refine ⟨rfl, (List.length_map _).trans List.length_range, fun element inside => ?_⟩
    refine ⟨_, getElem?_recordLabels _ start inside, names_elementLabels _ start array element,
      fun place within => ?_⟩
    have field : array.fields[place]? = some array.fields[place] := List.getElem?_eq_getElem within
    have cell := built.cells_of_record member inside within
    rw [field, Option.map_some] at cell
    exact ⟨_, getElem?_elementLabels _ start element field, _, cell,
      labels_endedAt built rank cell⟩
  scalars := by
    refine List.forall₂_map_right_iff.mpr (List.forall₂_same.mpr ?_)
    rintro ⟨start, array⟩ member
    refine ⟨rfl, (List.length_map _).trans List.length_range', fun element inside => ?_⟩
    have cell := built.cells_of_scalar member inside
    exact ⟨_, getElem?_scalarLabels _ start inside, _, cell, labels_endedAt built rank cell⟩

end Labels

/-- A search ends at the first rank that the check does not refuse, if its limit lets it
get there, and otherwise at its limit or after all assignments. -/
structure EndsInRankOrder (model : Model) (puzzle : Puzzle) (limit : Option Int) : Prop where
  ranked : ∀ assignment : Assignment, assignment.InRange model.cells ↔
    ∃! rank, rank < model.searchSpace ∧ model.assignmentAt rank = assignment
  labelled : ∀ rank number cell, model.cells[number]? = some cell →
    cell.domain.labels[((model.assignmentAt rank).placeOf number).toNat]? =
      some ((endedAt model rank).labelOf number)
  solved : ∀ rank, model.FirstUnrefused rank → rank < allowance limit →
    model.verdict rank = .ok true →
      model.solve limit = .ok ((endedAt model rank).outcome .solved) ∧
        model.SolvedAt rank ((endedAt model rank).outcome .solved)
  failed : ∀ rank unresolved, model.FirstUnrefused rank → rank < allowance limit →
    model.verdict rank = .error unresolved → model.solve limit = .error unresolved
  aborted : (¬ ∃ rank : Nat, model.FirstUnrefused rank ∧ rank < allowance limit) →
    ∀ tests : Nat, allowance limit = tests → tests < model.searchSpace →
      model.solve limit = .ok (unsolved puzzle model .aborted tests)
  unsolvable : (¬ ∃ rank : Nat, model.FirstUnrefused rank ∧ rank < allowance limit) →
    model.searchSpace ≤ allowance limit →
      model.solve limit = .ok (unsolved puzzle model .noSolution model.searchSpace)
  at_size : (∀ rank < model.searchSpace, model.verdict rank = .ok false) →
    model.solve (some model.searchSpace) =
      .ok (unsolved puzzle model .noSolution model.searchSpace)

/-- Every search of a built model ends in the order of ranks. -/
theorem solve_in_rank_order (done : build puzzle = .ok model) (limit : Option Int) :
    model.EndsInRankOrder puzzle limit := by
  have built := builtFrom_of_build done
  constructor
  case ranked =>
    intro assignment
    exact Odometer.inRange_iff_existsUnique_rank built.cell_size_pos
  case labelled => exact fun rank number cell => labels_endedAt built rank
  case solved =>
    intro rank first allowed accepted
    have ended := solve_of_seek (seek_of_firstUnrefused first allowed)
    rw [accepted] at ended
    exact ⟨ended, solvedAt_outcome built rank⟩
  case failed =>
    intro rank unresolved first allowed failed
    have ended := solve_of_seek (seek_of_firstUnrefused first allowed)
    rw [failed] at ended
    exact ended
  case aborted =>
    intro noStop tests limited within
    have refused := refused_of_no_firstUnrefused within.le (by
      rintro ⟨rank, first, below⟩
      exact noStop ⟨rank, first, limited ▸ Nat.cast_lt.mpr below⟩)
    rw [solve_of_seek (seek_of_limit_lt limited within refused)]
    exact congrArg Except.ok (outcome_eq_unsolved built (by decide) _ _)
  case unsolvable =>
    intro noStop allowed
    have refused := refused_of_no_firstUnrefused (le_refl _) (by
      rintro ⟨rank, first, below⟩
      exact noStop ⟨rank, first, lt_of_lt_of_le (Nat.cast_lt.mpr below) allowed⟩)
    exact solve_of_all_refused built allowed refused
  case at_size =>
    intro refused
    refine solve_of_all_refused built ?_ refused
    rw [allowance, if_pos (Int.natCast_pos.mpr (searchSpace_pos built)), Int.toNat_natCast]

/-- Two records that must differ in their color, the first of them not red. -/
def pairPuzzle : Puzzle where
  file := none
  domains := [⟨"Color", ["red", "blue"]⟩]
  schemas := [⟨"Pair", [⟨"Color", "a", true⟩]⟩]
  declarations := [⟨"P", "Pair", some 2, ⟨0, 0⟩⟩]
  rules := [⟨⟨⟨"P", [.index 0, .field "a"], ⟨0, 0⟩⟩, true, ⟨"red", [], ⟨0, 0⟩⟩⟩, []⟩]

/-- The model of `pairPuzzle`: two cells that are peers. -/
def pairModel : Model where
  file := none
  domains := pairPuzzle.domains
  schemas := pairPuzzle.schemas
  scalars := []
  records :=
    [⟨"P", ⟨"Pair", [⟨"Color", "a", true⟩]⟩, [("a", ⟨"Color", ⟨"Color", ["red", "blue"]⟩⟩)], 2⟩]
  rules := pairPuzzle.rules
  cells := [⟨"Color", ⟨"Color", ["red", "blue"]⟩⟩, ⟨"Color", ⟨"Color", ["red", "blue"]⟩⟩]
  peers := [[1], [0]]

theorem solve_pairModel :
    build pairPuzzle = .ok pairModel ∧
      pairModel.solve (some 2) = .ok ((endedAt pairModel 1).outcome .solved) ∧
      ((endedAt pairModel 1).outcome .solved).records =
        [("P", [[("a", "blue")], [("a", "red")]])] := by
  have done : build pairPuzzle = .ok pairModel := by rfl
  have first : pairModel.FirstUnrefused 1 := ⟨by decide, by decide, by decide⟩
  have allowed : ((1 : Nat) : ℕ∞) < allowance (some 2) := by
    rw [allowance, if_pos (by decide)]
    exact Nat.cast_lt.mpr (by decide)
  exact ⟨done, ((solve_in_rank_order done (some 2)).solved 1 first allowed (by rfl)).1, by rfl⟩

end Model

end LogicPuzzle
