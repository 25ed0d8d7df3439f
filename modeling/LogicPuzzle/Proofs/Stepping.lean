import LogicPuzzle.Proofs.SearchEnd
import Mathlib.Data.List.Nodup

/-!
# Searches driven by calls

Whatever calls have been made to a search of a built model, and however they
ended, every cell holds a place of its own domain.  So a search always stands at
a rank, and advancing adds one to the rank, modulo the number of assignments.
Advancing from the start until there is no next assignment therefore visits
every assignment once.
-/

namespace LogicPuzzle

namespace Search

inductive Call where
  | reset
  | advance
  | check
  | solve (limit : Option Int)
  deriving DecidableEq, Repr

/-- The search that a call leaves behind, whether the call gives a result or fails. -/
def after (search : Search) : Call → Search
  | .reset => search.reset
  | .advance => search.advance.2
  | .check => search
  | .solve limit => (search.solve limit).2

def afterAll (search : Search) (calls : List Call) : Search :=
  calls.foldl after search

def Reached (search : Search) (model : Model) : Prop :=
  ∃ calls, search = (ofModel model).afterAll calls

def rank (search : Search) : Nat :=
  Odometer.rank search.model.cells search.assignment

structure Within (search : Search) (model : Model) : Prop where
  model_eq : search.model = model
  inRange : search.assignment.InRange model.cells

/-- Advancing as long as there is a next assignment: the searches that this goes through, and
the one that it leaves behind. -/
inductive Drives : Search → List Search → Search → Prop where
  | last {search final : Search} (ended : search.advance = (false, final)) :
      Drives search [] final
  | next {search following final : Search} {visited : List Search}
      (moved : search.advance = (true, following)) (others : Drives following visited final) :
      Drives search (following :: visited) final

variable {model : Model} {puzzle : Puzzle} {search final : Search} {visited : List Search}

/-! ## One call -/

theorem Within.count (within : search.Within model) : search.count.Within model :=
  ⟨within.model_eq, within.inRange⟩

theorem Within.rank_lt (within : search.Within model) : search.rank < model.searchSpace := by
  rw [rank, within.model_eq]
  exact Odometer.rank_lt within.inRange

theorem Within.assignment_eq (within : search.Within model) :
    search.assignment = model.assignmentAt search.rank := by
  rw [rank, within.model_eq]
  exact (Odometer.places_rank within.inRange).symm

/-- Advancing goes to the next rank, and from the last rank back to the first. -/
theorem Within.advance_eq (within : search.Within model) :
    search.advance = (decide (search.rank + 1 < model.searchSpace),
      { search with
        assignment := model.assignmentAt ((search.rank + 1) % model.searchSpace) }) := by
  have turned : turn model.cells (Odometer.places model.cells search.rank) = _ :=
    Odometer.turn_places within.rank_lt
  have stands : search.assignment = Odometer.places model.cells search.rank :=
    within.assignment_eq
  rw [advance, within.model_eq, stands, turned]
  rfl

theorem Within.advance_of_lt (within : search.Within model)
    (more : search.rank + 1 < model.searchSpace) :
    search.advance =
      (true, { search with assignment := model.assignmentAt (search.rank + 1) }) := by
  rw [within.advance_eq, decide_eq_true more, Nat.mod_eq_of_lt more]

theorem Within.advance_last (within : search.Within model)
    (last : search.rank + 1 = model.searchSpace) :
    search.advance = (false, { search with assignment := model.assignmentAt 0 }) := by
  rw [within.advance_eq, last, decide_eq_false (Nat.lt_irrefl _), Nat.mod_self]

section Built

variable (built : model.BuiltFrom puzzle)
include built

theorem within_assignmentAt (number : Nat) (tests : Int) :
    (Search.mk model (model.assignmentAt number) tests).Within model :=
  ⟨rfl, Odometer.places_inRange built.cell_size_pos number⟩

theorem within_ofModel : (ofModel model).Within model := by
  rw [ofModel_eq_atRank_zero]
  exact within_assignmentAt built 0 _

theorem Within.reset (within : search.Within model) : search.reset.Within model := by
  rw [Search.reset, within.model_eq]
  exact within_ofModel built

theorem Within.advance (within : search.Within model) : search.advance.2.Within model := by
  rw [within.advance_eq]
  exact ⟨within.model_eq, Odometer.places_inRange built.cell_size_pos _⟩

/-- A search that goes on testing assignments stays in range, however it ends. -/
theorem Within.seek (within : search.Within model) (limit : Option Int) (bound : Nat) :
    (seek limit bound search).2.Within model :=
  seek_invariant (fun final => final.Within model) (fun _ => Within.count)
    (fun _ stands => stands.advance built) limit bound within

theorem Within.after (within : search.Within model) (call : Call) :
    (search.after call).Within model := by
  cases call with
  | reset => exact within.reset built
  | advance => exact within.advance built
  | check => exact within
  | solve limit => exact (within.reset built).seek built _ _

/-! ## All calls -/

theorem Within.afterAll (within : search.Within model) (calls : List Call) :
    (search.afterAll calls).Within model := by
  induction calls generalizing search with
  | nil => exact within
  | cons call calls ih => exact ih (within.after built call)

end Built

/-! ## Advancing to the end -/

/-- The search that stands at a rank and has tested nothing. -/
def standingAt (model : Model) (number : Nat) : Search :=
  ⟨model, model.assignmentAt number, 0⟩

theorem rank_standingAt {number : Nat} (bound : number < model.searchSpace) :
    (standingAt model number).rank = number :=
  Odometer.rank_places bound

theorem ofModel_eq_standingAt (model : Model) : ofModel model = standingAt model 0 :=
  ofModel_eq_atRank_zero model

theorem Drives.unique {others : List Search} {other : Search}
    (drives : Drives search visited final) (otherwise : Drives search others other) :
    visited = others ∧ final = other := by
  induction drives generalizing others with
  | last ended =>
      cases otherwise with
      | last ended' =>
          rw [ended] at ended'
          exact ⟨rfl, (Prod.mk.inj ended').2⟩
      | next moved _ =>
          rw [ended] at moved
          cases moved
  | next moved _ ih =>
      cases otherwise with
      | last ended =>
          rw [moved] at ended
          cases ended
      | next moved' following =>
          rw [moved] at moved'
          obtain ⟨_, rfl⟩ := Prod.mk.inj moved'
          obtain ⟨rfl, rfl⟩ := ih following
          exact ⟨rfl, rfl⟩

theorem advance_standingAt (built : model.BuiltFrom puzzle) {number : Nat}
    (more : number + 1 < model.searchSpace) :
    (standingAt model number).advance = (true, standingAt model (number + 1)) := by
  have within : (standingAt model number).Within model := within_assignmentAt built number 0
  have rank := rank_standingAt (Nat.lt_of_succ_lt more)
  rw [within.advance_of_lt (rank.symm ▸ more), rank]
  rfl

theorem advance_standingAt_last (built : model.BuiltFrom puzzle) {number : Nat}
    (last : number + 1 = model.searchSpace) :
    (standingAt model number).advance = (false, standingAt model 0) := by
  have within : (standingAt model number).Within model := within_assignmentAt built number 0
  have rank := rank_standingAt (Nat.lt_of_succ_le last.le)
  rw [within.advance_last (rank.symm ▸ last)]
  rfl

/-- From a rank on, advancing goes through all ranks that are left. -/
theorem drives_standingAt (built : model.BuiltFrom puzzle) {left number : Nat}
    (bound : number + 1 + left = model.searchSpace) :
    Drives (standingAt model number) ((List.range' (number + 1) left).map (standingAt model))
      (standingAt model 0) := by
  induction left generalizing number with
  | zero => exact .last (advance_standingAt_last built bound)
  | succ left ih => exact .next (advance_standingAt built (by omega)) (ih (by omega))

theorem Reached.after (reached : search.Reached model) (call : Call) :
    (search.after call).Reached model := by
  rcases reached with ⟨calls, rfl⟩
  refine ⟨calls ++ [call], ?_⟩
  rw [afterAll, afterAll, List.foldl_append]
  rfl

/-- Advancing leads to every rank. -/
theorem reached_standingAt (built : model.BuiltFrom puzzle) {number : Nat}
    (bound : number < model.searchSpace) : (standingAt model number).Reached model := by
  induction number with
  | zero => exact ⟨[], (ofModel_eq_standingAt model).symm⟩
  | succ number ih =>
      have moved : (standingAt model number).after .advance = standingAt model (number + 1) :=
        congrArg Prod.snd (advance_standingAt built bound)
      rw [← moved]
      exact (ih (Nat.lt_of_succ_lt bound)).after .advance

/-- Some calls lead to every assignment in range. -/
theorem exists_reached (built : model.BuiltFrom puzzle) {assignment : Assignment}
    (inRange : assignment.InRange model.cells) :
    ∃ search : Search, search.Reached model ∧ search.assignment = assignment :=
  ⟨_, reached_standingAt built (Odometer.rank_lt inRange), Odometer.places_rank inRange⟩

/-- Advancing from the start goes through all ranks and comes back to the first one. -/
theorem drives_from_start (built : model.BuiltFrom puzzle) :
    ∃ visited, Drives (standingAt model 0) visited (standingAt model 0) ∧
      standingAt model 0 :: visited = (List.range model.searchSpace).map (standingAt model) := by
  obtain ⟨left, size⟩ := Nat.exists_eq_add_one.mpr (Model.searchSpace_pos built)
  have bound : 0 + 1 + left = model.searchSpace := by omega
  refine ⟨_, drives_standingAt built bound, ?_⟩
  rw [size, List.range_eq_range', List.range'_succ, List.map_cons]

theorem map_rank_standingAt (model : Model) :
    ((List.range model.searchSpace).map (standingAt model)).map rank =
      List.range model.searchSpace := by
  rw [List.map_map]
  refine (List.map_congr_left fun number member => ?_).trans (List.map_id _)
  exact rank_standingAt (List.mem_range.mp member)

/-- The assignments in range are those of all ranks. -/
theorem inRange_iff_mem_assignments (built : model.BuiltFrom puzzle) {assignment : Assignment} :
    assignment.InRange model.cells ↔
      assignment ∈ (List.range model.searchSpace).map model.assignmentAt := by
  constructor
  · intro inRange
    exact List.mem_map.mpr ⟨Odometer.rank model.cells assignment,
      List.mem_range.mpr (Odometer.rank_lt inRange), Odometer.places_rank inRange⟩
  · intro member
    obtain ⟨number, _, rfl⟩ := List.mem_map.mp member
    exact Odometer.places_inRange built.cell_size_pos number

theorem nodup_assignments (model : Model) :
    ((List.range model.searchSpace).map model.assignmentAt).Nodup := by
  refine List.Nodup.map_on ?_ List.nodup_range
  intro first firstMember second secondMember same
  have back := congrArg (Odometer.rank model.cells) same
  unfold Model.assignmentAt at back
  rwa [Odometer.rank_places (List.mem_range.mp firstMember),
    Odometer.rank_places (List.mem_range.mp secondMember)] at back

end Search

namespace Model

open Search

variable {model : Model} {puzzle : Puzzle} {search : Search}

/-- A search of a built model, whatever calls it has been driven by, stands at the assignment of
a rank, and advancing goes on to the next rank.  Put back to the start it advances through every
assignment once. -/
theorem driven_in_rank_order (done : build puzzle = .ok model) (reached : search.Reached model) :
    search.model = model ∧ search.assignment.InRange model.cells ∧
    search.rank < model.searchSpace ∧
    search.assignment = model.assignmentAt search.rank ∧
    search.advance.2.assignment =
      model.assignmentAt ((search.rank + 1) % model.searchSpace) ∧
    (search.advance.1 = false ↔ search.rank = model.searchSpace - 1) ∧
    ∃ visited final,
      (∀ others other, Drives search.reset others other ↔ others = visited ∧ other = final) ∧
      visited.length = model.searchSpace - 1 ∧
      (search.reset :: visited).map rank = List.range model.searchSpace ∧
      ((search.reset :: visited).map Search.assignment).Nodup ∧
      (∀ assignment : Assignment, assignment.InRange model.cells ↔
        assignment ∈ (search.reset :: visited).map Search.assignment) ∧
      final.assignment = model.cells.map fun _ => 0 := by
  have built := builtFrom_of_build done
  rcases reached with ⟨calls, rfl⟩
  have within := (within_ofModel built).afterAll built calls
  generalize (ofModel model).afterAll calls = search at within
  have bound := within.rank_lt
  obtain ⟨visited, drives, through⟩ := drives_from_start built
  have start : search.reset = standingAt model 0 := by
    rw [Search.reset, within.model_eq, ofModel_eq_standingAt]
  refine ⟨within.model_eq, within.inRange, bound, within.assignment_eq, ?_, ?_, visited,
    standingAt model 0, ?_, ?_, ?_, ?_, ?_, Odometer.places_zero model.cells⟩
  · rw [within.advance_eq]
  · rw [within.advance_eq]
    simp only [decide_eq_false_iff_not]
    omega
  · intro others other
    rw [start]
    constructor
    · intro otherwise
      exact otherwise.unique drives
    · rintro ⟨rfl, rfl⟩
      exact drives
  · have count := congrArg List.length through
    rw [List.length_cons, List.length_map, List.length_range] at count
    omega
  · rw [start, through]
    exact map_rank_standingAt model
  · rw [start, through, List.map_map]
    exact nodup_assignments model
  · intro assignment
    rw [start, through, List.map_map]
    exact inRange_iff_mem_assignments built

/-- Two colors and three sizes.  The second rule names no array, so the check fails once the
first rule holds. -/
def adriftPuzzle : Puzzle where
  file := none
  domains := [⟨"Color", ["red", "blue"]⟩, ⟨"Size", ["small", "medium", "large"]⟩]
  schemas := []
  declarations := [⟨"C", "Color", none, ⟨3, 1⟩⟩, ⟨"S", "Size", none, ⟨4, 1⟩⟩]
  rules := [
    ⟨⟨⟨"C", [.index 0], ⟨5, 1⟩⟩, false, ⟨"blue", [], ⟨5, 8⟩⟩⟩, []⟩,
    ⟨⟨⟨"T", [.index 0], ⟨6, 1⟩⟩, false, ⟨"large", [], ⟨6, 8⟩⟩⟩, []⟩]

def adriftModel : Model where
  file := none
  domains := adriftPuzzle.domains
  schemas := []
  scalars := [⟨"C", ⟨"Color", ⟨"Color", ["red", "blue"]⟩⟩, 1⟩,
    ⟨"S", ⟨"Size", ⟨"Size", ["small", "medium", "large"]⟩⟩, 1⟩]
  records := []
  rules := adriftPuzzle.rules
  cells := [⟨"Color", ⟨"Color", ["red", "blue"]⟩⟩,
    ⟨"Size", ⟨"Size", ["small", "medium", "large"]⟩⟩]
  peers := [[], []]

/-- A search that has failed at the second assignment and was moved on stands at the third one,
and can be moved on to the fourth one. -/
theorem driven_adriftModel :
    build adriftPuzzle = .ok adriftModel ∧ adriftModel.searchSpace = 6 ∧
      ((ofModel adriftModel).solve none).1 =
        .error (.fault ⟨.unknownArray "T", none⟩) ∧
      ((ofModel adriftModel).afterAll [.solve none, .advance]).rank = 2 ∧
      ((ofModel adriftModel).afterAll [.solve none, .advance]).advance.2.assignment =
        adriftModel.assignmentAt 3 := by
  have done : build adriftPuzzle = .ok adriftModel := by rfl
  have rank : ((ofModel adriftModel).afterAll [.solve none, .advance]).rank = 2 := by decide
  have moved := (driven_in_rank_order done ⟨[.solve none, .advance], rfl⟩).2.2.2.2.1
  rw [rank] at moved
  exact ⟨done, rfl, rfl, rank, moved⟩

end Model

end LogicPuzzle
