import LogicPuzzle.Proofs.Embedding
import LogicPuzzle.Proofs.Mirroring
import LogicPuzzle.Proofs.Slots
import LogicPuzzle.Proofs.Violations

/-!
# Declarations in another order

Declaring the arrays of a puzzle in another order numbers its cells in another
way.  A slot still has a number in both models, so the numbers of the one are
moved to those of the other, and the assignments with them.  What a reference
names is moved as well, and so the checks say the same.
-/

namespace LogicPuzzle

def Puzzle.redeclared (puzzle : Puzzle) (declarations : List Declaration) : Puzzle :=
  { puzzle with declarations }

def Assignment.moved (origin : Nat → Nat) (count : Nat) (assignment : Assignment) : Assignment :=
  (List.range count).map fun cell => assignment.placeOf (origin cell)

theorem Assignment.placeOf_moved (origin : Nat → Nat) {count cell : Nat} (inside : cell < count)
    (assignment : Assignment) :
    (assignment.moved origin count).placeOf cell = assignment.placeOf (origin cell) := by
  rw [placeOf, moved, List.getElem?_map, List.getElem?_range inside]
  rfl

namespace Model

variable {model twin : Model} {puzzle twinPuzzle : Puzzle} {move origin : Nat → Nat}

/-- Models that have the same arrays, in any order, and the same rules. -/
structure Rearranged (model twin : Model) : Prop where
  scalars : model.scalars.Perm twin.scalars
  records : model.records.Perm twin.records
  rules : twin.rules = model.rules

theorem Rearranged.symm (rearranged : model.Rearranged twin) : twin.Rearranged model :=
  ⟨rearranged.scalars.symm, rearranged.records.symm, rearranged.rules.symm⟩

def Moves (model twin : Model) (move : Nat → Nat) : Prop :=
  ∀ slot cell, model.number? slot = some cell → twin.number? slot = some (move cell)

/-! ## Moved numbers -/

section Rearranged

variable (built : model.BuiltFrom puzzle) (twinBuilt : twin.BuiltFrom twinPuzzle)
  (rearranged : model.Rearranged twin)
include built twinBuilt rearranged

theorem Rearranged.scalar? {name : String} {start : Nat} {array : ScalarArray}
    (found : model.scalar? name = some (start, array)) :
    ∃ other, twin.scalar? name = some (other, array) := by
  obtain ⟨member, named⟩ := built.scalar?_eq_some_iff.mp found
  have inTwin := rearranged.scalars.mem_iff.mp (exists_mem_numbered_iff.mp ⟨start, member⟩)
  obtain ⟨other, numbered⟩ := exists_mem_numbered_iff.mpr inTwin
  exact ⟨other, twinBuilt.scalar?_eq_some_iff.mpr ⟨numbered, named⟩⟩

theorem Rearranged.record? {name : String} {start : Nat} {array : RecordArray}
    (found : model.record? name = some (start, array)) :
    ∃ other, twin.record? name = some (other, array) := by
  obtain ⟨member, named⟩ := built.record?_eq_some_iff.mp found
  have inTwin := rearranged.records.mem_iff.mp (exists_mem_numbered_iff.mp ⟨start, member⟩)
  obtain ⟨other, numbered⟩ := exists_mem_numbered_iff.mpr inTwin
  exact ⟨other, twinBuilt.record?_eq_some_iff.mpr ⟨numbered, named⟩⟩

theorem Rearranged.number? {slot : Slot} {cell : Nat} (numbered : model.number? slot = some cell) :
    ∃ other, twin.number? slot = some other := by
  cases slot with
  | element name index =>
      obtain ⟨start, array, found, inside, _⟩ := number?_element_eq_some numbered
      obtain ⟨other, twinFound⟩ := rearranged.scalar? built twinBuilt found
      exact ⟨_, number?_element twinFound inside⟩
  | field name index field =>
      obtain ⟨start, array, place, found, inside, placed, _⟩ := number?_field_eq_some numbered
      obtain ⟨other, twinFound⟩ := rearranged.record? built twinBuilt found
      exact ⟨_, number?_field twinFound inside placed⟩

theorem Rearranged.exists_moves : ∃ move, model.Moves twin move := by
  have moved (cell : Nat) : ∃ other, ∀ slot, model.number? slot = some cell →
      twin.number? slot = some other := by
    by_cases named : ∃ slot, model.number? slot = some cell
    · rcases named with ⟨slot, numbered⟩
      obtain ⟨other, twinNumbered⟩ := rearranged.number? built twinBuilt numbered
      -- No other slot has this number.
      refine ⟨other, fun next nextNumbered => ?_⟩
      rw [built.number?_injective nextNumbered numbered, twinNumbered]
    · exact ⟨0, fun slot numbered => absurd ⟨slot, numbered⟩ named⟩
  choose move moves using moved
  exact ⟨move, fun slot cell => moves cell slot⟩

end Rearranged

section Moves

variable (built : model.BuiltFrom puzzle) (twinBuilt : twin.BuiltFrom twinPuzzle)
  (moves : model.Moves twin move)
include built moves

theorem Moves.number_lt (twinBuilt : twin.BuiltFrom twinPuzzle) {cell : Nat}
    (below : cell < model.cells.length) : move cell < twin.cells.length := by
  obtain ⟨slot, numbered⟩ := built.exists_slot below
  exact twinBuilt.number_lt (moves slot cell numbered)

theorem Moves.inverse (back : twin.Moves model origin) {cell : Nat}
    (below : cell < model.cells.length) : origin (move cell) = cell := by
  obtain ⟨slot, numbered⟩ := built.exists_slot below
  have returned := back slot _ (moves slot cell numbered)
  rw [numbered] at returned
  exact (Option.some.inj returned).symm

/-- The elements of a scalar array stay together. -/
theorem Moves.scalar {name : String} {start other : Nat} {array : ScalarArray}
    (found : model.scalar? name = some (start, array))
    (twinFound : twin.scalar? name = some (other, array)) :
    ∀ offset < array.size,
      start + offset < model.cells.length ∧ move (start + offset) = other + offset := by
  intro offset inside
  have numbered := number?_element found inside
  have moved := moves _ _ numbered
  rw [number?_element twinFound inside] at moved
  exact ⟨built.number_lt numbered, (Option.some.inj moved).symm⟩

/-- The fields of a record array stay together. -/
theorem Moves.record {name : String} {start other : Nat} {array : RecordArray}
    (found : model.record? name = some (start, array))
    (twinFound : twin.record? name = some (other, array)) :
    ∀ offset < array.extent,
      start + offset < model.cells.length ∧ move (start + offset) = other + offset := by
  intro offset inside
  obtain ⟨member, _⟩ := built.record?_eq_some_iff.mp found
  obtain ⟨index, field, place, within, placed, rfl⟩ := built.exists_cellNumber member inside
  have numbered := number?_field found within placed
  have moved := moves _ _ numbered
  rw [number?_field twinFound within placed] at moved
  exact ⟨built.number_lt numbered, (Option.some.inj moved).symm⟩

end Moves

/-! ## Moved assignments -/

section Checks

variable (built : model.BuiltFrom puzzle) (twinBuilt : twin.BuiltFrom twinPuzzle)
  (rearranged : model.Rearranged twin) (moves : model.Moves twin move)
include built twinBuilt rearranged moves

/-- The cell that a number is moved to is over the same domain. -/
theorem Rearranged.cells {cell : Nat} (below : cell < model.cells.length) :
    twin.cells[move cell]? = model.cells[cell]? := by
  obtain ⟨slot, numbered⟩ := built.exists_slot below
  have moved := moves slot cell numbered
  cases slot with
  | element name index =>
      obtain ⟨start, array, found, inside, rfl⟩ := number?_element_eq_some numbered
      obtain ⟨other, twinFound⟩ := rearranged.scalar? built twinBuilt found
      rw [number?_element twinFound inside] at moved
      rw [← Option.some.inj moved,
        twinBuilt.cells_of_scalar (twinBuilt.scalar?_eq_some_iff.mp twinFound).1 inside,
        built.cells_of_scalar (built.scalar?_eq_some_iff.mp found).1 inside]
  | field name index field =>
      obtain ⟨start, array, place, found, inside, placed, rfl⟩ := number?_field_eq_some numbered
      obtain ⟨other, twinFound⟩ := rearranged.record? built twinBuilt found
      have within := RecordArray.fieldPlace?_lt placed
      rw [number?_field twinFound inside placed] at moved
      rw [← Option.some.inj moved,
        twinBuilt.cells_of_record (twinBuilt.record?_eq_some_iff.mp twinFound).1 inside within,
        built.cells_of_record (built.record?_eq_some_iff.mp found).1 inside within]

/-- All that a model has is found at moved numbers in the rearranged one. -/
theorem Rearranged.embeds : Embeds move (fun _ => True) model twin where
  no_scalar {name} _ unfound := by
    refine Option.eq_none_iff_forall_ne_some.mpr fun entry twinFound => ?_
    obtain ⟨start, found⟩ := rearranged.symm.scalar? twinBuilt built twinFound
    rw [unfound] at found
    cases found
  no_record {name} _ unfound := by
    refine Option.eq_none_iff_forall_ne_some.mpr fun entry twinFound => ?_
    obtain ⟨start, found⟩ := rearranged.symm.record? twinBuilt built twinFound
    rw [unfound] at found
    cases found
  scalar _ found := by
    obtain ⟨other, twinFound⟩ := rearranged.scalar? built twinBuilt found
    exact ⟨other, twinFound, moves.scalar built found twinFound⟩
  record _ found := by
    obtain ⟨other, twinFound⟩ := rearranged.record? built twinBuilt found
    exact ⟨other, twinFound, moves.record built found twinFound⟩
  cells _ below := rearranged.cells built twinBuilt moves below

/-- An assignment in range is moved to one. -/
theorem Rearranged.mapsTo :
    Set.MapsTo (Assignment.moved move model.cells.length) twin.assignments model.assignments := by
  intro assignment inRange
  refine Assignment.inRange_iff.mpr ⟨?_, fun number cell found => ?_⟩
  · rw [Assignment.moved, List.length_map, List.length_range]
  · have below := (List.getElem?_eq_some_iff.mp found).1
    rw [Assignment.placeOf_moved move below]
    rw [← rearranged.cells built twinBuilt moves below] at found
    exact inRange.placeOf_bounds found

variable {held holding : Assignment} (repeats : Repeats move model held holding)
include repeats

/-- The elements of record arrays differ where they did. -/
theorem Rearranged.checkUniqueness :
    twin.checkUniqueness holding = model.checkUniqueness held := by
  rw [Bool.eq_iff_iff, twinBuilt.checkUniqueness_iff_differs, built.checkUniqueness_iff_differs]
  have same {name : String} {start other : Nat} {array : RecordArray}
      (found : model.record? name = some (start, array))
      (twinFound : twin.record? name = some (other, array)) :
      array.Differs (fun offset => holding.placeOf (other + offset)) ↔
        array.Differs fun offset => held.placeOf (start + offset) := by
    refine differs_congr fun offset inside => ?_
    obtain ⟨below, moved⟩ := moves.record built found twinFound offset inside
    rw [← moved, repeats _ below]
  constructor
  · rintro differs ⟨start, array⟩ member
    have found := built.record?_eq_some_iff.mpr ⟨member, rfl⟩
    obtain ⟨other, twinFound⟩ := rearranged.record? built twinBuilt found
    exact (same found twinFound).mp (differs _ (twinBuilt.record?_eq_some_iff.mp twinFound).1)
  · rintro differs ⟨other, array⟩ member
    have twinFound := twinBuilt.record?_eq_some_iff.mpr ⟨member, rfl⟩
    obtain ⟨start, found⟩ := rearranged.symm.record? twinBuilt built twinFound
    exact (same found twinFound).mpr (differs _ (built.record?_eq_some_iff.mp found).1)

/-- A check that gives a result gives the same one of the moved assignment. -/
theorem Rearranged.check {result : Bool} (checked : model.check held = .ok result) :
    twin.check holding = .ok result := by
  have embeds := rearranged.embeds built twinBuilt moves
  rw [Model.check] at checked ⊢
  rw [rearranged.checkUniqueness built twinBuilt moves repeats]
  split at checked
  · next unique =>
      rw [if_pos unique, checkRules, rearranged.rules]
      exact embeds.checkRules repeats (fun _ _ _ _ => trivial) checked
  · next conflicting => rwa [if_neg conflicting]

end Checks

section Mirror

variable (built : model.BuiltFrom puzzle) (twinBuilt : twin.BuiltFrom twinPuzzle)
  (rearranged : model.Rearranged twin) (moves : model.Moves twin move)
  (back : twin.Moves model origin)
include built twinBuilt moves back

theorem Moves.repeats (assignment : Assignment) :
    Repeats move model assignment (assignment.moved origin twin.cells.length) := by
  intro cell below
  rw [Assignment.placeOf_moved origin (moves.number_lt built twinBuilt below),
    moves.inverse built back below]

theorem Moves.leftInvOn : Set.LeftInvOn (Assignment.moved move model.cells.length)
    (Assignment.moved origin twin.cells.length) model.assignments := by
  intro assignment inRange
  have count : assignment.length = model.cells.length := (Assignment.inRange_iff.mp inRange).1
  refine Assignment.ext_placeOf ?_ fun cell below => ?_
  · rw [Assignment.moved, List.length_map, List.length_range, count]
  · rw [Assignment.moved, List.length_map, List.length_range] at below
    rw [Assignment.placeOf_moved move below,
      moves.repeats built twinBuilt back assignment cell below]

include rearranged

theorem Rearranged.mirrors
    (checks : ∀ assignment ∈ model.assignments, ∃ result, model.check assignment = .ok result) :
    model.Mirrors twin (Assignment.moved origin twin.cells.length) where
  bijective := by
    refine Set.InvOn.bijOn ⟨moves.leftInvOn built twinBuilt back, ?_⟩
      (rearranged.symm.mapsTo twinBuilt built back) (rearranged.mapsTo built twinBuilt moves)
    exact back.leftInvOn twinBuilt built moves
  check assignment inRange := by
    obtain ⟨result, checked⟩ := checks assignment inRange
    rw [checked]
    exact rearranged.check built twinBuilt moves
      (moves.repeats built twinBuilt back assignment) checked

end Mirror

/-! ## Declarations in another order -/

/-- A puzzle with its declarations in another order has a model with the same arrays. -/
theorem BuiltFrom.exists_rearranged (built : model.BuiltFrom puzzle)
    {declarations : List Declaration} (perm : puzzle.declarations.Perm declarations) :
    ∃ twin : Model, twin.BuiltFrom (puzzle.redeclared declarations) ∧ model.Rearranged twin := by
  have wellFormed := built.wellFormed
  obtain ⟨twin, twinBuilt⟩ : ∃ twin : Model, twin.BuiltFrom (puzzle.redeclared declarations) :=
    exists_builtFrom {
      labelled := wellFormed.labelled
      types_distinct := wellFormed.types_distinct
      arrays_distinct := (perm.map _).nodup_iff.mp wellFormed.arrays_distinct
      typed declaration member := wellFormed.typed declaration (perm.mem_iff.mpr member)
      fields_typed declaration member :=
        wellFormed.fields_typed declaration (perm.mem_iff.mpr member) }
  refine ⟨twin, twinBuilt, ?_, ?_, twinBuilt.rules.trans built.rules.symm⟩
  · rw [built.scalars, twinBuilt.scalars]
    exact perm.filterMap puzzle.scalarArray?
  · rw [built.records, twinBuilt.records]
    exact perm.filterMap puzzle.recordArray?

/-- In whatever order its arrays are declared, a puzzle is as solvable. -/
theorem BuiltFrom.equallySolvable_redeclared (built : model.BuiltFrom puzzle)
    (checks : ∀ assignment ∈ model.assignments, ∃ result, model.check assignment = .ok result)
    {declarations : List Declaration} (perm : puzzle.declarations.Perm declarations) :
    ∃ twin, build (puzzle.redeclared declarations) = .ok twin ∧ model.EquallySolvable twin := by
  obtain ⟨twin, twinBuilt, rearranged⟩ := built.exists_rearranged perm
  obtain ⟨move, moves⟩ := rearranged.exists_moves built twinBuilt
  obtain ⟨origin, back⟩ := rearranged.symm.exists_moves twinBuilt built
  exact ⟨twin, build_of_builtFrom twinBuilt,
    (rearranged.mirrors built twinBuilt moves back checks).equallySolvable built twinBuilt checks⟩

end Model

end LogicPuzzle
