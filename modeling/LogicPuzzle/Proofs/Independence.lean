import LogicPuzzle.Proofs.Beside
import LogicPuzzle.Proofs.Embedding
import LogicPuzzle.Proofs.Placings
import LogicPuzzle.Proofs.Progress

/-!
# Independent puzzles

Two puzzles are independent when they share no name of a type or of an array and
no rule of one compares an array of the other.  Each model is then found within
the model of both, so the check of both accepts an assignment when each check
accepts its part.  The odometer of both turns the scalar cells of the two
puzzles before their record cells.  A smaller rank of one part still is a
smaller rank of the whole while the other part stays, so the first solution of
the whole is the pair of the first solutions.
-/

namespace LogicPuzzle

/-- Two puzzles that share no names, and whose rules do not compare arrays of the other one. -/
structure Puzzle.Independent (first second : Puzzle) : Prop where
  types : ∀ name ∈ first.typeNames, name ∉ second.typeNames
  arrays : ∀ name ∈ first.arrayNames, name ∉ second.arrayNames
  first_rules : ∀ rule ∈ first.rules, ∀ name ∈ rule.names, name ∉ second.arrayNames
  second_rules : ∀ rule ∈ second.rules, ∀ name ∈ rule.names, name ∉ first.arrayNames

namespace Model

variable {first second model : Model} {firstPuzzle secondPuzzle puzzle : Puzzle} {name : String}

/-! ## Where the cells go -/

section Blocks

variable {α : Type} {firstScalars firstRecords secondScalars secondRecords : List α} {cell : Nat}

/-- Of two lists in two parts each, put together part by part, the first one is found where the
cells of the first model go. -/
theorem getElem?_first (ahead : firstScalars.length = first.scalarCount)
    (between : secondScalars.length = second.scalarCount)
    (inside : cell < (firstScalars ++ firstRecords).length) :
    ((firstScalars ++ secondScalars) ++ (firstRecords ++ secondRecords))[
        first.moved 0 second.scalarCount cell]? = (firstScalars ++ firstRecords)[cell]? := by
  rw [← getElem?_moved ahead List.length_nil ((Nat.zero_add _).trans between) inside,
    List.nil_append, List.append_assoc]

/-- The second one is found where the cells of the second model go. -/
theorem getElem?_second (ahead : firstScalars.length = first.scalarCount)
    (between : firstRecords.length = first.recordCount)
    (count : secondScalars.length = second.scalarCount)
    (inside : cell < (secondScalars ++ secondRecords).length) :
    ((firstScalars ++ secondScalars) ++ (firstRecords ++ secondRecords))[
        second.moved first.scalarCount (first.scalarCount + first.recordCount) cell]? =
      (secondScalars ++ secondRecords)[cell]? := by
  rw [← getElem?_moved count ahead (congrArg₂ (· + ·) ahead between) inside,
    List.append_assoc, List.append_nil]

end Blocks

theorem embeds_first (built : first.BuiltFrom puzzle) (second : Model) :
    Embeds (first.moved 0 second.scalarCount) (· ∉ second.arrayNames) first
      (first.beside second) := by
  apply embeds_moved built
  · intro name absent
    rw [scalar?_beside, scalar?_eq_none absent]
    exact Option.or_none
  · intro name absent
    rw [record?_beside, record?_eq_none absent]
    exact Option.or_none
  · rw [built.cells_eq, cells_beside]
    intro cell inside
    exact getElem?_first first.length_scalarCells second.length_scalarCells inside

theorem embeds_second (built : second.BuiltFrom puzzle) (first : Model) :
    Embeds (second.moved first.scalarCount (first.scalarCount + first.recordCount))
      (· ∉ first.arrayNames) second (first.beside second) := by
  apply embeds_moved built
  · intro name absent
    rw [scalar?_beside, scalar?_eq_none absent]
    exact Option.none_or
  · intro name absent
    rw [record?_beside, record?_eq_none absent]
    exact Option.none_or
  · rw [built.cells_eq, cells_beside]
    intro cell inside
    exact getElem?_second first.length_scalarCells first.length_recordCells
      second.length_scalarCells inside

/-! ## Placings of both -/

namespace Placing

def beside (left : Placing first) (right : Placing second) : Placing (first.beside second) where
  scalars := left.scalars ++ right.scalars
  records := left.records ++ right.records
  scalars_inRange := by
    rw [scalarCells_beside]
    exact List.rel_append left.scalars_inRange right.scalars_inRange
  records_inRange := by
    rw [recordCells_beside]
    exact List.rel_append left.records_inRange right.records_inRange

theorem exists_beside (whole : Placing (first.beside second)) :
    ∃ (left : Placing first) (right : Placing second), whole = left.beside right := by
  obtain ⟨scalars, records, scalarsInRange, recordsInRange⟩ := whole
  have scalarsCut := scalarsInRange
  have recordsCut := recordsInRange
  rw [scalarCells_beside] at scalarsCut
  rw [recordCells_beside] at recordsCut
  obtain ⟨leftScalars, rightScalars, rfl, leftScalarsIn, rightScalarsIn⟩ :=
    Odometer.exists_of_inRange_append scalarsCut
  obtain ⟨leftRecords, rightRecords, rfl, leftRecordsIn, rightRecordsIn⟩ :=
    Odometer.exists_of_inRange_append recordsCut
  exact ⟨⟨leftScalars, leftRecords, leftScalarsIn, leftRecordsIn⟩,
    ⟨rightScalars, rightRecords, rightScalarsIn, rightRecordsIn⟩, rfl⟩

/-- The scalar cells of both models turn before their record cells. -/
theorem rank_beside (left : Placing first) (right : Placing second) :
    (left.beside right).rank =
      (Odometer.rank first.scalarCells left.scalars +
        Odometer.span first.scalarCells * Odometer.rank second.scalarCells right.scalars) +
      Odometer.span first.scalarCells * Odometer.span second.scalarCells *
        (Odometer.rank first.recordCells left.records +
          Odometer.span first.recordCells * Odometer.rank second.recordCells right.records) := by
  rw [rank, scalarCells_beside, recordCells_beside, Odometer.span_append, beside,
    Odometer.rank_append left.scalars_inRange, Odometer.rank_append left.records_inRange]

/-- A placing of both models does not come later when none of its parts does. -/
theorem rank_beside_le {left other : Placing first} {right another : Placing second}
    (leftLe : left.rank ≤ other.rank) (rightLe : right.rank ≤ another.rank) :
    (left.beside right).rank ≤ (other.beside another).rank := by
  have leftLow := Odometer.rank_lt left.scalars_inRange
  have otherLow := Odometer.rank_lt other.scalars_inRange
  have rightLow := Odometer.rank_lt right.scalars_inRange
  have anotherLow := Odometer.rank_lt another.scalars_inRange
  rw [rank_beside, rank_beside,
    Odometer.digits_le_iff (Odometer.digits_lt leftLow rightLow)
      (Odometer.digits_lt otherLow anotherLow)]
  rw [rank, rank, Odometer.digits_le_iff leftLow otherLow] at leftLe
  rw [rank, rank, Odometer.digits_le_iff rightLow anotherLow] at rightLe
  -- The record cells of the second model are the highest digits, then come those of the first.
  rcases rightLe with higher | ⟨rightSame, rightLowLe⟩
  · have below := Odometer.digits_lt (Odometer.rank_lt left.records_inRange) higher
    exact .inl (Nat.lt_of_lt_of_le below (Nat.le_add_left _ _))
  · rw [rightSame]
    rcases leftLe with higher | ⟨leftSame, leftLowLe⟩
    · exact .inl (Nat.add_lt_add_right higher _)
    · rw [leftSame]
      exact .inr ⟨rfl, Nat.add_le_add leftLowLe (Nat.mul_le_mul_left _ rightLowLe)⟩

theorem repeats_first (built : first.BuiltFrom puzzle) (left : Placing first)
    (right : Placing second) :
    Repeats (first.moved 0 second.scalarCount) first left.assignment
      (left.beside right).assignment := by
  intro cell inside
  rw [(left.inRange built).length_eq] at inside
  exact congrArg (·.getD 0) (getElem?_first left.length_scalars right.length_scalars inside)

theorem repeats_second (built : second.BuiltFrom puzzle) (left : Placing first)
    (right : Placing second) :
    Repeats (second.moved first.scalarCount (first.scalarCount + first.recordCount)) second
      right.assignment (left.beside right).assignment := by
  intro cell inside
  rw [(right.inRange built).length_eq] at inside
  exact congrArg (·.getD 0)
    (getElem?_second left.length_scalars left.length_records right.length_scalars inside)

end Placing

/-! ## The check of both -/

theorem allM_append_ok {ε α : Type} {test : α → Except ε Bool} {elements more : List α}
    {passed others : Bool} (tested : elements.allM test = .ok passed)
    (moreTested : more.allM test = .ok others) :
    (elements ++ more).allM test = .ok (passed && others) := by
  induction elements with
  | nil =>
      cases tested
      exact moreTested
  | cons first rest ih =>
      rw [List.allM_cons] at tested
      rw [List.cons_append, List.allM_cons]
      obtain ⟨firstPassed, firstTested, later⟩ := ok_of_bind tested
      rw [firstTested]
      cases firstPassed with
      | true => exact ih later
      | false =>
          cases later
          rfl

section Both

variable (firstBuilt : first.BuiltFrom firstPuzzle) (secondBuilt : second.BuiltFrom secondPuzzle)
  (independent : firstPuzzle.Independent secondPuzzle)
include firstBuilt secondBuilt independent

theorem beside_built : (first.beside second).BuiltFrom (firstPuzzle.append secondPuzzle) :=
  builtFrom_beside firstBuilt secondBuilt independent.types independent.arrays

theorem checkUniqueness_beside (left : Placing first) (right : Placing second) :
    (first.beside second).checkUniqueness (left.beside right).assignment =
      (first.checkUniqueness left.assignment && second.checkUniqueness right.assignment) := by
  rw [Bool.eq_iff_iff, Bool.and_eq_true,
    (beside_built firstBuilt secondBuilt independent).checkUniqueness_iff_differs,
    firstBuilt.checkUniqueness_iff_differs, secondBuilt.checkUniqueness_iff_differs,
    numberedRecords_beside, List.forall_mem_append]
  exact and_congr (differs_moved firstBuilt (left.repeats_first firstBuilt right))
    (differs_moved secondBuilt (left.repeats_second secondBuilt right))

/-- The check of both models accepts a placing of both if each check accepts its part. -/
theorem check_beside {left : Placing first} {right : Placing second} {accepted also : Bool}
    (firstChecked : first.check left.assignment = .ok accepted)
    (secondChecked : second.check right.assignment = .ok also) :
    (first.beside second).check (left.beside right).assignment = .ok (accepted && also) := by
  have firstOwned : ∀ rule ∈ first.rules, ∀ name ∈ rule.names, name ∉ second.arrayNames := by
    simp only [firstBuilt.rules, secondBuilt.arrayNames_perm.mem_iff]
    exact independent.first_rules
  have secondOwned : ∀ rule ∈ second.rules, ∀ name ∈ rule.names, name ∉ first.arrayNames := by
    simp only [secondBuilt.rules, firstBuilt.arrayNames_perm.mem_iff]
    exact independent.second_rules
  rw [check] at firstChecked secondChecked ⊢
  rw [checkUniqueness_beside firstBuilt secondBuilt independent]
  cases firstUnique : first.checkUniqueness left.assignment with
  | false =>
      rw [firstUnique] at firstChecked
      cases firstChecked
      rfl
  | true =>
      rw [firstUnique] at firstChecked
      cases secondUnique : second.checkUniqueness right.assignment with
      | false =>
          rw [secondUnique] at secondChecked
          cases secondChecked
          rw [Bool.and_false, Bool.and_false]
          rfl
      | true =>
          rw [secondUnique] at secondChecked
          exact allM_append_ok
            ((embeds_first firstBuilt second).checkRules (left.repeats_first firstBuilt right)
              firstOwned firstChecked)
            ((embeds_second secondBuilt first).checkRules (left.repeats_second secondBuilt right)
              secondOwned secondChecked)

/-- The pair of the first solutions is the first solution of both models. -/
theorem first_beside
    (firstChecks : ∀ assignment, ∃ accepted, first.check assignment = .ok accepted)
    (secondChecks : ∀ assignment, ∃ accepted, second.check assignment = .ok accepted)
    {left : Placing first} {right : Placing second} (leftFirst : left.First)
    (rightFirst : right.First) : (left.beside right).First where
  accepted :=
    check_beside firstBuilt secondBuilt independent leftFirst.accepted rightFirst.accepted
  earlier := by
    intro other before
    obtain ⟨otherLeft, otherRight, rfl⟩ := Placing.exists_beside other
    obtain ⟨accepted, checked⟩ := firstChecks otherLeft.assignment
    obtain ⟨also, alsoChecked⟩ := secondChecks otherRight.assignment
    rw [check_beside firstBuilt secondBuilt independent checked alsoChecked]
    by_cases leftLe : left.rank ≤ otherLeft.rank
    · -- The part in the second model comes earlier.
      have rightLt : otherRight.rank < right.rank := by
        by_contra rightLe
        exact absurd (Placing.rank_beside_le leftLe (Nat.le_of_not_lt rightLe))
          (Nat.not_le.mpr before)
      rw [rightFirst.earlier otherRight rightLt] at alsoChecked
      cases alsoChecked
      rw [Bool.and_false]
    · rw [leftFirst.earlier otherLeft (Nat.lt_of_not_le leftLe)] at checked
      cases checked
      rfl

theorem refused_beside
    (firstChecks : ∀ assignment, ∃ accepted, first.check assignment = .ok accepted)
    (secondChecks : ∀ assignment, ∃ accepted, second.check assignment = .ok accepted)
    (refused : (∀ left : Placing first, first.check left.assignment = .ok false) ∨
      ∀ right : Placing second, second.check right.assignment = .ok false) :
    ∀ both : Placing (first.beside second),
      (first.beside second).check both.assignment = .ok false := by
  intro both
  obtain ⟨left, right, rfl⟩ := Placing.exists_beside both
  obtain ⟨accepted, checked⟩ := firstChecks left.assignment
  obtain ⟨also, alsoChecked⟩ := secondChecks right.assignment
  rw [check_beside firstBuilt secondBuilt independent checked alsoChecked]
  rcases refused with refused | refused
  · rw [refused left] at checked
    cases checked
    rfl
  · rw [refused right] at alsoChecked
    cases alsoChecked
    rw [Bool.and_false]

omit independent

/-! ## The outcome of both -/

/-- The model of both shows the record arrays of the first one and then those of the second. -/
theorem records_beside (left : Placing first) (right : Placing second)
    (tests firstTests secondTests : Int) :
    ((Search.mk (first.beside second) (left.beside right).assignment tests).outcome
        .solved).records =
      ((Search.mk first left.assignment firstTests).outcome .solved).records ++
        ((Search.mk second right.assignment secondTests).outcome .solved).records := by
  change (first.beside second).numberedRecords.map _ = _
  rw [numberedRecords_beside, List.map_append]
  exact congrArg₂ (· ++ ·)
    (@Search.records_moved ⟨first, left.assignment, firstTests⟩ ⟨first.beside second, _, tests⟩
      _ _ _ _ firstBuilt (embeds_first firstBuilt second) (left.repeats_first firstBuilt right))
    (@Search.records_moved ⟨second, right.assignment, secondTests⟩ ⟨first.beside second, _, tests⟩
      _ _ _ _ secondBuilt (embeds_second secondBuilt first)
      (left.repeats_second secondBuilt right))

/-- So it does with the scalar arrays. -/
theorem scalars_beside (left : Placing first) (right : Placing second)
    (tests firstTests secondTests : Int) :
    ((Search.mk (first.beside second) (left.beside right).assignment tests).outcome
        .solved).scalars =
      ((Search.mk first left.assignment firstTests).outcome .solved).scalars ++
        ((Search.mk second right.assignment secondTests).outcome .solved).scalars := by
  change (first.beside second).numberedScalars.map _ = _
  rw [numberedScalars_beside, List.map_append]
  exact congrArg₂ (· ++ ·)
    (@Search.scalars_moved ⟨first, left.assignment, firstTests⟩ ⟨first.beside second, _, tests⟩
      _ _ _ _ firstBuilt (embeds_first firstBuilt second) (left.repeats_first firstBuilt right))
    (@Search.scalars_moved ⟨second, right.assignment, secondTests⟩ ⟨first.beside second, _, tests⟩
      _ _ _ _ secondBuilt (embeds_second secondBuilt first)
      (left.repeats_second secondBuilt right))

theorem searchSpace_beside :
    (first.beside second).searchSpace = first.searchSpace * second.searchSpace := by
  change Odometer.span (first.beside second).cells =
    Odometer.span first.cells * Odometer.span second.cells
  rw [cells_beside, firstBuilt.cells_eq, secondBuilt.cells_eq]
  simp only [Odometer.span_append]
  exact Nat.mul_mul_mul_comm _ _ _ _

end Both

/-- Independent puzzles can be solved one by one.  The puzzle of both has as many assignments as
pairs of assignments, it is solved when both puzzles are, and its arrays then show what they show
in the outcomes of the two. -/
theorem solve_independent (firstDone : build firstPuzzle = .ok first)
    (secondDone : build secondPuzzle = .ok second)
    (independent : firstPuzzle.Independent secondPuzzle)
    (firstDecides : ∀ rule ∈ firstPuzzle.rules, first.Decides rule)
    (secondDecides : ∀ rule ∈ secondPuzzle.rules, second.Decides rule) :
    ∃ model firstOutcome secondOutcome outcome,
      build (firstPuzzle.append secondPuzzle) = .ok model ∧
      model.searchSpace = first.searchSpace * second.searchSpace ∧
      first.solve none = .ok firstOutcome ∧
      second.solve none = .ok secondOutcome ∧
      model.solve none = .ok outcome ∧
      (outcome.status = .solved ↔
        firstOutcome.status = .solved ∧ secondOutcome.status = .solved) ∧
      (outcome.status = .solved →
        outcome.records = firstOutcome.records ++ secondOutcome.records ∧
        outcome.scalars = firstOutcome.scalars ++ secondOutcome.scalars) := by
  have firstBuilt := build_ok_iff.mp firstDone
  have secondBuilt := build_ok_iff.mp secondDone
  have built := beside_built firstBuilt secondBuilt independent
  rw [← firstBuilt.rules] at firstDecides
  rw [← secondBuilt.rules] at secondDecides
  have firstChecks := check_ok_of_decides firstDecides
  have secondChecks := check_ok_of_decides secondDecides
  have space := searchSpace_beside firstBuilt secondBuilt
  have refusal (refused : (∀ left : Placing first, first.check left.assignment = .ok false) ∨
      ∀ right : Placing second, second.check right.assignment = .ok false) :=
    solve_of_refused built
      (refused_beside firstBuilt secondBuilt independent firstChecks secondChecks refused)
  rcases first_or_refused firstBuilt firstChecks with ⟨left, leftFirst⟩ | firstRefused
  · rcases first_or_refused secondBuilt secondChecks with ⟨right, rightFirst⟩ | secondRefused
    · have bothFirst := first_beside firstBuilt secondBuilt independent firstChecks secondChecks
        leftFirst rightFirst
      refine ⟨_, _, _, _, build_ok_iff.mpr built, space, solve_of_first firstBuilt leftFirst,
        solve_of_first secondBuilt rightFirst, solve_of_first built bothFirst, ?_, ?_⟩
      · exact ⟨fun _ => ⟨rfl, rfl⟩, fun _ => rfl⟩
      · exact fun _ => ⟨records_beside firstBuilt secondBuilt left right _ _ _,
          scalars_beside firstBuilt secondBuilt left right _ _ _⟩
    · refine ⟨_, _, _, _, build_ok_iff.mpr built, space, solve_of_first firstBuilt leftFirst,
        solve_of_refused secondBuilt secondRefused, refusal (.inr secondRefused), ?_, nofun⟩
      exact ⟨nofun, fun solved => absurd solved.2 nofun⟩
  · obtain ⟨secondOutcome, secondEnded⟩ : ∃ outcome, second.solve none = .ok outcome :=
      solve_ok secondChecks none rfl
    refine ⟨_, _, secondOutcome, _, build_ok_iff.mpr built, space,
      solve_of_refused firstBuilt firstRefused, secondEnded, refusal (.inl firstRefused), ?_, nofun⟩
    exact ⟨nofun, fun solved => absurd solved.1 nofun⟩

/-- A lamp and two houses of different colors.  A house with red walls asks for a green lamp. -/
def lampPuzzle : Puzzle where
  file := none
  domains := [⟨"Color", ["red", "green"]⟩]
  schemas := [⟨"House", [⟨"Color", "wall", true⟩]⟩]
  declarations := [⟨"Lamp", "Color", none, ⟨0, 0⟩⟩, ⟨"Houses", "House", some 2, ⟨0, 0⟩⟩]
  rules := [⟨⟨⟨"Houses", [.field "wall"], ⟨0, 0⟩⟩, false, ⟨"red", [], ⟨0, 0⟩⟩⟩,
    [⟨⟨"Lamp", [.index 0], ⟨0, 0⟩⟩, false, ⟨"green", [], ⟨0, 0⟩⟩⟩]⟩]

def lampModel : Model where
  file := none
  domains := lampPuzzle.domains
  schemas := lampPuzzle.schemas
  scalars := [⟨"Lamp", ⟨"Color", ⟨"Color", ["red", "green"]⟩⟩, 1⟩]
  records := [⟨"Houses", ⟨"House", [⟨"Color", "wall", true⟩]⟩,
    [("wall", ⟨"Color", ⟨"Color", ["red", "green"]⟩⟩)], 2⟩]
  rules := lampPuzzle.rules
  cells := List.replicate 3 ⟨"Color", ⟨"Color", ["red", "green"]⟩⟩
  peers := [[], [2], [1]]

def petPuzzle : Puzzle where
  file := none
  domains := [⟨"Pet", ["cat", "dog", "bird"]⟩]
  schemas := [⟨"Home", [⟨"Pet", "pet", false⟩]⟩]
  declarations := [⟨"Homes", "Home", none, ⟨0, 0⟩⟩, ⟨"Guest", "Pet", none, ⟨0, 0⟩⟩]
  rules := [
    ⟨⟨⟨"Guest", [.index 0], ⟨0, 0⟩⟩, false, ⟨"dog", [], ⟨0, 0⟩⟩⟩, []⟩,
    ⟨⟨⟨"Homes", [.index 0, .field "pet"], ⟨0, 0⟩⟩, true, ⟨"Guest", [.index 0], ⟨0, 0⟩⟩⟩, []⟩]

def petModel : Model where
  file := none
  domains := petPuzzle.domains
  schemas := petPuzzle.schemas
  scalars := [⟨"Guest", ⟨"Pet", ⟨"Pet", ["cat", "dog", "bird"]⟩⟩, 1⟩]
  records := [⟨"Homes", ⟨"Home", [⟨"Pet", "pet", false⟩]⟩,
    [("pet", ⟨"Pet", ⟨"Pet", ["cat", "dog", "bird"]⟩⟩)], 1⟩]
  rules := petPuzzle.rules
  cells := List.replicate 2 ⟨"Pet", ⟨"Pet", ["cat", "dog", "bird"]⟩⟩
  peers := [[], []]

theorem solve_lampPuzzle_petPuzzle :
    build lampPuzzle = .ok lampModel ∧
      build petPuzzle = .ok petModel ∧
      lampPuzzle.Independent petPuzzle ∧
      (∀ rule ∈ lampPuzzle.rules, lampModel.Decides rule) ∧
      (∀ rule ∈ petPuzzle.rules, petModel.Decides rule) ∧
      ∃ model outcome, build (lampPuzzle.append petPuzzle) = .ok model ∧
        model.searchSpace = 8 * 9 ∧
        model.solve none = .ok outcome ∧
        outcome.status = .solved ∧
        outcome.records =
          [("Houses", [[("wall", "green")], [("wall", "red")]]), ("Homes", [[("pet", "cat")]])] ∧
        outcome.scalars = [("Lamp", ["green"]), ("Guest", ["dog"])] := by
  have lampDone : build lampPuzzle = .ok lampModel := by rfl
  have petDone : build petPuzzle = .ok petModel := by rfl
  have independent : lampPuzzle.Independent petPuzzle :=
    ⟨by decide, by decide, by decide, by decide⟩
  have lampDecides : ∀ rule ∈ lampPuzzle.rules, lampModel.Decides rule := by
    refine List.forall_mem_singleton.mpr (decides_of_spellable (by decide) ?_)
    change ∀ index < 2, ∀ comparison ∈ _, lampModel.Resolves (some ⟨"Houses", (index : Nat)⟩) _
    decide
  have petDecides : ∀ rule ∈ petPuzzle.rules, petModel.Decides rule := by
    refine List.forall_mem_cons.mpr ⟨?_, List.forall_mem_singleton.mpr ?_⟩
    · exact decides_of_spellable (by decide) ⟨0, rfl⟩
    · exact decides_of_spellable (by decide) ⟨1, rfl⟩
  obtain ⟨model, lampOutcome, petOutcome, outcome, done, space, lampEnded, petEnded, ended, solved,
    shown⟩ := solve_independent lampDone petDone independent lampDecides petDecides
  have lampSolved : lampModel.solve none =
      .ok ((Search.mk lampModel [1, 1, 0] 4).outcome .solved) := by rfl
  have petSolved : petModel.solve none =
      .ok ((Search.mk petModel [1, 0] 2).outcome .solved) := by rfl
  rw [lampSolved] at lampEnded
  rw [petSolved] at petEnded
  cases lampEnded
  cases petEnded
  have both := solved.mpr ⟨rfl, rfl⟩
  exact ⟨lampDone, petDone, independent, lampDecides, petDecides, model, outcome, done, space,
    ended, both, shown both⟩

end Model

end LogicPuzzle
