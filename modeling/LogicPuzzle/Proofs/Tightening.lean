import LogicPuzzle.Proofs.Flagging
import LogicPuzzle.Proofs.SearchEnd

/-!
# Puzzles with more constraints

A rule at the end of a puzzle, or a further unique entry, makes the check refuse
more assignments and accept no others.  So a search of the puzzle with more
constraints, as long as tests can be made, passes over all that a search of the
puzzle passes over, and finds its solution no earlier.
-/

namespace LogicPuzzle

open Search

def Puzzle.withRule (puzzle : Puzzle) (rule : Rule) : Puzzle :=
  { puzzle with rules := puzzle.rules ++ [rule] }

namespace Model

def withRule (model : Model) (rule : Rule) : Model :=
  { model with rules := model.rules ++ [rule] }

/-- A search from the start comes to its end, in a certain way and after so many tests. -/
def Finishes (model : Model) (limit : Option Int) (status : Status) (tests : Int) : Prop :=
  ∃ outcome, model.solve limit = .ok outcome ∧ outcome.status = status ∧
    outcome.iterations = tests

/-- A model of the same cells, whose check accepts no more and refuses no fewer assignments. -/
structure Tightened (model tight : Model) : Prop where
  cells : tight.cells = model.cells
  accepts : ∀ assignment, tight.check assignment = .ok true → model.check assignment = .ok true
  refuses : ∀ assignment, model.check assignment = .ok false → tight.check assignment = .ok false

variable {model tight : Model} {puzzle tightPuzzle : Puzzle} {limit : Option Int} {tests : Int}

/-! ## Ends of unlimited searches -/

section Unlimited

variable (built : model.BuiltFrom puzzle) (unlimited : allowance limit = ⊤)
include built unlimited

/-- Without a limit a search is solved, or fails, at the first assignment that is not refused, or
ends after all assignments. -/
theorem solve_unlimited :
    (∃ rank, model.FirstUnrefused rank ∧ model.verdict rank = .ok true ∧
      model.solve limit = .ok ((endedAt model rank).outcome .solved)) ∨
    (∃ rank unresolved, model.FirstUnrefused rank ∧ model.verdict rank = .error unresolved ∧
      model.solve limit = .error unresolved) ∨
    (∀ rank < model.searchSpace, model.verdict rank = .ok false) ∧
      model.solve limit = .ok (unsolved puzzle model .noSolution model.searchSpace) := by
  by_cases stops : ∃ rank, model.FirstUnrefused rank
  · rcases stops with ⟨rank, first⟩
    have allowed : (rank : ℕ∞) < allowance limit := unlimited ▸ ENat.natCast_lt_top rank
    have ended := solve_of_seek (seek_of_firstUnrefused first allowed)
    cases said : model.verdict rank with
    | error unresolved =>
        rw [said] at ended
        exact .inr (.inl ⟨rank, unresolved, first, said, ended⟩)
    | ok accepted =>
        cases accepted with
        | true =>
            rw [said] at ended
            exact .inl ⟨rank, first, said, ended⟩
        | false => exact absurd said first.unrefused
  · have refused := refused_of_no_firstUnrefused (Nat.le_refl model.searchSpace)
      fun ⟨rank, first, _⟩ => stops ⟨rank, first⟩
    have allowed : (model.searchSpace : ℕ∞) ≤ allowance limit := unlimited ▸ le_top
    exact .inr (.inr ⟨refused, solve_of_all_refused built allowed refused⟩)

theorem exists_rank_of_solved (finishes : model.Finishes limit .solved tests) :
    ∃ rank : Nat, model.FirstUnrefused rank ∧ model.verdict rank = .ok true ∧
      tests = rank + 1 := by
  obtain ⟨outcome, ended, solved, rfl⟩ := finishes
  obtain ⟨rank, first, accepted, same⟩ | ⟨_, _, _, _, same⟩ | ⟨_, same⟩ :=
    solve_unlimited built unlimited
  · rw [same] at ended
    cases ended
    exact ⟨rank, first, accepted, rfl⟩
  · rw [same] at ended
    cases ended
  · rw [same] at ended
    cases ended
    cases solved

theorem refused_of_noSolution (finishes : model.Finishes limit .noSolution tests) :
    (∀ rank < model.searchSpace, model.verdict rank = .ok false) ∧
      tests = model.searchSpace := by
  obtain ⟨outcome, ended, unsolved, rfl⟩ := finishes
  obtain ⟨_, _, _, same⟩ | ⟨_, _, _, _, same⟩ | ⟨refused, same⟩ :=
    solve_unlimited built unlimited
  · rw [same] at ended
    cases ended
    cases unsolved
  · rw [same] at ended
    cases ended
  · rw [same] at ended
    cases ended
    exact ⟨refused, rfl⟩

end Unlimited

/-! ## Searches of a tightened model -/

namespace Tightened

variable (tightened : model.Tightened tight)
include tightened

theorem verdict_false {rank : Nat} (refused : model.verdict rank = .ok false) :
    tight.verdict rank = .ok false := by
  rw [verdict, assignmentAt, tightened.cells]
  exact tightened.refuses _ refused

theorem verdict_true {rank : Nat} (accepted : tight.verdict rank = .ok true) :
    model.verdict rank = .ok true := by
  rw [verdict, assignmentAt, tightened.cells] at accepted
  exact tightened.accepts _ accepted

theorem searchSpace_eq : tight.searchSpace = model.searchSpace := by
  rw [searchSpace, tightened.cells, searchSpace]

/-- What is not refused first in the model comes no later than what the tightened one accepts. -/
theorem first_le {rank other : Nat} (first : model.FirstUnrefused rank)
    (accepted : tight.verdict other = .ok true) : rank ≤ other := by
  by_contra later
  have refused := first.earlier other (Nat.lt_of_not_le later)
  rw [tightened.verdict_true accepted] at refused
  cases refused

section Built

variable (built : model.BuiltFrom puzzle) (tightBuilt : tight.BuiltFrom tightPuzzle)
  (unlimited : allowance limit = ⊤)
include built tightBuilt unlimited

/-- A model without a solution has none when it is tightened. -/
theorem finishes_noSolution (finishes : model.Finishes limit .noSolution tests) :
    tight.Finishes limit .noSolution tests := by
  obtain ⟨refused, rfl⟩ := refused_of_noSolution built unlimited finishes
  have allowed : (tight.searchSpace : ℕ∞) ≤ allowance limit := unlimited ▸ le_top
  have all : ∀ rank < tight.searchSpace, tight.verdict rank = .ok false := fun rank below =>
    tightened.verdict_false (refused rank (tightened.searchSpace_eq ▸ below))
  refine ⟨_, solve_of_all_refused tightBuilt allowed all, rfl, ?_⟩
  exact congrArg Nat.cast tightened.searchSpace_eq

/-- If the tightened model is solved, the model is after no more tests, unless one of its own tests
cannot be made. -/
theorem finishes_solved (finishes : tight.Finishes limit .solved tests)
    (returns : ∃ outcome, model.solve limit = .ok outcome) :
    ∃ fewer ≤ tests, model.Finishes limit .solved fewer := by
  obtain ⟨other, otherFirst, accepted, rfl⟩ := exists_rank_of_solved tightBuilt unlimited finishes
  obtain ⟨outcome, returned⟩ := returns
  obtain ⟨rank, first, _, same⟩ | ⟨_, _, _, _, same⟩ | ⟨refused, _⟩ :=
    solve_unlimited built unlimited
  · have early := tightened.first_le first accepted
    exact ⟨rank + 1, by omega, _, same, rfl, rfl⟩
  · rw [same] at returned
    cases returned
  · have refuses := refused other (tightened.searchSpace_eq ▸ otherFirst.bound)
    rw [tightened.verdict_true accepted] at refuses
    cases refuses

/-- If a check that cannot be made cannot be made in the tightened model either, a search of the
model meets no such check before the tightened model is solved. -/
theorem returns_of_raises
    (raises : ∀ assignment unresolved, model.check assignment = .error unresolved →
      tight.check assignment = .error unresolved)
    (finishes : tight.Finishes limit .solved tests) :
    ∃ outcome, model.solve limit = .ok outcome := by
  obtain ⟨other, otherFirst, accepted, rfl⟩ := exists_rank_of_solved tightBuilt unlimited finishes
  obtain ⟨_, _, _, same⟩ | ⟨rank, unresolved, first, failed, _⟩ | ⟨_, same⟩ :=
    solve_unlimited built unlimited
  · exact ⟨_, same⟩
  · have fails : tight.verdict rank = .error unresolved := by
      rw [verdict, assignmentAt, tightened.cells]
      exact raises _ _ failed
    -- The tightened model refuses what comes before its solution, and accepts the solution.
    rcases Nat.lt_or_eq_of_le (tightened.first_le first accepted) with before | rfl
    · rw [otherFirst.earlier rank before] at fails
      cases fails
    · rw [accepted] at fails
      cases fails
  · exact ⟨_, same⟩

end Built

end Tightened

/-! ## One more rule -/

theorem allM_singleton {ε α : Type} (test : α → Except ε Bool) (element : α) :
    [element].allM test = test element := by
  rw [List.allM_cons]
  cases test element with
  | error unresolved => rfl
  | ok passed =>
      cases passed with
      | true => rfl
      | false => rfl

theorem BuiltFrom.withRule (built : model.BuiltFrom puzzle) (rule : Rule) :
    (model.withRule rule).BuiltFrom (puzzle.withRule rule) where
  file := built.file
  domains := built.domains
  schemas := built.schemas
  rules := congrArg (· ++ [rule]) built.rules
  scalars := built.scalars
  records := built.records
  cells := built.cells
  peers := built.peers
  labelled := built.labelled
  types_distinct := built.types_distinct
  arrays_distinct := built.arrays_distinct
  declared := built.declared
  fields_typed := built.fields_typed

/-- The rule is tested when the check accepts the assignment without it. -/
theorem check_withRule (model : Model) (rule : Rule) (assignment : Assignment) :
    (model.withRule rule).check assignment =
      (do if ← model.check assignment then model.checkRule assignment rule else return false) := by
  have rules : (model.withRule rule).checkRules assignment = (do
      if ← model.checkRules assignment then [rule].allM (model.checkRule assignment)
      else return false) :=
    allM_append (model.checkRule assignment) model.rules [rule]
  have unique : (model.withRule rule).checkUniqueness assignment =
      model.checkUniqueness assignment := rfl
  rw [check, check, rules, unique, allM_singleton]
  split
  · rfl
  · rfl

theorem tightened_withRule (model : Model) (rule : Rule) :
    model.Tightened (model.withRule rule) where
  cells := rfl
  accepts assignment accepted := by
    rw [check_withRule] at accepted
    cases said : model.check assignment with
    | error unresolved =>
        rw [said] at accepted
        cases accepted
    | ok passed =>
        cases passed with
        | true => rfl
        | false =>
            rw [said] at accepted
            cases accepted
  refuses assignment refused := by
    rw [check_withRule, refused]
    rfl

theorem tightened_flagged (built : model.BuiltFrom puzzle) (more : String → Nat → Bool) :
    model.Tightened (model.flagged more) where
  cells := built.cells_flagged
  accepts assignment accepted := by
    have unique := checkUniqueness_of_flagged built (checkUniqueness_of_check accepted)
    rw [check, if_pos (checkUniqueness_of_check accepted), checkRules_flagged built] at accepted
    rw [check, if_pos unique, accepted]
  refuses assignment refused := by
    rw [check]
    split
    · next unique =>
        rw [check, if_pos (checkUniqueness_of_flagged built unique)] at refused
        rw [checkRules_flagged built, refused]
    · rfl

/-- A puzzle with one more rule, or with further unique entries, is built when the puzzle is.  If
its search is solved, that of the puzzle is solved after no more tests, and if the search of the
puzzle ends without a solution, so does its own.  For further unique entries this presupposes that
the search of the puzzle makes all of its tests; for a rule behind the others it does not. -/
theorem constraints_monotone (done : build puzzle = .ok model) (unlimited : allowance limit = ⊤) :
    (∀ rule, ∃ ruled, build (puzzle.withRule rule) = .ok ruled ∧
      (∀ tests, ruled.Finishes limit .solved tests →
        ∃ fewer ≤ tests, model.Finishes limit .solved fewer) ∧
      ∀ tests, model.Finishes limit .noSolution tests →
        ruled.Finishes limit .noSolution tests) ∧
    ∀ more, ∃ flagged, build (puzzle.flagged more) = .ok flagged ∧
      (∀ tests, flagged.Finishes limit .solved tests →
        (∃ outcome, model.solve limit = .ok outcome) →
          ∃ fewer ≤ tests, model.Finishes limit .solved fewer) ∧
      ∀ tests, model.Finishes limit .noSolution tests →
        flagged.Finishes limit .noSolution tests := by
  have built := builtFrom_of_build done
  constructor
  · intro rule
    have ruledBuilt := built.withRule rule
    have tightened := tightened_withRule model rule
    refine ⟨_, build_of_builtFrom ruledBuilt, fun tests finishes => ?_, fun tests => ?_⟩
    · have raises : ∀ assignment unresolved, model.check assignment = .error unresolved →
          (model.withRule rule).check assignment = .error unresolved := by
        intro assignment unresolved failed
        rw [check_withRule, failed]
        rfl
      exact tightened.finishes_solved built ruledBuilt unlimited finishes
        (tightened.returns_of_raises built ruledBuilt unlimited raises finishes)
    · exact tightened.finishes_noSolution built ruledBuilt unlimited
  · intro more
    have flaggedBuilt := built.flagged more
    have tightened := tightened_flagged built more
    exact ⟨_, build_of_builtFrom flaggedBuilt,
      fun tests => tightened.finishes_solved built flaggedBuilt unlimited,
      fun tests => tightened.finishes_noSolution built flaggedBuilt unlimited⟩

def vasePuzzle : Puzzle where
  file := none
  domains := [⟨"Color", ["red", "blue"]⟩]
  schemas := [⟨"Vase", [⟨"Color", "tint", false⟩]⟩]
  declarations := [⟨"V", "Vase", some 2, ⟨3, 1⟩⟩]
  rules := [⟨⟨⟨"V", [.index 0, .field "tint"], ⟨4, 1⟩⟩, true, ⟨"red", [], ⟨4, 14⟩⟩⟩, []⟩]

def alikeRule : Rule :=
  ⟨⟨⟨"V", [.index 0, .field "tint"], ⟨5, 1⟩⟩, false, ⟨"V", [.index 1, .field "tint"], ⟨5, 13⟩⟩⟩, []⟩

def vaseArray : RecordArray where
  name := "V"
  schema := ⟨"Vase", [⟨"Color", "tint", false⟩]⟩
  fields := [("tint", ⟨"Color", ⟨"Color", ["red", "blue"]⟩⟩)]
  size := 2

def vaseModel : Model where
  file := none
  domains := vasePuzzle.domains
  schemas := vasePuzzle.schemas
  scalars := []
  records := [vaseArray]
  rules := vasePuzzle.rules
  cells := vaseArray.cells
  peers := [[], []]

def strangeRule : Rule :=
  ⟨⟨⟨"Nothing", [.field "tint"], ⟨6, 1⟩⟩, false, ⟨"V", [.index 0, .field "tint"], ⟨6, 16⟩⟩⟩, []⟩

/-- Vases that are alike are found after four tests and different ones after two, so there are vases
after no more tests than these.  None are both, and a rule that cannot be tested changes nothing. -/
theorem finishes_vasePuzzle :
    build vasePuzzle = .ok vaseModel ∧
      (vaseModel.withRule alikeRule).Finishes none .solved 4 ∧
      (∃ fewer ≤ 4, vaseModel.Finishes none .solved fewer) ∧
      (vaseModel.flagged fun _ _ => true).Finishes none .solved 2 ∧
      (∃ fewer ≤ 2, vaseModel.Finishes none .solved fewer) ∧
      ((vaseModel.withRule alikeRule).flagged fun _ _ => true).Finishes none .noSolution 4 ∧
      ∃ ruled, build (((vasePuzzle.withRule alikeRule).flagged fun _ _ => true).withRule
          strangeRule) = .ok ruled ∧ ruled.Finishes none .noSolution 4 := by
  have done : build vasePuzzle = .ok vaseModel := by rfl
  have bothDone : build ((vasePuzzle.withRule alikeRule).flagged fun _ _ => true) =
      .ok ((vaseModel.withRule alikeRule).flagged fun _ _ => true) := by rfl
  have alike : (vaseModel.withRule alikeRule).Finishes none .solved 4 := ⟨_, rfl, rfl, rfl⟩
  have different : (vaseModel.flagged fun _ _ => true).Finishes none .solved 2 :=
    ⟨_, rfl, rfl, rfl⟩
  have both : ((vaseModel.withRule alikeRule).flagged fun _ _ => true).Finishes none
      .noSolution 4 := ⟨_, rfl, rfl, rfl⟩
  have unlimited : allowance none = ⊤ := rfl
  obtain ⟨byRules, byFlags⟩ := constraints_monotone done unlimited
  obtain ⟨ruled, ruledDone, ruledSolved, _⟩ := byRules alikeRule
  obtain rfl : vaseModel.withRule alikeRule = ruled := Except.ok.inj ruledDone
  obtain ⟨flagged, flaggedDone, flaggedSolved, _⟩ := byFlags fun _ _ => true
  obtain rfl : (vaseModel.flagged fun _ _ => true) = flagged := Except.ok.inj flaggedDone
  obtain ⟨strange, strangeDone, _, strangeUnsolved⟩ :=
    (constraints_monotone bothDone unlimited).1 strangeRule
  exact ⟨done, alike, ruledSolved 4 alike, different, flaggedSolved 2 different ⟨_, rfl⟩, both,
    strange, strangeDone, strangeUnsolved 4 both⟩

end Model

end LogicPuzzle
