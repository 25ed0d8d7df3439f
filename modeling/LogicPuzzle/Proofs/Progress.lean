import LogicPuzzle.Proofs.Satisfaction
import LogicPuzzle.Proofs.Stepping
import LogicPuzzle.Proofs.TextPuzzles

/-!
# Checks that cannot fail

Whether a reference resolves does not depend on the assignment.  So when the
left sides of all rules resolve, no check fails, whichever rules and uniqueness
tests an assignment lets it get to, and no search does.  The right sides of a
puzzle that was read from a text cannot make a check fail: what does not
resolve is a label.
-/

namespace LogicPuzzle

namespace Model

variable {model : Model} {puzzle : Puzzle} {binding : Option Binding} {reference : Reference}
  {assignment : Assignment} {comparison : Comparison} {rule : Rule} {search : Search}

/-! ## Whole searches -/

/-- A search whose checks give results ends with a status. -/
theorem seek_ok (checks : ∀ assignment, ∃ result, model.check assignment = .ok result)
    (limit : Option Int) (bound : Nat) (same : search.model = model) :
    ∃ status, (Search.seek limit bound search).1 = .ok status := by
  induction bound generalizing search with
  | zero => exact ⟨_, rfl⟩
  | succ bound ih =>
      obtain ended | ⟨unresolved, failed, _⟩ | ⟨_, ended⟩ |
        ⟨_, ⟨next, advanced, goesOn⟩ | ⟨_, _, ended⟩⟩ := Search.seek_cases limit bound search
      · exact ⟨_, congrArg Prod.fst ended⟩
      · obtain ⟨result, checked⟩ := checks search.assignment
        rw [Search.check, same, checked] at failed
        cases failed
      · exact ⟨_, congrArg Prod.fst ended⟩
      · rw [goesOn]
        exact ih ((Search.model_of_advance advanced).trans same)
      · exact ⟨_, congrArg Prod.fst ended⟩

theorem solve_ok (checks : ∀ assignment, ∃ result, model.check assignment = .ok result)
    (limit : Option Int) (same : search.model = model) :
    ∃ outcome, (search.solve limit).1 = .ok outcome := by
  have resetModel : search.reset.model = model := same
  obtain ⟨status, ended⟩ := seek_ok checks (Search.effectiveLimit limit)
    search.model.searchSpace resetModel
  rw [Search.solve]
  simp only [ended]
  exact ⟨_, rfl⟩

/-- Whether a comparison fails, and how, depends on its references alone. -/
theorem evaluate_error_iff {first second : Assignment} {unresolved : Unresolved} :
    model.evaluate first binding comparison = .error unresolved ↔
      model.evaluate second binding comparison = .error unresolved := by
  rw [evaluate, evaluate]
  cases model.resolve binding comparison.left with
  | error fault => rfl
  | ok left =>
      change (model.rightPlace first binding left comparison.right >>= _) = _ ↔
        (model.rightPlace second binding left comparison.right >>= _) = _
      rw [rightPlace, rightPlace]
      cases model.resolve binding comparison.right with
      | ok right =>
          constructor
          · intro impossible
            cases impossible
          · intro impossible
            cases impossible
      | error fault =>
          cases fault with
          | fault diagnostic =>
              constructor
              · intro impossible
                cases impossible
              · intro impossible
                cases impossible
          | outOfRange => rfl
          | numeral => rfl

/-! ## Puzzles read from texts -/

/-- If the left sides of a puzzle that was read from a text resolve, no check fails and no search
does, whatever its right sides are.  What a reference stands for and how a comparison fails is
the same wherever a search stands. -/
theorem never_fails_of_left_resolving {file : Path} {text : String} {notices : List Notice}
    (read : readPuzzle file text = .ok (puzzle, notices)) (done : build puzzle = .ok model) :
    ((∀ rule ∈ puzzle.rules, model.LeftResolves rule) →
      (∀ assignment : Assignment, assignment.InRange model.cells →
        ∃ accepted, model.check assignment = .ok accepted) ∧
      ∀ search : Search, search.Reached model →
        (∃ accepted, search.check = .ok accepted) ∧
        ∀ limit, ∃ outcome, (search.solve limit).1 = .ok outcome) ∧
    (∀ assignment : Assignment, assignment.InRange model.cells →
      ∃ search : Search, search.Reached model ∧ search.assignment = assignment) ∧
    (∀ first second : Search, first.Reached model → second.Reached model →
      ∀ binding reference,
        first.model.resolve binding reference = second.model.resolve binding reference) ∧
    ∀ first second binding comparison unresolved,
      model.evaluate first binding comparison = .error unresolved ↔
        model.evaluate second binding comparison = .error unresolved := by
  have built := builtFrom_of_build done
  have sameModel {search : Search} (reached : search.Reached model) : search.model = model := by
    rcases reached with ⟨calls, rfl⟩
    exact ((Search.within_ofModel built).afterAll built calls).model_eq
  refine ⟨fun resolving => ?_, fun assignment => Search.exists_reached built, ?_, ?_⟩
  · rw [← built.rules] at resolving
    have spellable : ∀ rule ∈ model.rules, rule.Spellable := by
      rw [built.rules]
      exact (textual_of_readPuzzle read).references_spellable
    have checks := check_ok_of_decides fun rule member =>
      decides_of_spellable (spellable rule member) (resolving rule member)
    refine ⟨fun assignment _ => checks assignment, fun search reached => ⟨?_, ?_⟩⟩
    · rw [Search.check, sameModel reached]
      exact checks search.assignment
    · intro limit
      exact solve_ok checks limit (sameModel reached)
  · intro first second firstReached secondReached binding reference
    rw [sameModel firstReached, sameModel secondReached]
  · intro first second binding comparison unresolved
    exact evaluate_error_iff

/-- Two records whose colors differ.  The right side of the first rule names no cell. -/
def danglingText : String :=
  "Color = \x7bred, blue\x7d\nPair = [unique Color a]\nvar X : Pair[2]\n" ++
    "X[0].a != X[9].a\nX.a = red =>\n    X[1].a = blue\n"

def danglingPuzzle : Puzzle where
  file := some (Path.ofString "pair.puzzle")
  domains := [⟨"Color", ["red", "blue"]⟩]
  schemas := [⟨"Pair", [⟨"Color", "a", true⟩]⟩]
  declarations := [⟨"X", "Pair", some 2, ⟨3, 1⟩⟩]
  rules := [
    ⟨⟨⟨"X", [.index 0, .field "a"], ⟨4, 1⟩⟩, true, ⟨"X", [.index 9, .field "a"], ⟨4, 11⟩⟩⟩, []⟩,
    ⟨⟨⟨"X", [.field "a"], ⟨5, 1⟩⟩, false, ⟨"red", [], ⟨5, 7⟩⟩⟩,
      [⟨⟨"X", [.index 1, .field "a"], ⟨6, 5⟩⟩, false, ⟨"blue", [], ⟨6, 14⟩⟩⟩]⟩]

def danglingArray : RecordArray where
  name := "X"
  schema := ⟨"Pair", [⟨"Color", "a", true⟩]⟩
  fields := [("a", ⟨"Color", ⟨"Color", ["red", "blue"]⟩⟩)]
  size := 2

def danglingModel : Model where
  file := danglingPuzzle.file
  domains := danglingPuzzle.domains
  schemas := danglingPuzzle.schemas
  scalars := []
  records := [danglingArray]
  rules := danglingPuzzle.rules
  cells := danglingArray.cells
  peers := danglingArray.peers

theorem solve_danglingText :
    readPuzzle (Path.ofString "pair.puzzle") danglingText = .ok (danglingPuzzle, []) ∧
      build danglingPuzzle = .ok danglingModel ∧
      (∀ rule ∈ danglingPuzzle.rules, danglingModel.LeftResolves rule) ∧
      ¬ danglingModel.Resolves none ⟨"X", [.index 9, .field "a"], ⟨4, 11⟩⟩ ∧
      ∀ limit, ∃ outcome, danglingModel.solve limit = .ok outcome := by
  have read : readPuzzle (Path.ofString "pair.puzzle") danglingText =
      .ok (danglingPuzzle, []) := by
    decide +kernel
  have done : build danglingPuzzle = .ok danglingModel := by rfl
  have resolving : ∀ rule ∈ danglingPuzzle.rules, danglingModel.LeftResolves rule := by
    refine List.forall_mem_cons.mpr ⟨?_, List.forall_mem_singleton.mpr ?_⟩
    · exact ⟨0, rfl⟩
    · change ∀ index < 2, ∀ comparison ∈ _, Resolves _ (some ⟨"X", (index : Nat)⟩) _
      decide
  have solves := ((never_fails_of_left_resolving read done).1 resolving).2 _ ⟨[], rfl⟩
  exact ⟨read, done, resolving, by decide, solves.2⟩

end Model

end LogicPuzzle
