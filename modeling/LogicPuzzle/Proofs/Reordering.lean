import LogicPuzzle.Proofs.Beside
import LogicPuzzle.Proofs.Progress
import LogicPuzzle.Proofs.TwinSearches

/-!
# Puzzles in another order

The types of a puzzle are looked up by their names, so their order does not
matter to its model.  The order of the rules, and of the consequents of a rule,
decides only which test is the first to be false.  So when every test can be
made the check says the same in any order, and a search has the same outcome.
-/

namespace LogicPuzzle

structure Rule.Reordered (rule other : Rule) : Prop where
  guard : other.guard = rule.guard
  consequents : rule.consequents.Perm other.consequents

/-- A puzzle and the same puzzle with its domains, its schemas, its rules and the consequents of
its rules in another order. -/
structure Puzzle.Reordered (puzzle other : Puzzle) : Prop where
  file : other.file = puzzle.file
  domains : puzzle.domains.Perm other.domains
  schemas : puzzle.schemas.Perm other.schemas
  declarations : other.declarations = puzzle.declarations
  rules : ∃ between, puzzle.rules.Perm between ∧
    List.Forall₂ Rule.Reordered between other.rules

theorem Rule.Reordered.symm {rule other : Rule} (reordered : rule.Reordered other) :
    other.Reordered rule :=
  ⟨reordered.guard.symm, reordered.consequents.symm⟩

theorem Puzzle.Reordered.symm {puzzle other : Puzzle} (reordered : puzzle.Reordered other) :
    other.Reordered puzzle where
  file := reordered.file.symm
  domains := reordered.domains.symm
  schemas := reordered.schemas.symm
  declarations := reordered.declarations.symm
  rules := by
    obtain ⟨between, moved, rules⟩ := reordered.rules
    obtain ⟨others, turned, perm⟩ := List.perm_comp_forall₂ moved rules
    exact ⟨others, perm.symm, turned.flip.imp fun _ _ => Rule.Reordered.symm⟩

namespace Model

variable {model twin : Model} {puzzle other : Puzzle} {rule : Rule}

/-! ## Types in another order -/

/-- What has a name of its own is found under it in any order. -/
theorem find?_perm {α : Type} {elements others : List α} (key : α → String)
    (distinct : (elements.map key).Nodup) (perm : elements.Perm others) (name : String) :
    (others.find? fun element => key element == name) =
      elements.find? fun element => key element == name := by
  ext element
  rw [find?_eq_some_iff_mem key distinct,
    find?_eq_some_iff_mem key ((perm.map key).nodup_iff.mp distinct), perm.mem_iff]

def reordered (model : Model) (other : Puzzle) : Model :=
  { model with domains := other.domains, schemas := other.schemas, rules := other.rules }

theorem BuiltFrom.extends_reordered (built : model.BuiltFrom puzzle)
    (reordered : puzzle.Reordered other) : other.Extends puzzle := by
  have distinct := built.types_distinct
  rw [typeNames, built.domains, built.schemas, List.nodup_append] at distinct
  constructor
  · intro name _
    exact find?_perm Schema.name distinct.2.1 reordered.schemas name
  · intro name _
    exact find?_perm Domain.name distinct.1 reordered.domains name

/-- A puzzle in another order has the same arrays, cells and peers. -/
theorem BuiltFrom.reordered (built : model.BuiltFrom puzzle)
    (reordered : puzzle.Reordered other) : (model.reordered other).BuiltFrom other := by
  have known := built.extends_reordered reordered
  have declared := reordered.declarations
  exact {
    file := built.file.trans reordered.file.symm
    domains := rfl
    schemas := rfl
    rules := rfl
    scalars := by
      rw [declared]
      exact (built.scalars_extended known).symm
    records := by
      rw [declared]
      exact (built.records_extended known).symm
    cells := built.cells
    peers := built.peers
    labelled := fun domain member => built.labelled domain (reordered.domains.mem_iff.mpr member)
    types_distinct := by
      have perm := (reordered.domains.map (·.name)).append (reordered.schemas.map (·.name))
      have distinct := built.types_distinct
      rw [typeNames, built.domains, built.schemas] at distinct
      exact perm.nodup_iff.mp distinct
    arrays_distinct := built.arrays_distinct
    declared := by
      rw [declared]
      exact built.declared_extended known
    fields_typed := by
      rw [declared]
      exact built.fields_typed_extended known }

/-! ## Tests in another order -/

/-- Tests that can all be made say the same together in any order. -/
theorem allM_perm {ε α : Type} {test : α → Except ε Bool} {elements others : List α}
    (perm : elements.Perm others)
    (tests : ∀ element ∈ elements, ∃ result, test element = .ok result) :
    others.allM test = elements.allM test := by
  obtain ⟨said, result⟩ := allM_ok tests
  obtain ⟨also, otherResult⟩ := allM_ok fun element member =>
    tests element (perm.mem_iff.mpr member)
  have same : elements.allM test = .ok true ↔ others.allM test = .ok true := by
    simp only [allM_eq_true_iff, perm.mem_iff]
  rw [result, otherResult, Except.ok.injEq, Except.ok.injEq] at same
  rw [result, otherResult, Bool.eq_iff_iff.mpr same]

theorem holdsAt_reordered {also : Rule} (reordered : rule.Reordered also)
    (decides : model.Decides rule) {array : RecordArray} {index : Nat}
    (quantified : model.quantifiedArray? rule = some array) (inside : index < array.size)
    (assignment : Assignment) :
    model.holdsAt assignment also ⟨rule.guard.left.name, index⟩ =
      model.holdsAt assignment rule ⟨rule.guard.left.name, index⟩ := by
  have tests (comparison : Comparison) (member : comparison ∈ rule.consequents) :=
    decides.evaluate_ok (.element quantified inside (List.mem_cons_of_mem _ member)) assignment
  rw [holdsAt, holdsAt, reordered.guard, allM_perm reordered.consequents tests]

/-- A rule that can be tested says the same with its consequents in another order. -/
theorem checkRule_reordered {also : Rule} (reordered : rule.Reordered also)
    (decides : model.Decides rule) (assignment : Assignment) :
    model.checkRule assignment also = model.checkRule assignment rule := by
  have quantified : also.quantified = rule.quantified := by
    rw [Rule.quantified, Rule.quantified, reordered.consequents.isEmpty_eq]
  have array : model.quantifiedArray? also = model.quantifiedArray? rule := by
    rw [quantifiedArray?, quantifiedArray?, quantified, reordered.guard]
  rw [checkRule, checkRule, array, reordered.guard]
  cases found : model.quantifiedArray? rule with
  | none => rfl
  | some array =>
      refine allM_forall₂ (List.forall₂_same.mpr fun index inside => ?_)
      exact holdsAt_reordered reordered decides found (List.mem_range.mp inside) assignment

/-- The check of a model says the same with the rules of another order. -/
theorem check_reordered (reordered : puzzle.Reordered other) (rules : model.rules = puzzle.rules)
    (decides : ∀ rule ∈ puzzle.rules, model.Decides rule) (assignment : Assignment) :
    (model.reordered other).check assignment = model.check assignment := by
  have tested : (model.reordered other).checkRules assignment = model.checkRules assignment := by
    obtain ⟨between, moved, turned⟩ := reordered.rules
    have decided : ∀ rule ∈ between, model.Decides rule :=
      fun rule member => decides rule (moved.mem_iff.mpr member)
    have perm : between.allM (model.checkRule assignment) =
        puzzle.rules.allM (model.checkRule assignment) :=
      allM_perm moved fun rule member => (decides rule member).checkRule_ok assignment
    rw [checkRules, checkRules, rules, ← perm]
    refine allM_forall₂ (((List.forall₂_and_left _ _).mpr ⟨decided, turned⟩).imp ?_)
    rintro rule also ⟨ruleDecides, reordered⟩
    exact checkRule_reordered reordered ruleDecides assignment
  rw [check, check, tested]
  rfl

theorem twin_reordered (reordered : puzzle.Reordered other) (rules : model.rules = puzzle.rules)
    (decides : ∀ rule ∈ puzzle.rules, model.Decides rule) :
    model.Twin id (model.reordered other) where
  sizes := rfl
  checks assignment := by
    rw [mapError_id]
    exact check_reordered reordered rules decides assignment

/-- When every test can be made, the order makes no difference to the outcome of a search. -/
theorem solve_reordered (reordered : puzzle.Reordered other) (rules : model.rules = puzzle.rules)
    (decides : ∀ rule ∈ puzzle.rules, model.Decides rule) (limit : Option Int) :
    (model.reordered other).solve limit = model.solve limit := by
  have twin := twin_reordered reordered rules decides
  have shows (search : Search) (status : Status) (same : search.model = model) :
      (search.inModel (model.reordered other)).outcome status = id (search.outcome status) := by
    subst same
    rfl
  rw [twin.solve_eq shows limit, mapError_id]
  cases model.solve limit <;> rfl

/-- A puzzle in another order is built when the puzzle is, with the same arrays, cells and peers.
If every rule can be tested, every search has the same outcome. -/
theorem alike_in_any_order (reordered : puzzle.Reordered other) :
    ((∃ model, build puzzle = .ok model) ↔ ∃ twin, build other = .ok twin) ∧
    ∀ model twin, build puzzle = .ok model → build other = .ok twin →
      (twin.scalars = model.scalars ∧ twin.records = model.records ∧ twin.cells = model.cells ∧
        twin.peers = model.peers ∧ twin.searchSpace = model.searchSpace) ∧
      ((∀ rule ∈ puzzle.rules, model.Decides rule) →
        ∀ limit, ∃ outcome, model.solve limit = .ok outcome ∧ twin.solve limit = .ok outcome) := by
  constructor
  · constructor
    · rintro ⟨model, done⟩
      exact ⟨_, build_of_builtFrom ((builtFrom_of_build done).reordered reordered)⟩
    · rintro ⟨twin, done⟩
      exact ⟨_, build_of_builtFrom ((builtFrom_of_build done).reordered reordered.symm)⟩
  · intro model twin done twinDone
    have built := builtFrom_of_build done
    have twinAgain := build_of_builtFrom (built.reordered reordered)
    rw [twinDone] at twinAgain
    obtain rfl : twin = model.reordered other := Except.ok.inj twinAgain
    refine ⟨⟨rfl, rfl, rfl, rfl, rfl⟩, ?_⟩
    intro decides limit
    have checks := check_ok_of_decides (built.rules ▸ decides)
    have start : (Search.ofModel model).model = model := rfl
    obtain ⟨outcome, ended⟩ := solve_ok checks limit start
    refine ⟨outcome, ended, ?_⟩
    rw [solve_reordered reordered built.rules decides]
    exact ended

/-- Two boxes whose lids differ in color.  Beside a box with a red lid the lamp is blue. -/
def boxPuzzle : Puzzle where
  file := none
  domains := [⟨"Color", ["red", "blue"]⟩, ⟨"Size", ["small", "large"]⟩]
  schemas := [⟨"Box", [⟨"Color", "lid", true⟩, ⟨"Size", "side", false⟩]⟩,
    ⟨"Bag", [⟨"Size", "width", false⟩]⟩]
  declarations := [⟨"B", "Box", some 2, ⟨0, 0⟩⟩, ⟨"L", "Color", none, ⟨0, 0⟩⟩]
  rules := [
    ⟨⟨⟨"B", [.index 0, .field "lid"], ⟨0, 0⟩⟩, true, ⟨"red", [], ⟨0, 0⟩⟩⟩, []⟩,
    ⟨⟨⟨"B", [.field "lid"], ⟨0, 0⟩⟩, false, ⟨"red", [], ⟨0, 0⟩⟩⟩,
      [⟨⟨"B", [.field "side"], ⟨0, 0⟩⟩, false, ⟨"large", [], ⟨0, 0⟩⟩⟩,
        ⟨⟨"L", [.index 0], ⟨0, 0⟩⟩, false, ⟨"blue", [], ⟨0, 0⟩⟩⟩]⟩]

def turnedBoxPuzzle : Puzzle where
  file := none
  domains := boxPuzzle.domains.reverse
  schemas := boxPuzzle.schemas.reverse
  declarations := boxPuzzle.declarations
  rules := boxPuzzle.rules.reverse.map fun rule =>
    ⟨rule.guard, rule.consequents.reverse⟩

theorem reordered_boxPuzzle : boxPuzzle.Reordered turnedBoxPuzzle where
  file := rfl
  domains := (List.reverse_perm _).symm
  schemas := (List.reverse_perm _).symm
  declarations := rfl
  rules := ⟨boxPuzzle.rules.reverse, (List.reverse_perm _).symm,
    List.forall₂_map_right_iff.mpr (List.forall₂_same.mpr fun _ _ =>
      ⟨rfl, (List.reverse_perm _).symm⟩)⟩

def boxModel : Model where
  file := none
  domains := boxPuzzle.domains
  schemas := boxPuzzle.schemas
  scalars := [⟨"L", ⟨"Color", ⟨"Color", ["red", "blue"]⟩⟩, 1⟩]
  records := [⟨"B", ⟨"Box", [⟨"Color", "lid", true⟩, ⟨"Size", "side", false⟩]⟩,
    [("lid", ⟨"Color", ⟨"Color", ["red", "blue"]⟩⟩),
      ("side", ⟨"Size", ⟨"Size", ["small", "large"]⟩⟩)], 2⟩]
  rules := boxPuzzle.rules
  cells := [⟨"Color", ⟨"Color", ["red", "blue"]⟩⟩,
    ⟨"Color", ⟨"Color", ["red", "blue"]⟩⟩, ⟨"Size", ⟨"Size", ["small", "large"]⟩⟩,
    ⟨"Color", ⟨"Color", ["red", "blue"]⟩⟩, ⟨"Size", ⟨"Size", ["small", "large"]⟩⟩]
  peers := [[], [3], [], [1], []]

theorem solve_turnedBoxPuzzle :
    boxPuzzle.Reordered turnedBoxPuzzle ∧ build boxPuzzle = .ok boxModel ∧
      (∀ rule ∈ boxPuzzle.rules, boxModel.Decides rule) ∧
      ∃ twin, build turnedBoxPuzzle = .ok twin ∧ twin.peers = [[], [3], [], [1], []] ∧
        ∃ outcome, boxModel.solve none = .ok outcome ∧ twin.solve none = .ok outcome ∧
          outcome.iterations = 20 := by
  have done : build boxPuzzle = .ok boxModel := by rfl
  have decides : ∀ rule ∈ boxPuzzle.rules, boxModel.Decides rule := by
    refine List.forall_mem_cons.mpr ⟨decides_of_spellable (by decide) ⟨1, rfl⟩,
      List.forall_mem_singleton.mpr (decides_of_spellable (by decide) ?_)⟩
    change ∀ index < 2, ∀ comparison ∈ _, Resolves _ (some ⟨"B", (index : Nat)⟩) _
    decide
  obtain ⟨accepted, alike⟩ := alike_in_any_order reordered_boxPuzzle
  obtain ⟨twin, twinDone⟩ := accepted.mp ⟨boxModel, done⟩
  obtain ⟨⟨_, _, _, peers, _⟩, solves⟩ := alike boxModel twin done twinDone
  obtain ⟨outcome, ended, twinEnded⟩ := solves decides none
  refine ⟨reordered_boxPuzzle, done, decides, twin, twinDone, peers, outcome, ended, twinEnded,
    ?_⟩
  have tests : (boxModel.solve none).map Outcome.iterations = .ok 20 := by rfl
  rw [ended] at tests
  exact Except.ok.inj tests

end Model

end LogicPuzzle
