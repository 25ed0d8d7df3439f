import LogicPuzzle.Proofs.Renaming
import LogicPuzzle.Proofs.TwinSearches

/-!
# Searches under other names

A reference resolves under an injective map to the cell it resolves to before,
and where it is at fault its name stands for the same label.  So every test says
the same under other names, the models are twins, and a search ends with the
same status after as many tests, with the labels it finds under their new names.
-/

namespace LogicPuzzle

section Renamed

variable (rename : String → String)

def Binding.renamed (binding : Binding) : Binding :=
  ⟨rename binding.array, binding.index⟩

/-- A fault under other names; an index has none. -/
def Unresolved.renamed : Unresolved → Unresolved
  | .fault diagnostic => .fault (diagnostic.renamed rename)
  | .outOfRange => .outOfRange
  | .numeral => .numeral

def Outcome.renamed (outcome : Outcome) : Outcome :=
  { outcome with
    records := outcome.records.renamed rename (List.map (Table.renamed rename rename))
    scalars := outcome.scalars.renamed rename (List.map rename) }

end Renamed

variable {rename : String → String}

/-! ## References under other names -/

namespace Selector

theorem index?_renamed (selector : Selector) :
    (selector.renamed rename).index? = selector.index? := by
  cases selector <;> rfl

theorem field?_renamed (selector : Selector) :
    (selector.renamed rename).field? = selector.field?.map rename := by
  cases selector <;> rfl

end Selector

namespace Reference

theorem index?_renamed (reference : Reference) :
    (reference.renamed rename).index? = reference.index? := by
  rw [index?, index?, renamed, List.filterMap_map]
  exact congrArg (fun test => (reference.selectors.filterMap test).getLast?)
    (funext Selector.index?_renamed)

theorem field?_renamed (reference : Reference) :
    (reference.renamed rename).field? = reference.field?.map rename := by
  rw [field?, field?, renamed, List.filterMap_map, ← List.getLast?_map, List.map_filterMap]
  exact congrArg (fun test => (reference.selectors.filterMap test).getLast?)
    (funext Selector.field?_renamed)

end Reference

namespace Rule

theorem quantified_renamed (rule : Rule) : (rule.renamed rename).quantified = rule.quantified := by
  rw [quantified, quantified, renamed, List.isEmpty_map]

end Rule

namespace Domain

theorem labelAt?_renamed (domain : Domain) (place : Int) :
    (domain.renamed rename).labelAt? place = (domain.labelAt? place).map rename := by
  rw [labelAt?, labelAt?, renamed, List.length_map, List.getElem?_map]

theorem indexOf_renamed (injective : Function.Injective rename) (domain : Domain)
    (label : String) : (domain.renamed rename).indexOf (rename label) = domain.indexOf label := by
  rw [indexOf, indexOf, renamed, idxOf?_renamed injective]

end Domain

namespace Cell

theorem size_renamed (cell : Cell) : (cell.renamed rename).size = cell.size :=
  List.length_map _

end Cell

namespace Model

theorem length_cells_renamed (model : Model) :
    (model.renamed rename).cells.length = model.cells.length :=
  List.length_map _

theorem checkUniqueness_renamed (model : Model) (assignment : Assignment) :
    (model.renamed rename).checkUniqueness assignment = model.checkUniqueness assignment := by
  rw [checkUniqueness, checkUniqueness, length_cells_renamed]
  rfl

theorem unresolved_renamed (model : Model) (reference : Reference) (fault : ModelFault) :
    (model.renamed rename).unresolved (reference.renamed rename) (fault.renamed rename) =
      (model.unresolved reference fault).renamed rename := by
  have long : (fault.renamed rename).hasLongNumber = fault.hasLongNumber := by
    cases fault <;> rfl
  rw [unresolved, unresolved, long]
  split <;> rfl

theorem resolveScalar_renamed (model : Model) (start : Nat) (array : ScalarArray)
    (reference : Reference) :
    (model.renamed rename).resolveScalar start (array.renamed rename) (reference.renamed rename) =
      (model.resolveScalar start array reference).mapError (Unresolved.renamed rename) := by
  rw [resolveScalar, resolveScalar, Reference.index?_renamed]
  cases reference.index? with
  | none => rfl
  | some index =>
      have size : (array.renamed rename).size = array.size := rfl
      simp only [size]
      by_cases outside : (array.size : Int) ≤ index
      · rw [if_pos outside, if_pos outside]
        exact congrArg Except.error
          (unresolved_renamed model reference (.badScalarElement index reference.name))
      · rw [if_neg outside, if_neg outside]
        cases fromStart? array.size index with
        | none => rfl
        | some element => rfl

section Injective

variable (injective : Function.Injective rename)

include injective

theorem elementIndex?_renamed (binding : Option Binding) (reference : Reference) :
    elementIndex? (binding.map (Binding.renamed rename)) (reference.renamed rename) =
      elementIndex? binding reference := by
  unfold elementIndex?
  rw [Reference.index?_renamed]
  cases reference.index? with
  | some index => rfl
  | none =>
      cases binding with
      | none => rfl
      | some bound =>
          refine if_congr ?_ rfl rfl
          exact injective.eq_iff

theorem resolveRecord_renamed (model : Model) (start : Nat) (array : RecordArray)
    (binding : Option Binding) (reference : Reference) :
    (model.renamed rename).resolveRecord start (array.renamed rename)
        (binding.map (Binding.renamed rename)) (reference.renamed rename) =
      (model.resolveRecord start array binding reference).mapError (Unresolved.renamed rename) := by
  rw [resolveRecord, resolveRecord, elementIndex?_renamed injective, Reference.field?_renamed]
  cases elementIndex? binding reference with
  | none => rfl
  | some index =>
      have size : (array.renamed rename).size = array.size := rfl
      simp only [size]
      by_cases outside : index < 0 ∨ (array.size : Int) ≤ index
      · rw [if_pos outside, if_pos outside]
        exact congrArg Except.error
          (unresolved_renamed model reference (.badElement index reference.name))
      · rw [if_neg outside, if_neg outside]
        cases reference.field? with
        | none => rfl
        | some field =>
            simp only [Option.map_some, RecordArray.fieldPlace?_renamed injective,
              RecordArray.cellNumber_renamed]
            cases array.fieldPlace? field with
            | none => rfl
            | some place => rfl

/-- A reference resolves to the same cell under other names, or fails for the same reason. -/
theorem resolve_renamed (model : Model) (binding : Option Binding) (reference : Reference) :
    (model.renamed rename).resolve (binding.map (Binding.renamed rename))
        (reference.renamed rename) =
      (model.resolve binding reference).mapError (Unresolved.renamed rename) := by
  have record := record?_renamed injective model reference.name
  have scalar := scalar?_renamed injective model reference.name
  have name : (reference.renamed rename).name = rename reference.name := rfl
  rw [resolve, resolve, name, record, scalar]
  cases model.record? reference.name with
  | some entry => exact resolveRecord_renamed injective model entry.1 entry.2 binding reference
  | none =>
      cases model.scalar? reference.name with
      | some entry => exact resolveScalar_renamed model entry.1 entry.2 reference
      | none => rfl

theorem labelPlace_renamed (model : Model) (cell : Nat) (label : String) :
    (model.renamed rename).labelPlace cell (rename label) = model.labelPlace cell label := by
  rw [labelPlace, labelPlace, renamed, List.getElem?_map]
  cases model.cells[cell]? with
  | none => rfl
  | some found => exact Domain.indexOf_renamed injective found.domain label

/-- What resolves to a cell and what is a label stays so under other names. -/
theorem rightPlace_renamed (model : Model) (assignment : Assignment) (binding : Option Binding)
    (left : Nat) (reference : Reference) :
    (model.renamed rename).rightPlace assignment (binding.map (Binding.renamed rename)) left
        (reference.renamed rename) =
      (model.rightPlace assignment binding left reference).mapError
        (Unresolved.renamed rename) := by
  rw [rightPlace, rightPlace, resolve_renamed injective]
  cases model.resolve binding reference with
  | ok right => rfl
  | error unresolved =>
      cases unresolved with
      | fault diagnostic =>
          exact congrArg Except.ok (labelPlace_renamed injective model left reference.name)
      | outOfRange => rfl
      | numeral => rfl

/-! ## Tests under other names -/

theorem evaluate_renamed (model : Model) (assignment : Assignment) (binding : Option Binding)
    (comparison : Comparison) :
    (model.renamed rename).evaluate assignment (binding.map (Binding.renamed rename))
        (comparison.renamed rename) =
      (model.evaluate assignment binding comparison).mapError (Unresolved.renamed rename) := by
  rw [evaluate, evaluate, Comparison.renamed, resolve_renamed injective]
  cases model.resolve binding comparison.left with
  | error unresolved => rfl
  | ok left =>
      have right := rightPlace_renamed injective model assignment binding left comparison.right
      simp only [Except.mapError, bind, Except.bind, right]
      cases model.rightPlace assignment binding left comparison.right with
      | error unresolved => rfl
      | ok place => rfl

theorem holdsAt_renamed (model : Model) (assignment : Assignment) (rule : Rule)
    (binding : Binding) :
    (model.renamed rename).holdsAt assignment (rule.renamed rename) (binding.renamed rename) =
      (model.holdsAt assignment rule binding).mapError (Unresolved.renamed rename) := by
  have guard := evaluate_renamed injective model assignment (some binding) rule.guard
  have consequents : List.Forall₂ (fun comparison other =>
      (model.renamed rename).evaluate assignment (some (binding.renamed rename)) other =
        (model.evaluate assignment (some binding) comparison).mapError
          (Unresolved.renamed rename)) rule.consequents (rule.renamed rename).consequents :=
    List.forall₂_map_right_iff.mpr (List.forall₂_same.mpr fun comparison _ =>
      evaluate_renamed injective model assignment (some binding) comparison)
  rw [holdsAt, holdsAt, allM_mapError consequents]
  refine (congrArg (· >>= _) guard).trans ?_
  cases model.evaluate assignment (some binding) rule.guard with
  | error unresolved => rfl
  | ok holds =>
      cases holds with
      | true => rfl
      | false => rfl

theorem quantifiedArray?_renamed (model : Model) (rule : Rule) :
    (model.renamed rename).quantifiedArray? (rule.renamed rename) =
      (model.quantifiedArray? rule).map (RecordArray.renamed rename) := by
  have array := record?_renamed injective model rule.guard.left.name
  have name : (rule.renamed rename).guard.left.name = rename rule.guard.left.name := rfl
  rw [quantifiedArray?, quantifiedArray?, Rule.quantified_renamed, name, array]
  cases rule.quantified with
  | false => rfl
  | true =>
      cases model.record? rule.guard.left.name with
      | none => rfl
      | some entry => rfl

theorem checkRule_renamed (model : Model) (assignment : Assignment) (rule : Rule) :
    (model.renamed rename).checkRule assignment (rule.renamed rename) =
      (model.checkRule assignment rule).mapError (Unresolved.renamed rename) := by
  rw [checkRule, checkRule, quantifiedArray?_renamed injective]
  cases model.quantifiedArray? rule with
  | none => exact evaluate_renamed injective model assignment none rule.guard
  | some array =>
      refine allM_mapError (List.forall₂_same.mpr fun index _ => ?_)
      exact holdsAt_renamed injective model assignment rule ⟨rule.guard.left.name, index⟩

theorem check_renamed (model : Model) (assignment : Assignment) :
    (model.renamed rename).check assignment =
      (model.check assignment).mapError (Unresolved.renamed rename) := by
  have rules : (model.renamed rename).checkRules assignment =
      (model.checkRules assignment).mapError (Unresolved.renamed rename) :=
    allM_mapError (List.forall₂_map_right_iff.mpr (List.forall₂_same.mpr fun rule _ =>
      checkRule_renamed injective model assignment rule))
  rw [check, check, checkUniqueness_renamed, rules]
  cases model.checkUniqueness assignment with
  | false => rfl
  | true => rfl

/-- A model and the model under other names are twins. -/
theorem twin_renamed (model : Model) :
    model.Twin (Unresolved.renamed rename) (model.renamed rename) where
  sizes := by
    rw [renamed, List.map_map]
    exact List.map_congr_left fun cell _ => Cell.size_renamed cell
  checks := check_renamed injective model

end Injective

end Model

/-! ## Outcomes under other names -/

namespace Model

variable {model : Model} {puzzle : Puzzle} {search : Search}

/-- A cell of a built model shows its label under the new name. -/
theorem BuiltFrom.labelOf_renamed (built : model.BuiltFrom puzzle) (same : search.model = model)
    {number : Nat} {cell : Cell} (found : model.cells[number]? = some cell) :
    (search.inModel (model.renamed rename)).labelOf number = rename (search.labelOf number) := by
  -- The nearest place of a domain with labels has one; without labels the empty text would be
  -- shown, and an empty text is not renamed.
  have labelled : 0 < cell.size := built.cell_size_pos cell (List.mem_of_getElem? found)
  have inside : min (search.assignment.placeOf number).toNat (cell.domain.labels.length - 1) <
      cell.domain.labels.length := by
    rw [Cell.size] at labelled
    omega
  have shown : cell.domain.labelAt? (search.assignment.placeOf number) =
      some cell.domain.labels[min (search.assignment.placeOf number).toNat
        (cell.domain.labels.length - 1)] := List.getElem?_eq_getElem inside
  have foundAlso : (search.inModel (model.renamed rename)).model.cells[number]? =
      some (cell.renamed rename) := by
    rw [Search.inModel, renamed, List.getElem?_map, found, Option.map_some]
  have stands : (search.inModel (model.renamed rename)).assignment = search.assignment := rfl
  have domain : (cell.renamed rename).domain = cell.domain.renamed rename := rfl
  simp only [Search.labelOf, foundAlso, same, found, stands, domain, Domain.labelAt?_renamed,
    shown, Option.map_some, Option.getD_some]

theorem BuiltFrom.recordLabels_renamed (built : model.BuiltFrom puzzle)
    (same : search.model = model) {start : Nat} {array : RecordArray}
    (member : (start, array) ∈ model.numberedRecords) :
    (search.inModel (model.renamed rename)).recordLabels start (array.renamed rename) =
      (search.recordLabels start array).map (Table.renamed rename rename) := by
  have size : (array.renamed rename).size = array.size := rfl
  have names : (array.renamed rename).fields.names = array.fields.names.map rename :=
    Table.names_renamed _ _
  rw [Search.recordLabels, Search.recordLabels, List.map_map, size]
  refine List.map_congr_left fun element inside => ?_
  rw [Function.comp_apply, Search.elementLabels, Search.elementLabels, names]
  refine List.ext_getElem (by simp only [Table.renamed, List.length_mapIdx, List.length_map]) ?_
  intro place within _
  simp only [List.length_mapIdx, List.length_map, Table.names] at within
  have cell := built.cells_of_record member (List.mem_range.mp inside) within
  rw [List.getElem?_eq_getElem within, Option.map_some] at cell
  simp only [Table.renamed, List.getElem_mapIdx, List.getElem_map,
    RecordArray.cellNumber_renamed, built.labelOf_renamed same cell]

theorem BuiltFrom.scalarLabels_renamed (built : model.BuiltFrom puzzle)
    (same : search.model = model) {start : Nat} {array : ScalarArray}
    (member : (start, array) ∈ model.numberedScalars) :
    (search.inModel (model.renamed rename)).scalarLabels start (array.renamed rename) =
      (search.scalarLabels start array).map rename := by
  rw [Search.scalarLabels, Search.scalarLabels, List.map_map]
  refine List.map_congr_left fun number inside => ?_
  obtain ⟨offset, below, rfl⟩ := List.mem_range'.mp inside
  rw [Nat.one_mul]
  exact built.labelOf_renamed same (built.cells_of_scalar member below)

/-- What a search has found is shown under other names. -/
theorem BuiltFrom.outcome_renamed (built : model.BuiltFrom puzzle)
    (injective : Function.Injective rename) (same : search.model = model) (status : Status) :
    (search.inModel (model.renamed rename)).outcome status =
      (search.outcome status).renamed rename := by
  have records : (model.renamed rename).numberedRecords.map (fun entry =>
      (entry.2.name, (search.inModel (model.renamed rename)).recordLabels entry.1 entry.2)) =
        Table.renamed rename (List.map (Table.renamed rename rename))
          (model.numberedRecords.map fun entry =>
            (entry.2.name, search.recordLabels entry.1 entry.2)) := by
    rw [numberedRecords_renamed, Table.renamed, List.map_map, List.map_map]
    refine List.map_congr_left fun entry member => ?_
    exact congrArg (Prod.mk _) (built.recordLabels_renamed same member)
  have scalars : (model.renamed rename).numberedScalars.map (fun entry =>
      (entry.2.name, (search.inModel (model.renamed rename)).scalarLabels entry.1 entry.2)) =
        Table.renamed rename (List.map rename)
          (model.numberedScalars.map fun entry =>
            (entry.2.name, search.scalarLabels entry.1 entry.2)) := by
    rw [numberedScalars_renamed, Table.renamed, List.map_map, List.map_map]
    refine List.map_congr_left fun entry member => ?_
    exact congrArg (Prod.mk _) (built.scalarLabels_renamed same member)
  have space := (twin_renamed injective model).searchSpace_eq
  subst same
  have stands :
      (search.inModel (search.model.renamed rename)).model = search.model.renamed rename := rfl
  rw [Search.outcome, Search.outcome, Outcome.renamed, stands, space]
  by_cases solved : status = .solved
  · simp only [if_pos solved, records, scalars]
    rfl
  · simp only [if_neg solved]
    rfl

/-- A puzzle under other names is built when the puzzle is, into the model under other names, and
otherwise has its fault at the same place.  Every search of the model has the same status, tests as
many assignments of as large a search space, and finds the same labels under other names; where a
test cannot be made, the other search fails at the same place. -/
theorem alike_under_other_names (injective : Function.Injective rename) (puzzle : Puzzle) :
    build (puzzle.renamed rename) =
        ((build puzzle).map (renamed rename)).mapError (Diagnostic.renamed rename) ∧
      ∀ model, build puzzle = .ok model →
        (model.renamed rename).searchSpace = model.searchSpace ∧
        ∀ limit, (model.renamed rename).solve limit =
          ((model.solve limit).map (Outcome.renamed rename)).mapError
            (Unresolved.renamed rename) := by
  refine ⟨build_renamed injective puzzle, fun model done => ?_⟩
  have twin := twin_renamed injective model
  have built := builtFrom_of_build done
  exact ⟨twin.searchSpace_eq, twin.solve_eq fun search status same =>
    built.outcome_renamed injective same status⟩

/-- Two doors with knobs of different colors and a lamp.  The first frame is not red, and a door
has a red knob only where its frame has the color of the lamp. -/
def doorPuzzle : Puzzle where
  file := none
  domains := [⟨"Color", ["red", "blue"]⟩]
  schemas := [⟨"Door", [⟨"Color", "frame", false⟩, ⟨"Color", "knob", true⟩]⟩]
  declarations := [⟨"D", "Door", some 2, ⟨0, 0⟩⟩, ⟨"L", "Color", none, ⟨0, 0⟩⟩]
  rules := [
    ⟨⟨⟨"D", [.index 0, .field "frame"], ⟨0, 0⟩⟩, true, ⟨"red", [], ⟨0, 0⟩⟩⟩, []⟩,
    ⟨⟨⟨"D", [.field "knob"], ⟨0, 0⟩⟩, false, ⟨"red", [], ⟨0, 0⟩⟩⟩,
      [⟨⟨"D", [.field "frame"], ⟨0, 0⟩⟩, false, ⟨"L", [.index 0], ⟨0, 0⟩⟩⟩]⟩]

def doorModel : Model where
  file := none
  domains := doorPuzzle.domains
  schemas := doorPuzzle.schemas
  scalars := [⟨"L", ⟨"Color", ⟨"Color", ["red", "blue"]⟩⟩, 1⟩]
  records := [⟨"D", ⟨"Door", [⟨"Color", "frame", false⟩, ⟨"Color", "knob", true⟩]⟩,
    [("frame", ⟨"Color", ⟨"Color", ["red", "blue"]⟩⟩),
      ("knob", ⟨"Color", ⟨"Color", ["red", "blue"]⟩⟩)], 2⟩]
  rules := doorPuzzle.rules
  cells := List.replicate 5 ⟨"Color", ⟨"Color", ["red", "blue"]⟩⟩
  peers := [[], [], [4], [], [2]]

/-- The doors and the color red can change their names. -/
theorem solve_doorPuzzle_swapped :
    Function.Injective (Equiv.swap "D" "red") ∧ build doorPuzzle = .ok doorModel ∧
      build (doorPuzzle.renamed (Equiv.swap "D" "red")) =
        .ok (doorModel.renamed (Equiv.swap "D" "red")) ∧
      (doorModel.renamed (Equiv.swap "D" "red")).solve none = .ok {
        puzzle := "<string>"
        status := .solved
        iterations := 7
        searchSpace := 32
        records := [("red", [[("frame", "blue"), ("knob", "blue")],
          [("frame", "D"), ("knob", "D")]])]
        scalars := [("L", ["D"])] } := by
  have injective : Function.Injective (Equiv.swap "D" "red") := (Equiv.swap "D" "red").injective
  have done : build doorPuzzle = .ok doorModel := by rfl
  obtain ⟨buildsAlike, searchesAlike⟩ := alike_under_other_names injective doorPuzzle
  rw [done] at buildsAlike
  obtain ⟨_, ends⟩ := searchesAlike doorModel done
  have ended : doorModel.solve none = .ok ⟨"<string>", .solved, 7, 32,
    [("D", [[("frame", "blue"), ("knob", "blue")], [("frame", "red"), ("knob", "red")]])],
    [("L", ["red"])]⟩ := by rfl
  refine ⟨injective, done, buildsAlike, ?_⟩
  rw [ends none, ended]
  rfl

end Model

end LogicPuzzle
