import LogicPuzzle.Proofs.Renaming
import LogicPuzzle.Proofs.Satisfaction

/-!
# Further unique entries

Flagging further entries of the schemas of a puzzle as unique leaves its arrays
and cells, and what references stand for, as they are.  Only peers are added, in
every array over such a schema, so an assignment without conflicts had none
before.
-/

namespace LogicPuzzle

variable {more : String → Nat → Bool}

def Schema.flagged (more : String → Nat → Bool) (schema : Schema) : Schema where
  name := schema.name
  entries := schema.entries.mapIdx fun place entry =>
    { entry with unique := entry.unique || more schema.name place }

def RecordArray.flagged (more : String → Nat → Bool) (array : RecordArray) : RecordArray :=
  { array with schema := array.schema.flagged more }

def Puzzle.flagged (more : String → Nat → Bool) (puzzle : Puzzle) : Puzzle :=
  { puzzle with schemas := puzzle.schemas.map (Schema.flagged more) }

def Model.flagged (more : String → Nat → Bool) (model : Model) : Model :=
  collect { model with
    schemas := model.schemas.map (Schema.flagged more)
    records := model.records.map (RecordArray.flagged more) }

/-! ## Schemas and arrays -/

/-- What does not depend on the flags of entries is the same. -/
theorem Schema.map_entries_flagged {β : Type} {make : Entry → β}
    (unflagged : ∀ entry unique, make { entry with unique } = make entry) (schema : Schema) :
    (schema.flagged more).entries.map make = schema.entries.map make := by
  apply List.ext_getElem
  · rw [List.length_map, List.length_map, flagged, List.length_mapIdx]
  · intro place _ _
    rw [List.getElem_map, List.getElem_map]
    simp only [flagged, List.getElem_mapIdx, unflagged]

theorem Schema.exists_of_mem_flagged {schema : Schema} {entry : Entry}
    (member : entry ∈ (schema.flagged more).entries) :
    ∃ original ∈ schema.entries, entry.type = original.type := by
  obtain ⟨place, inside, rfl⟩ := List.mem_mapIdx.mp member
  exact ⟨_, List.getElem_mem inside, rfl⟩

/-- A unique entry stays one. -/
theorem Schema.exists_uniqueEntry {schema : Schema} {entry : Entry}
    (member : entry ∈ schema.uniqueEntries) :
    ∃ other ∈ (schema.flagged more).uniqueEntries, other.name = entry.name := by
  obtain ⟨inEntries, unique⟩ := List.mem_filter.mp member
  obtain ⟨place, inside, rfl⟩ := List.getElem_of_mem inEntries
  refine ⟨_, List.mem_filter.mpr ⟨List.mem_mapIdx.mpr ⟨place, inside, rfl⟩, ?_⟩, rfl⟩
  exact Bool.or_eq_true_iff.mpr (.inl unique)

theorem RecordArray.mem_uniquePlaces_flagged {array : RecordArray} {place : Nat}
    (unique : place ∈ array.uniquePlaces) : place ∈ (array.flagged more).uniquePlaces := by
  obtain ⟨entry, member, placed⟩ := List.mem_filterMap.mp unique
  obtain ⟨other, otherMember, same⟩ := Schema.exists_uniqueEntry member
  exact List.mem_filterMap.mpr ⟨other, otherMember, same ▸ placed⟩

theorem RecordArray.Differs.unflagged {array : RecordArray} {held : Nat → Int}
    (differs : (array.flagged more).Differs held) : array.Differs held :=
  fun place unique => differs place (mem_uniquePlaces_flagged unique)

namespace Puzzle

variable {puzzle : Puzzle}

theorem schema?_flagged (name : String) :
    (puzzle.flagged more).schema? name = (puzzle.schema? name).map (Schema.flagged more) :=
  List.find?_map

theorem recordArray_flagged (declaration : Declaration) (schema : Schema) :
    (puzzle.flagged more).recordArray declaration (schema.flagged more) =
      (puzzle.recordArray declaration schema).flagged more := by
  have fields : (schema.flagged more).entries.map (puzzle.flagged more).entryField =
      schema.entries.map puzzle.entryField :=
    Schema.map_entries_flagged (fun _ _ => rfl) schema
  rw [recordArray, fields]
  rfl

theorem recordArray?_flagged (declaration : Declaration) :
    (puzzle.flagged more).recordArray? declaration =
      (puzzle.recordArray? declaration).map (RecordArray.flagged more) := by
  rw [recordArray?, schema?_flagged, recordArray?, Option.map_map, Option.map_map]
  congr 1
  funext schema
  exact recordArray_flagged declaration schema

theorem scalarArray?_flagged (declaration : Declaration) :
    (puzzle.flagged more).scalarArray? declaration = puzzle.scalarArray? declaration := by
  rw [scalarArray?, schema?_flagged, scalarArray?]
  cases puzzle.schema? declaration.type with
  | none => rfl
  | some schema => rfl

end Puzzle

namespace Model

variable {model : Model} {puzzle : Puzzle}

theorem allCells_flagged : (model.flagged more).allCells = model.allCells := by
  rw [allCells, allCells]
  exact congrArg _ (List.flatMap_map _ _ _)

/-- The puzzle with further unique entries is built into the model with them. -/
theorem BuiltFrom.flagged (more : String → Nat → Bool) (built : model.BuiltFrom puzzle) :
    (model.flagged more).BuiltFrom (puzzle.flagged more) where
  file := built.file
  domains := built.domains
  schemas := congrArg _ built.schemas
  rules := built.rules
  scalars := built.scalars.trans
    (List.filterMap_congr fun declaration _ => (Puzzle.scalarArray?_flagged declaration).symm)
  records := by
    change model.records.map (RecordArray.flagged more) = _
    rw [built.records, List.map_filterMap]
    exact List.filterMap_congr fun declaration _ => (Puzzle.recordArray?_flagged declaration).symm
  cells := rfl
  peers := rfl
  labelled := built.labelled
  types_distinct := by
    have names : (model.flagged more).typeNames = model.typeNames :=
      congrArg (model.domains.map (·.name) ++ ·) List.map_map
    rw [names]
    exact built.types_distinct
  arrays_distinct := by
    have names : (model.flagged more).arrayNames = model.arrayNames :=
      congrArg (model.scalars.map (·.name) ++ ·) List.map_map
    rw [names]
    exact built.arrays_distinct
  declared declaration member := by
    rw [Puzzle.scalarArray?_flagged, Puzzle.recordArray?_flagged, Option.isSome_map]
    exact built.declared declaration member
  fields_typed declaration member schema found entry entryMember := by
    rw [Puzzle.schema?_flagged] at found
    obtain ⟨original, originalFound, rfl⟩ := Option.map_eq_some_iff.mp found
    obtain ⟨other, otherMember, same⟩ := Schema.exists_of_mem_flagged entryMember
    rw [same]
    exact built.fields_typed declaration member original originalFound other otherMember

theorem BuiltFrom.cells_flagged (built : model.BuiltFrom puzzle) :
    (model.flagged more).cells = model.cells :=
  allCells_flagged.trans built.cells.symm

/-! ## References and rules -/

theorem numberedRecords_flagged : (model.flagged more).numberedRecords =
    model.numberedRecords.map fun entry => (entry.1, entry.2.flagged more) := by
  have extents (array : RecordArray) : (array.flagged more).extent = array.extent := rfl
  exact numbered_renamed extents _ model.records

theorem record?_flagged (name : String) : (model.flagged more).record? name =
    (model.record? name).map fun entry => (entry.1, entry.2.flagged more) := by
  rw [record?, numberedRecords_flagged]
  exact List.find?_map

/-- References stand for the same cells and are at fault for the same reasons. -/
theorem resolve_flagged (binding : Option Binding) (reference : Reference) :
    (model.flagged more).resolve binding reference = model.resolve binding reference := by
  rw [resolve, record?_flagged, resolve]
  cases model.record? reference.name with
  | none => rfl
  | some entry => rfl

section Rules

variable (built : model.BuiltFrom puzzle) (assignment : Assignment)
include built

theorem evaluate_flagged (binding : Option Binding) :
    (model.flagged more).evaluate assignment binding = model.evaluate assignment binding := by
  funext comparison
  simp only [evaluate, rightPlace, labelPlace, resolve_flagged, built.cells_flagged]

theorem checkRule_flagged (rule : Rule) :
    (model.flagged more).checkRule assignment rule = model.checkRule assignment rule := by
  have array : (model.flagged more).quantifiedArray? rule =
      (model.quantifiedArray? rule).map (RecordArray.flagged more) := by
    rw [quantifiedArray?, quantifiedArray?, record?_flagged, Option.map_map]
    split
    · rw [Option.map_map]
      rfl
    · rfl
  rw [checkRule, checkRule, array]
  cases model.quantifiedArray? rule with
  | none => simp only [Option.map_none, evaluate_flagged built]
  | some array => simp only [Option.map_some, holdsAt, evaluate_flagged built, RecordArray.flagged]

theorem checkRules_flagged :
    (model.flagged more).checkRules assignment = model.checkRules assignment :=
  congrArg (model.rules.allM ·) (funext (checkRule_flagged built assignment))

variable {assignment}

/-- Without conflicts among more peers there are none among fewer. -/
theorem checkUniqueness_of_flagged
    (accepted : (model.flagged more).checkUniqueness assignment = true) :
    model.checkUniqueness assignment = true := by
  rw [built.checkUniqueness_iff_differs]
  intro entry member
  have flagged := (built.flagged more).checkUniqueness_iff_differs.mp accepted
    (entry.1, entry.2.flagged more)
  refine (flagged ?_).unflagged
  rw [numberedRecords_flagged]
  exact List.mem_map_of_mem member

end Rules

end Model

end LogicPuzzle
