import LogicPuzzle.Proofs.Joining
import LogicPuzzle.Proofs.Numbering

/-!
# Models beside each other

Two puzzles without a common name of a type or of an array can be put one behind
the other.  The model of both is built from the models of each: the scalar cells
of the first come first, then those of the second, then the record cells of the
first and of the second.  So the numbers of an array's cells move by as much as
there are other cells in front of them.
-/

namespace LogicPuzzle

namespace Puzzle

structure Extends (whole part : Puzzle) : Prop where
  schemas : ∀ name ∈ part.typeNames, whole.schema? name = part.schema? name
  domains : ∀ name ∈ part.typeNames, whole.domain? name = part.domain? name

variable {first second whole part : Puzzle} {declaration : Declaration} {name : String}

theorem schema?_append (first second : Puzzle) (name : String) :
    (first.append second).schema? name = (first.schema? name).or (second.schema? name) :=
  List.find?_append

theorem domain?_append (first second : Puzzle) (name : String) :
    (first.append second).domain? name = (first.domain? name).or (second.domain? name) :=
  List.find?_append

theorem extends_first (apart : ∀ name ∈ first.typeNames, name ∉ second.typeNames) :
    (first.append second).Extends first where
  schemas name known := by
    rw [schema?_append, schema?_eq_none (apart name known), Option.or_none]
  domains name known := by
    rw [domain?_append, domain?_eq_none (apart name known), Option.or_none]

theorem extends_second (apart : ∀ name ∈ first.typeNames, name ∉ second.typeNames) :
    (first.append second).Extends second where
  schemas name known := by
    rw [schema?_append, schema?_eq_none fun other => apart name other known, Option.none_or]
  domains name known := by
    rw [domain?_append, domain?_eq_none fun other => apart name other known, Option.none_or]

/-! ## Declared arrays -/

theorem Extends.scalarArray? (known : whole.Extends part)
    (declared : (part.scalarArray? declaration).isSome ∨
      (part.recordArray? declaration).isSome) :
    whole.scalarArray? declaration = part.scalarArray? declaration := by
  have typed := makes_array_iff.mp declared
  rw [Puzzle.scalarArray?, known.schemas _ typed, known.domains _ typed]
  rfl

theorem Extends.entryField (known : whole.Extends part) {entry : Entry}
    (typed : (part.domain? entry.type).isSome) :
    whole.entryField entry = part.entryField entry := by
  obtain ⟨domain, found⟩ := Option.isSome_iff_exists.mp typed
  rw [Puzzle.entryField, known.domains _ (mem_typeNames_of_domain? found)]
  rfl

theorem Extends.recordArray? (known : whole.Extends part)
    (declared : (part.scalarArray? declaration).isSome ∨
      (part.recordArray? declaration).isSome)
    (typed : ∀ schema, part.schema? declaration.type = some schema →
      ∀ entry ∈ schema.entries, (part.domain? entry.type).isSome) :
    whole.recordArray? declaration = part.recordArray? declaration := by
  rw [Puzzle.recordArray?, Puzzle.recordArray?, known.schemas _ (makes_array_iff.mp declared)]
  cases found : part.schema? declaration.type with
  | none => rfl
  | some schema =>
      have fields : schema.entries.map whole.entryField = schema.entries.map part.entryField :=
        List.map_congr_left fun entry member =>
          known.entryField (typed schema found entry member)
      rw [Option.map_some, Option.map_some, recordArray, recordArray, fields]

end Puzzle

namespace Model

/-! ## The model of both -/

def beside (first second : Model) : Model :=
  collect {
    file := first.file
    domains := first.domains ++ second.domains
    schemas := first.schemas ++ second.schemas
    scalars := first.scalars ++ second.scalars
    records := first.records ++ second.records
    rules := first.rules ++ second.rules
    cells := []
    peers := [] }

variable {first second model : Model} {firstPuzzle secondPuzzle : Puzzle} {name : String}

theorem nodup_interleaved {α : Type} {first firstRest second secondRest : List α}
    (firstDistinct : (first ++ firstRest).Nodup) (secondDistinct : (second ++ secondRest).Nodup)
    (apart : ∀ value ∈ first ++ firstRest, value ∉ second ++ secondRest) :
    ((first ++ second) ++ (firstRest ++ secondRest)).Nodup := by
  have perm : ((first ++ second) ++ (firstRest ++ secondRest)).Perm
      ((first ++ firstRest) ++ (second ++ secondRest)) := by
    simp only [List.append_assoc]
    exact (List.perm_append_comm_assoc _ _ _).append_left _
  rw [perm.nodup_iff, List.nodup_append]
  refine ⟨firstDistinct, secondDistinct, ?_⟩
  rintro value inFirst _ inSecond rfl
  exact apart value inFirst inSecond

section Extended

variable {model : Model} {part whole : Puzzle}

theorem BuiltFrom.scalars_extended (built : model.BuiltFrom part) (known : whole.Extends part) :
    part.declarations.filterMap whole.scalarArray? = model.scalars := by
  rw [built.scalars]
  exact List.filterMap_congr fun declaration member =>
    known.scalarArray? (built.declared declaration member)

theorem BuiltFrom.records_extended (built : model.BuiltFrom part) (known : whole.Extends part) :
    part.declarations.filterMap whole.recordArray? = model.records := by
  rw [built.records]
  exact List.filterMap_congr fun declaration member =>
    known.recordArray? (built.declared declaration member) (built.fields_typed declaration member)

theorem BuiltFrom.declared_extended (built : model.BuiltFrom part) (known : whole.Extends part) :
    ∀ declaration ∈ part.declarations, (whole.scalarArray? declaration).isSome ∨
      (whole.recordArray? declaration).isSome := by
  intro declaration member
  have declared := built.declared declaration member
  rwa [known.scalarArray? declared,
    known.recordArray? declared (built.fields_typed declaration member)]

theorem BuiltFrom.fields_typed_extended (built : model.BuiltFrom part)
    (known : whole.Extends part) : ∀ declaration ∈ part.declarations, ∀ schema,
      whole.schema? declaration.type = some schema →
        ∀ entry ∈ schema.entries, (whole.domain? entry.type).isSome := by
  intro declaration member schema found entry entryMember
  rw [known.schemas _ (Puzzle.makes_array_iff.mp (built.declared declaration member))] at found
  have typed := built.fields_typed declaration member schema found entry entryMember
  obtain ⟨domain, domainFound⟩ := Option.isSome_iff_exists.mp typed
  rwa [known.domains _ (Puzzle.mem_typeNames_of_domain? domainFound)]

end Extended

theorem BuiltFrom.typeNames_eq {model : Model} {puzzle : Puzzle} (built : model.BuiltFrom puzzle) :
    model.typeNames = puzzle.typeNames := by
  rw [typeNames, built.domains, built.schemas]
  rfl

/-- Two puzzles without common names have the model of both. -/
theorem builtFrom_beside (firstBuilt : first.BuiltFrom firstPuzzle)
    (secondBuilt : second.BuiltFrom secondPuzzle)
    (typesApart : ∀ name ∈ firstPuzzle.typeNames, name ∉ secondPuzzle.typeNames)
    (arraysApart : ∀ name ∈ firstPuzzle.arrayNames, name ∉ secondPuzzle.arrayNames) :
    (first.beside second).BuiltFrom (firstPuzzle.append secondPuzzle) := by
  have firstKnown := Puzzle.extends_first typesApart
  have secondKnown := Puzzle.extends_second typesApart
  have types : ∀ name ∈ first.typeNames, name ∉ second.typeNames := by
    rw [firstBuilt.typeNames_eq, secondBuilt.typeNames_eq]
    exact typesApart
  have arrays : ∀ name ∈ first.arrayNames, name ∉ second.arrayNames := by
    simpa only [firstBuilt.arrayNames_perm.mem_iff, secondBuilt.arrayNames_perm.mem_iff] using
      arraysApart
  exact {
    file := firstBuilt.file
    domains := congrArg₂ (· ++ ·) firstBuilt.domains secondBuilt.domains
    schemas := congrArg₂ (· ++ ·) firstBuilt.schemas secondBuilt.schemas
    rules := congrArg₂ (· ++ ·) firstBuilt.rules secondBuilt.rules
    scalars := by
      rw [Puzzle.append, List.filterMap_append]
      exact congrArg₂ (· ++ ·) (firstBuilt.scalars_extended firstKnown).symm
        (secondBuilt.scalars_extended secondKnown).symm
    records := by
      rw [Puzzle.append, List.filterMap_append]
      exact congrArg₂ (· ++ ·) (firstBuilt.records_extended firstKnown).symm
        (secondBuilt.records_extended secondKnown).symm
    cells := rfl
    peers := rfl
    labelled := List.forall_mem_append.mpr ⟨firstBuilt.labelled, secondBuilt.labelled⟩
    types_distinct := by
      have interleaved :=
        nodup_interleaved firstBuilt.types_distinct secondBuilt.types_distinct types
      rwa [← List.map_append, ← List.map_append] at interleaved
    arrays_distinct := by
      have interleaved :=
        nodup_interleaved firstBuilt.arrays_distinct secondBuilt.arrays_distinct arrays
      rwa [← List.map_append, ← List.map_append] at interleaved
    declared := List.forall_mem_append.mpr
      ⟨firstBuilt.declared_extended firstKnown, secondBuilt.declared_extended secondKnown⟩
    fields_typed := List.forall_mem_append.mpr
      ⟨firstBuilt.fields_typed_extended firstKnown,
        secondBuilt.fields_typed_extended secondKnown⟩ }

/-! ## The arrays of both -/

theorem numberedScalars_beside (first second : Model) :
    (first.beside second).numberedScalars =
      first.numberedScalars.map (later 0) ++
        second.numberedScalars.map (later first.scalarCount) := by
  change numbered ScalarArray.size 0 (first.scalars ++ second.scalars) = _
  rw [numbered_append, Nat.zero_add]
  exact congrArg₂ (· ++ ·) (numbered_later ScalarArray.size 0 0 first.scalars)
    (numbered_later ScalarArray.size first.scalarCount 0 second.scalars)

theorem scalarCount_beside (first second : Model) :
    (first.beside second).scalarCount = first.scalarCount + second.scalarCount :=
  totalExtent_append ScalarArray.size first.scalars second.scalars

theorem numberedRecords_beside (first second : Model) :
    (first.beside second).numberedRecords =
      first.numberedRecords.map (later second.scalarCount) ++
        second.numberedRecords.map (later (first.scalarCount + first.recordCount)) := by
  change numbered RecordArray.extent (first.beside second).scalarCount
    (first.records ++ second.records) = _
  have start : first.scalarCount + second.scalarCount +
      totalExtent RecordArray.extent first.records =
        first.scalarCount + first.recordCount + second.scalarCount := by
    rw [recordCount]
    omega
  rw [numbered_append, scalarCount_beside, start,
    Nat.add_comm first.scalarCount second.scalarCount, numbered_later, numbered_later]
  rfl

theorem scalarCells_beside (first second : Model) :
    (first.beside second).scalarCells = first.scalarCells ++ second.scalarCells := by
  simp only [scalarCells, numberedScalars, flatMap_numbered]
  exact List.flatMap_append

theorem recordCells_beside (first second : Model) :
    (first.beside second).recordCells = first.recordCells ++ second.recordCells := by
  simp only [recordCells, numberedRecords, flatMap_numbered]
  exact List.flatMap_append

theorem cells_beside (first second : Model) :
    (first.beside second).cells = (first.scalarCells ++ second.scalarCells) ++
      (first.recordCells ++ second.recordCells) := by
  rw [← scalarCells_beside, ← recordCells_beside]
  simp only [scalarCells, recordCells, numberedScalars, numberedRecords, flatMap_numbered]
  rfl

theorem scalar?_beside (first second : Model) (name : String) :
    (first.beside second).scalar? name = ((first.scalar? name).map (later 0)).or
      ((second.scalar? name).map (later first.scalarCount)) := by
  rw [scalar?, numberedScalars_beside, List.find?_append, List.find?_map, List.find?_map]
  rfl

theorem record?_beside (first second : Model) (name : String) :
    (first.beside second).record? name =
      ((first.record? name).map (later second.scalarCount)).or
        ((second.record? name).map (later (first.scalarCount + first.recordCount))) := by
  rw [record?, numberedRecords_beside, List.find?_append, List.find?_map, List.find?_map]
  rfl

end Model

end LogicPuzzle
