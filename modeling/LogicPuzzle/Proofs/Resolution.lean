import LogicPuzzle.Proofs.Demand
import LogicPuzzle.Proofs.Numbering

/-!
# Resolved references

In a built model a reference resolves to a cell exactly when it stands for a
slot of the puzzle, and the cell is the one that holds the place of the slot.
Names of arrays, fields and types are looked up in the puzzle and in the model
with the same result.
-/

namespace LogicPuzzle

namespace Model

/-- The number of the cell that holds the place of a slot. -/
def number? (model : Model) : Slot → Option Nat
  | .element array index =>
      (model.scalar? array).bind fun entry =>
        if index < entry.2.size then some (entry.1 + index) else none
  | .field array index name =>
      (model.record? array).bind fun entry =>
        if index < entry.2.size then
          (entry.2.fieldPlace? name).map fun place => entry.1 + entry.2.cellNumber index place
        else none

variable {model : Model} {puzzle : Puzzle} {binding : Option Binding} {reference : Reference}

/-! ## Declared arrays -/

theorem number?_element {array : ScalarArray} {start index : Nat} {name : String}
    (found : model.scalar? name = some (start, array)) (inside : index < array.size) :
    model.number? (.element name index) = some (start + index) := by
  rw [number?, found, Option.bind_some, if_pos inside]

theorem number?_field {array : RecordArray} {start index place : Nat} {name field : String}
    (found : model.record? name = some (start, array)) (inside : index < array.size)
    (placed : array.fieldPlace? field = some place) :
    model.number? (.field name index field) = some (start + array.cellNumber index place) := by
  rw [number?, found, Option.bind_some, if_pos inside, placed, Option.map_some]

theorem BuiltFrom.schema?_eq_some_iff (built : model.BuiltFrom puzzle) {name : String}
    {schema : Schema} :
    puzzle.schema? name = some schema ↔ schema ∈ puzzle.schemas ∧ schema.name = name := by
  have distinct := (List.nodup_append.mp built.types_distinct).2.1
  rw [built.schemas] at distinct
  exact find?_eq_some_iff_mem Schema.name distinct

theorem BuiltFrom.domain?_eq_some_iff (built : model.BuiltFrom puzzle) {name : String}
    {domain : Domain} :
    puzzle.domain? name = some domain ↔ domain ∈ puzzle.domains ∧ domain.name = name := by
  have distinct := (List.nodup_append.mp built.types_distinct).1
  rw [built.domains] at distinct
  exact find?_eq_some_iff_mem Domain.name distinct

theorem BuiltFrom.schema?_eq_none_of_domain (built : model.BuiltFrom puzzle) {name : String}
    {domain : Domain} (found : puzzle.domain? name = some domain) :
    puzzle.schema? name = none := by
  cases other : puzzle.schema? name with
  | none => rfl
  | some schema =>
      obtain ⟨domainMember, rfl⟩ := built.domain?_eq_some_iff.mp found
      obtain ⟨schemaMember, same⟩ := built.schema?_eq_some_iff.mp other
      rw [← built.domains] at domainMember
      rw [← built.schemas] at schemaMember
      exact absurd same.symm ((List.nodup_append.mp built.types_distinct).2.2 _
        (List.mem_map_of_mem domainMember) _ (List.mem_map_of_mem schemaMember))

theorem BuiltFrom.record_eq (built : model.BuiltFrom puzzle) {start : Nat} {array : RecordArray}
    (member : (start, array) ∈ model.numberedRecords) :
    ∃ declaration ∈ puzzle.declarations, ∃ schema,
      puzzle.schema? declaration.type = some schema ∧
        array = puzzle.recordArray declaration schema := by
  have inRecords := exists_mem_numbered_iff.mp ⟨start, member⟩
  rw [built.records] at inRecords
  obtain ⟨declaration, declared, made⟩ := List.mem_filterMap.mp inRecords
  obtain ⟨schema, found, rfl⟩ := Option.map_eq_some_iff.mp made
  exact ⟨declaration, declared, schema, found, rfl⟩

theorem BuiltFrom.nodup_fieldNames (built : model.BuiltFrom puzzle) {start : Nat}
    {array : RecordArray} (member : (start, array) ∈ model.numberedRecords) :
    array.fields.names.Nodup := by
  obtain ⟨_, _, _, _, rfl⟩ := built.record_eq member
  exact Table.nodup_names_ofList _

/-- The record arrays of a built model are the declared ones. -/
theorem BuiltFrom.declaresRecords_iff (built : model.BuiltFrom puzzle) {name : String}
    {schema : Schema} {size : Nat} :
    puzzle.DeclaresRecords name schema size ↔
      ∃ start array, model.record? name = some (start, array) ∧ array.schema = schema ∧
        array.size = size := by
  constructor
  · rintro ⟨declaration, declared, rfl, rfl, member, typed⟩
    have found := built.schema?_eq_some_iff.mpr ⟨member, typed⟩
    have made : puzzle.recordArray declaration schema ∈ model.records := by
      rw [built.records]
      exact List.mem_filterMap.mpr ⟨declaration, declared, by
        rw [Puzzle.recordArray?, found, Option.map_some]⟩
    obtain ⟨start, numbered⟩ := exists_mem_numbered_iff.mpr made
    exact ⟨start, _, built.record?_eq_some_iff.mpr ⟨numbered, rfl⟩, rfl, rfl⟩
  · rintro ⟨start, array, found, rfl, rfl⟩
    obtain ⟨numbered, rfl⟩ := built.record?_eq_some_iff.mp found
    obtain ⟨declaration, declared, schema, schemaFound, rfl⟩ := built.record_eq numbered
    obtain ⟨member, typed⟩ := built.schema?_eq_some_iff.mp schemaFound
    exact ⟨declaration, declared, rfl, rfl, member, typed⟩

/-- The scalar arrays of a built model are the declared ones. -/
theorem BuiltFrom.declaresScalars_iff (built : model.BuiltFrom puzzle) {name : String}
    {domain : Domain} {size : Nat} :
    puzzle.DeclaresScalars name domain size ↔
      ∃ start array, model.scalar? name = some (start, array) ∧ array.cell.domain = domain ∧
        array.size = size := by
  constructor
  · rintro ⟨declaration, declared, rfl, rfl, member, typed⟩
    have found := built.domain?_eq_some_iff.mpr ⟨member, typed⟩
    have made : Puzzle.scalarArray declaration domain ∈ model.scalars := by
      rw [built.scalars]
      exact List.mem_filterMap.mpr ⟨declaration, declared, by
        rw [Puzzle.scalarArray?, built.schema?_eq_none_of_domain found]
        simp only [found, Option.map_some]⟩
    obtain ⟨start, numbered⟩ := exists_mem_numbered_iff.mpr made
    exact ⟨start, _, built.scalar?_eq_some_iff.mpr ⟨numbered, rfl⟩, rfl, rfl⟩
  · rintro ⟨start, array, found, rfl, rfl⟩
    obtain ⟨numbered, rfl⟩ := built.scalar?_eq_some_iff.mp found
    have inScalars := exists_mem_numbered_iff.mp ⟨start, numbered⟩
    rw [built.scalars] at inScalars
    obtain ⟨declaration, declared, made⟩ := List.mem_filterMap.mp inScalars
    rw [Puzzle.scalarArray?] at made
    split at made
    · cases made
    · obtain ⟨domain, domainFound, rfl⟩ := Option.map_eq_some_iff.mp made
      obtain ⟨member, typed⟩ := built.domain?_eq_some_iff.mp domainFound
      exact ⟨declaration, declared, rfl, rfl, member, typed⟩

/-! ## Fields -/

theorem find?_fields (puzzle : Puzzle) (declaration : Declaration) (schema : Schema)
    (name : String) :
    Table.find? name (puzzle.recordArray declaration schema).fields =
      (schema.entry? name).map fun entry => (puzzle.entryField entry).2 := by
  rw [Puzzle.recordArray, Table.find?_ofList, ← List.map_reverse, List.find?_map, Option.map_map,
    Schema.entry?]
  rfl

/-- A field of a record array stands at its place, over the domain of its last entry. -/
theorem BuiltFrom.field_of_place (built : model.BuiltFrom puzzle) {start place : Nat}
    {array : RecordArray} {name : String} (member : (start, array) ∈ model.numberedRecords)
    (found : array.fieldPlace? name = some place) :
    ∃ entry domain, array.schema.entry? name = some entry ∧
      puzzle.domain? entry.type = some domain ∧
        array.fields[place]?.map (·.2) = some ⟨entry.type, domain⟩ := by
  obtain ⟨declaration, declared, schema, schemaFound, rfl⟩ := built.record_eq member
  have value := Table.find?_eq_bind_idxOf? name (puzzle.recordArray declaration schema).fields
  rw [RecordArray.fieldPlace?] at found
  rw [found, Option.bind_some, find?_fields] at value
  have within := RecordArray.fieldPlace?_lt found
  rw [RecordArray.width] at within
  cases entered : schema.entry? name with
  | none =>
      rw [entered, List.getElem?_eq_getElem within] at value
      cases value
  | some entry =>
      have entryMember : entry ∈ schema.entries :=
        List.mem_reverse.mp (List.mem_of_find?_eq_some entered)
      obtain ⟨domain, domainFound⟩ := Option.isSome_iff_exists.mp
        (built.fields_typed declaration declared schema schemaFound entry entryMember)
      refine ⟨entry, domain, entered, domainFound, ?_⟩
      rw [← value, entered, Option.map_some, Puzzle.entryField, domainFound, Option.getD_some]

theorem BuiltFrom.exists_fieldPlace? (built : model.BuiltFrom puzzle) {start : Nat}
    {array : RecordArray} {name : String} {entry : Entry}
    (member : (start, array) ∈ model.numberedRecords)
    (entered : array.schema.entry? name = some entry) :
    ∃ place, array.fieldPlace? name = some place := by
  obtain ⟨declaration, _, schema, _, rfl⟩ := built.record_eq member
  have value := find?_fields puzzle declaration schema name
  change schema.entry? name = some entry at entered
  rw [entered, Table.find?_eq_bind_idxOf?] at value
  obtain ⟨place, found, _⟩ := Option.bind_eq_some_iff.mp value
  exact ⟨place, found⟩

/-! ## References -/

theorem selects_iff {index : Nat} :
    reference.Selects binding index ↔ elementIndex? binding reference = some (index : Int) := by
  unfold elementIndex?
  constructor
  · rintro (given | ⟨unselected, rfl⟩)
    · rw [given]
    · rw [unselected]
      simp
  · intro selected
    split at selected
    · next given =>
        rw [Option.some.inj selected] at given
        exact .explicit given
    · next bound given =>
        split at selected
        · next same =>
            apply Reference.Selects.bound given
            rw [← same, ← Option.some.inj selected]
        · cases selected
    · cases selected

theorem resolve_of_record {start : Nat} {array : RecordArray}
    (found : model.record? reference.name = some (start, array)) :
    model.resolve binding reference = model.resolveRecord start array binding reference := by
  rw [resolve, found]

theorem resolve_of_scalar {start : Nat} {array : ScalarArray}
    (absent : model.record? reference.name = none)
    (found : model.scalar? reference.name = some (start, array)) :
    model.resolve binding reference = model.resolveScalar start array reference := by
  rw [resolve, absent, found]

/-- A reference that stands for a slot resolves to the cell of the slot. -/
theorem BuiltFrom.resolve_of_denotes (built : model.BuiltFrom puzzle) {slot : Slot}
    {domain : Domain} (denotes : puzzle.Denotes binding reference slot domain) :
    ∃ cell, model.resolve binding reference = .ok cell ∧ model.number? slot = some cell ∧
      ∃ type, model.cells[cell]? = some ⟨type, domain⟩ := by
  cases denotes with
  | @element domain size index declared given inside =>
      obtain ⟨start, array, found, rfl, rfl⟩ := built.declaresScalars_iff.mp declared
      obtain ⟨member, _⟩ := built.scalar?_eq_some_iff.mp found
      refine ⟨start + index, ?_, ?_, array.cell.type, built.cells_of_scalar member inside⟩
      · rw [resolve_of_scalar (built.record?_eq_none_of_scalar found) found, resolveScalar, given]
        have within : ¬ (array.size : Int) ≤ (index : Int) := by omega
        simp only [if_neg within, fromStart?_natCast]
      · exact number?_element found inside
  | @field schema size index name entry domain declared selects inside named entered member typed =>
      obtain ⟨start, array, found, rfl, rfl⟩ := built.declaresRecords_iff.mp declared
      obtain ⟨numbered, _⟩ := built.record?_eq_some_iff.mp found
      obtain ⟨place, placeFound⟩ := built.exists_fieldPlace? numbered entered
      obtain ⟨_, other, sameEntry, otherFound, cell⟩ := built.field_of_place numbered placeFound
      rw [entered] at sameEntry
      cases sameEntry
      have domainFound := built.domain?_eq_some_iff.mpr ⟨member, typed⟩
      rw [domainFound] at otherFound
      cases otherFound
      refine ⟨start + array.cellNumber index place, ?_, ?_, entry.type, ?_⟩
      · rw [resolve_of_record found, resolveRecord, selects_iff.mp selects]
        have within : ¬ ((index : Int) < 0 ∨ (array.size : Int) ≤ (index : Int)) := by omega
        simp only [if_neg within, named, placeFound, Int.toNat_natCast]
      · exact number?_field found inside placeFound
      · rw [built.cells_of_record numbered inside (RecordArray.fieldPlace?_lt placeFound), cell]

/-- A reference to a record array that resolves stands for a field of an element. -/
theorem BuiltFrom.denotes_of_resolveRecord (built : model.BuiltFrom puzzle) {start cell : Nat}
    {array : RecordArray} (found : model.record? reference.name = some (start, array))
    (resolved : model.resolveRecord start array binding reference = .ok cell) :
    ∃ slot domain, puzzle.Denotes binding reference slot domain := by
  obtain ⟨numbered, _⟩ := built.record?_eq_some_iff.mp found
  have declared := built.declaresRecords_iff.mpr ⟨start, array, found, rfl, rfl⟩
  rw [resolveRecord] at resolved
  split at resolved
  · cases resolved
  · next index selected =>
      split at resolved
      · cases resolved
      · next within =>
          have lower : 0 ≤ index := by omega
          obtain ⟨natural, rfl⟩ := Int.eq_ofNat_of_zero_le lower
          have inside : natural < array.size := by omega
          split at resolved
          · cases resolved
          · next name named =>
              split at resolved
              · cases resolved
              · next place placeFound =>
                  obtain ⟨entry, domain, entered, domainFound, _⟩ :=
                    built.field_of_place numbered placeFound
                  obtain ⟨member, typed⟩ := built.domain?_eq_some_iff.mp domainFound
                  exact ⟨_, domain, .field declared (selects_iff.mpr selected) inside named
                    entered member typed⟩

/-- A reference to a scalar array that resolves stands for an element. -/
theorem BuiltFrom.denotes_of_resolveScalar (built : model.BuiltFrom puzzle)
    (nonnegative : reference.Nonnegative) {start cell : Nat} {array : ScalarArray}
    (found : model.scalar? reference.name = some (start, array))
    (resolved : model.resolveScalar start array reference = .ok cell) :
    ∃ slot domain, puzzle.Denotes binding reference slot domain := by
  have declared := built.declaresScalars_iff.mpr ⟨start, array, found, rfl, rfl⟩
  rw [resolveScalar] at resolved
  split at resolved
  · cases resolved
  · next index given =>
      obtain ⟨natural, rfl⟩ := Int.eq_ofNat_of_zero_le (nonnegative index given)
      split at resolved
      · cases resolved
      · next within =>
          have inside : natural < array.size := by omega
          exact ⟨_, _, .element declared given inside⟩

/-- A reference that resolves stands for a slot, if it does not count from an end. -/
theorem BuiltFrom.denotes_of_resolve (built : model.BuiltFrom puzzle)
    (nonnegative : reference.Nonnegative) {cell : Nat}
    (resolved : model.resolve binding reference = .ok cell) :
    ∃ slot domain, puzzle.Denotes binding reference slot domain := by
  cases found : model.record? reference.name with
  | some entry =>
      rcases entry with ⟨start, array⟩
      rw [resolve_of_record found] at resolved
      exact built.denotes_of_resolveRecord found resolved
  | none =>
      cases scalarFound : model.scalar? reference.name with
      | none =>
          rw [resolve, found, scalarFound] at resolved
          cases resolved
      | some entry =>
          rcases entry with ⟨start, array⟩
          rw [resolve_of_scalar found scalarFound] at resolved
          exact built.denotes_of_resolveScalar nonnegative scalarFound resolved

/-! ## References that name nothing -/

theorem unresolved_of_short {fault : ModelFault} (short : fault.hasLongNumber = false) :
    model.unresolved reference fault = .fault (model.placed fault reference.position) := by
  rw [unresolved, short, if_neg Bool.false_ne_true]

theorem unresolved_of_long {fault : ModelFault} (long : fault.hasLongNumber = true) :
    model.unresolved reference fault = .numeral := by
  rw [unresolved, long, if_pos rfl]

theorem unresolved_ne_outOfRange {fault : ModelFault} :
    model.unresolved reference fault ≠ .outOfRange := by
  rw [unresolved]
  split <;> nofun

theorem long_of_unresolved {fault : ModelFault}
    (ended : model.unresolved reference fault = .numeral) : fault.hasLongNumber = true := by
  by_contra short
  rw [unresolved, if_neg short] at ended
  cases ended

/-- An index that a reference gives, or that it takes from the binding, is outside of the array of
its name. -/
inductive Exceeds (model : Model) (binding : Option Binding) (reference : Reference)
    (index : Int) : Prop where
  | element {start : Nat} {array : ScalarArray} (unrecorded : model.record? reference.name = none)
      (found : model.scalar? reference.name = some (start, array))
      (given : reference.index? = some index) (beyond : array.size ≤ index)
  | field {start : Nat} {array : RecordArray}
      (found : model.record? reference.name = some (start, array))
      (selected : elementIndex? binding reference = some index)
      (outside : index < 0 ∨ array.size ≤ index)

/-- What a reference ends in whose index is outside of its array. -/
theorem Exceeds.resolve {index : Int} (exceeds : model.Exceeds binding reference index) :
    ∃ fault : ModelFault, fault.hasLongNumber = Numeral.tooLong index ∧
      model.resolve binding reference = .error (model.unresolved reference fault) := by
  cases exceeds with
  | element unrecorded found given beyond =>
      refine ⟨.badScalarElement index reference.name, rfl, ?_⟩
      rw [resolve_of_scalar unrecorded found, resolveScalar, given]
      exact if_pos beyond
  | field found selected outside =>
      refine ⟨.badElement index reference.name, rfl, ?_⟩
      rw [resolve_of_record found, resolveRecord, selected]
      exact if_pos outside

theorem resolve_ne_outOfRange (nonnegative : reference.Nonnegative) :
    model.resolve binding reference ≠ .error .outOfRange := by
  intro outside
  cases found : model.record? reference.name with
  | some entry =>
      rw [resolve_of_record found, resolveRecord] at outside
      repeat' split at outside
      all_goals first
        | exact absurd (Except.error.inj outside) unresolved_ne_outOfRange
        | cases outside
  | none =>
      cases scalarFound : model.scalar? reference.name with
      | none =>
          rw [resolve, found, scalarFound] at outside
          exact absurd (Except.error.inj outside) unresolved_ne_outOfRange
      | some entry =>
          rw [resolve_of_scalar found scalarFound, resolveScalar] at outside
          split at outside
          · exact absurd (Except.error.inj outside) unresolved_ne_outOfRange
          · next index given =>
              obtain ⟨natural, rfl⟩ := Int.eq_ofNat_of_zero_le (nonnegative index given)
              rw [fromStart?_natCast] at outside
              split at outside
              · exact absurd (Except.error.inj outside) unresolved_ne_outOfRange
              · cases outside

/-- Only an index that is outside of its array and too long breaks a fault off. -/
theorem exceeds_of_numeral (failed : model.resolve binding reference = .error .numeral) :
    ∃ index, model.Exceeds binding reference index ∧ Numeral.tooLong index = true := by
  cases found : model.record? reference.name with
  | some entry =>
      rw [resolve_of_record found, resolveRecord] at failed
      split at failed
      · cases long_of_unresolved (Except.error.inj failed)
      · next index selected =>
          split at failed
          · next outside =>
              exact ⟨index, .field found selected outside,
                long_of_unresolved (Except.error.inj failed)⟩
          · split at failed
            · cases long_of_unresolved (Except.error.inj failed)
            · split at failed
              · cases long_of_unresolved (Except.error.inj failed)
              · cases failed
  | none =>
      cases scalarFound : model.scalar? reference.name with
      | none =>
          rw [resolve, found, scalarFound] at failed
          cases long_of_unresolved (Except.error.inj failed)
      | some entry =>
          rw [resolve_of_scalar found scalarFound, resolveScalar] at failed
          split at failed
          · cases long_of_unresolved (Except.error.inj failed)
          · next index given =>
              split at failed
              · next beyond =>
                  exact ⟨index, .element found scalarFound given beyond,
                    long_of_unresolved (Except.error.inj failed)⟩
              · split at failed <;> cases failed

end Model

end LogicPuzzle
