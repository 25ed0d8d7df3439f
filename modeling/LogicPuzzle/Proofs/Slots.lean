import LogicPuzzle.Proofs.Resolution

/-!
# The slots of a puzzle

A puzzle has a slot for each element of a scalar array, and for each field of
each element of a record array.  The cells of a built model are the slots of its
puzzle: every slot has a number, no two have the same one, and every number of a
cell is that of a slot.
-/

namespace LogicPuzzle

def Slot.reference : Slot → Reference
  | .element array index => ⟨array, [.index index], ⟨0, 0⟩⟩
  | .field array index name => ⟨array, [.index index, .field name], ⟨0, 0⟩⟩

namespace Puzzle

variable {puzzle : Puzzle} {binding : Option Binding} {reference : Reference} {slot : Slot}
  {domain : Domain}

inductive Has (puzzle : Puzzle) : Slot → Domain → Prop where
  | element {array : String} {domain : Domain} {size index : Nat}
      (declared : puzzle.DeclaresScalars array domain size) (inside : index < size) :
      Has puzzle (.element array index) domain
  | field {array name : String} {schema : Schema} {size index : Nat} {entry : Entry}
      {domain : Domain} (declared : puzzle.DeclaresRecords array schema size)
      (inside : index < size) (entered : schema.entry? name = some entry)
      (member : domain ∈ puzzle.domains) (typed : domain.name = entry.type) :
      Has puzzle (.field array index name) domain

theorem Has.denotes (has : puzzle.Has slot domain) :
    puzzle.Denotes none slot.reference slot domain := by
  cases has with
  | element declared inside => exact Denotes.element declared rfl inside
  | field declared inside entered member typed =>
      exact Denotes.field declared (.explicit rfl) inside rfl entered member typed

theorem Denotes.has (denotes : puzzle.Denotes binding reference slot domain) :
    puzzle.Has slot domain := by
  cases denotes with
  | element declared given inside => exact .element declared inside
  | field declared selects inside named entered member typed =>
      exact .field declared inside entered member typed

end Puzzle

namespace Model

variable {model : Model} {puzzle : Puzzle} {slot other : Slot} {domain : Domain} {cell : Nat}

theorem number?_element_eq_some {name : String} {index : Nat}
    (numbered : model.number? (.element name index) = some cell) :
    ∃ start array, model.scalar? name = some (start, array) ∧ index < array.size ∧
      cell = start + index := by
  obtain ⟨⟨start, array⟩, found, counted⟩ := Option.bind_eq_some_iff.mp numbered
  obtain ⟨inside, same⟩ := Option.ite_none_right_eq_some.mp counted
  exact ⟨start, array, found, inside, (Option.some.inj same).symm⟩

theorem number?_field_eq_some {name field : String} {index : Nat}
    (numbered : model.number? (.field name index field) = some cell) :
    ∃ start array place, model.record? name = some (start, array) ∧ index < array.size ∧
      array.fieldPlace? field = some place ∧ cell = start + array.cellNumber index place := by
  obtain ⟨⟨start, array⟩, found, counted⟩ := Option.bind_eq_some_iff.mp numbered
  obtain ⟨inside, counted⟩ := Option.ite_none_right_eq_some.mp counted
  obtain ⟨place, placed, same⟩ := Option.map_eq_some_iff.mp counted
  exact ⟨start, array, place, found, inside, placed, same.symm⟩

section Built

variable (built : model.BuiltFrom puzzle)
include built

/-- A slot has the number of the cell that it names, which is over its domain. -/
theorem BuiltFrom.exists_number (has : puzzle.Has slot domain) :
    ∃ cell, model.resolve none slot.reference = .ok cell ∧ model.number? slot = some cell ∧
      ∃ type, model.cells[cell]? = some ⟨type, domain⟩ :=
  built.resolve_of_denotes has.denotes

theorem BuiltFrom.has_of_number (numbered : model.number? slot = some cell) :
    ∃ domain, puzzle.Has slot domain := by
  cases slot with
  | element name index =>
      obtain ⟨start, array, found, inside, _⟩ := number?_element_eq_some numbered
      exact ⟨_, .element (built.declaresScalars_iff.mpr ⟨start, array, found, rfl, rfl⟩) inside⟩
  | field name index field =>
      obtain ⟨start, array, place, found, inside, placed, _⟩ := number?_field_eq_some numbered
      have declared := built.declaresRecords_iff.mpr ⟨start, array, found, rfl, rfl⟩
      obtain ⟨member, _⟩ := built.record?_eq_some_iff.mp found
      obtain ⟨entry, domain, entered, domainFound, _⟩ := built.field_of_place member placed
      obtain ⟨domainMember, typed⟩ := built.domain?_eq_some_iff.mp domainFound
      exact ⟨domain, .field declared inside entered domainMember typed⟩

/-- The number of a slot is that of a cell over its domain. -/
theorem BuiltFrom.cell_of_number (has : puzzle.Has slot domain)
    (numbered : model.number? slot = some cell) :
    ∃ type, model.cells[cell]? = some ⟨type, domain⟩ := by
  obtain ⟨found, _, sameNumber, inCells⟩ := built.exists_number has
  rw [numbered] at sameNumber
  cases sameNumber
  exact inCells

theorem BuiltFrom.number_lt (numbered : model.number? slot = some cell) :
    cell < model.cells.length := by
  obtain ⟨domain, has⟩ := built.has_of_number numbered
  obtain ⟨type, found⟩ := built.cell_of_number has numbered
  exact (List.getElem?_eq_some_iff.mp found).1

theorem BuiltFrom.number?_of_resolve (has : puzzle.Has slot domain)
    (resolved : model.resolve none slot.reference = .ok cell) :
    model.number? slot = some cell := by
  obtain ⟨found, sameResolved, numbered, _⟩ := built.exists_number has
  rw [resolved] at sameResolved
  cases sameResolved
  exact numbered

theorem BuiltFrom.resolve_of_number (numbered : model.number? slot = some cell) :
    model.resolve none slot.reference = .ok cell := by
  obtain ⟨domain, has⟩ := built.has_of_number numbered
  obtain ⟨found, resolved, sameNumber, _⟩ := built.exists_number has
  rw [numbered] at sameNumber
  cases sameNumber
  exact resolved

/-! ## Every number is that of one slot -/

/-- Every place among the fields is that of a name. -/
theorem BuiltFrom.exists_field {start place : Nat} {array : RecordArray}
    (member : (start, array) ∈ model.numberedRecords) (within : place < array.width) :
    ∃ field, array.fieldPlace? field = some place := by
  have inside : place < array.fields.names.length := by
    rwa [Table.names, List.length_map]
  exact ⟨_, idxOf?_eq_some_of_getElem? (built.nodup_fieldNames member)
    (List.getElem?_eq_getElem inside)⟩

/-- Every cell of a record array is that of a field of an element. -/
theorem BuiltFrom.exists_cellNumber {start offset : Nat} {array : RecordArray}
    (member : (start, array) ∈ model.numberedRecords) (inside : offset < array.extent) :
    ∃ index field place, index < array.size ∧ array.fieldPlace? field = some place ∧
      array.cellNumber index place = offset := by
  have width : 0 < array.width := Nat.pos_of_mul_pos_left (Nat.zero_lt_of_lt inside)
  obtain ⟨field, placed⟩ := built.exists_field member (Nat.mod_lt offset width)
  exact ⟨offset / array.width, field, _,
    Nat.div_lt_of_lt_mul (Nat.mul_comm array.size _ ▸ inside), placed, Nat.div_add_mod' ..⟩

theorem BuiltFrom.exists_slot (below : cell < model.cells.length) :
    ∃ slot, model.number? slot = some cell := by
  rw [built.length_cells] at below
  by_cases scalar : cell < model.scalarCount
  · have within : cell < 0 + model.scalarCount := by omega
    obtain ⟨⟨start, array⟩, member, index, inside, rfl⟩ :=
      exists_mem_numbered (Nat.zero_le cell) within
    exact ⟨_, number?_element (built.scalar?_eq_some_iff.mpr ⟨member, rfl⟩) inside⟩
  · obtain ⟨⟨start, array⟩, member, offset, inside, rfl⟩ :=
      exists_mem_numbered (Nat.le_of_not_lt scalar) below
    obtain ⟨index, field, place, within, placed, rfl⟩ := built.exists_cellNumber member inside
    exact ⟨_, number?_field (built.record?_eq_some_iff.mpr ⟨member, rfl⟩) within placed⟩

/-- Elements of scalar arrays with one number are the same. -/
theorem BuiltFrom.element_eq_of_number {first second : String} {index place : Nat}
    (firstNumbered : model.number? (.element first index) = some cell)
    (secondNumbered : model.number? (.element second place) = some cell) :
    first = second ∧ index = place := by
  obtain ⟨start, array, found, inside, rfl⟩ := number?_element_eq_some firstNumbered
  obtain ⟨_, _, otherFound, otherInside, same⟩ := number?_element_eq_some secondNumbered
  obtain ⟨member, rfl⟩ := built.scalar?_eq_some_iff.mp found
  obtain ⟨otherMember, rfl⟩ := built.scalar?_eq_some_iff.mp otherFound
  obtain ⟨entry, offset⟩ := eq_of_mem_numbered member otherMember inside otherInside same
  exact ⟨congrArg (fun entry => entry.2.name) entry, offset⟩

/-- Fields of record arrays with one number are the same. -/
theorem BuiltFrom.field_eq_of_number {first second field name : String} {index element : Nat}
    (firstNumbered : model.number? (.field first index field) = some cell)
    (secondNumbered : model.number? (.field second element name) = some cell) :
    first = second ∧ index = element ∧ field = name := by
  obtain ⟨start, array, place, found, inside, placed, rfl⟩ := number?_field_eq_some firstNumbered
  obtain ⟨_, _, otherPlace, otherFound, otherInside, otherPlaced, same⟩ :=
    number?_field_eq_some secondNumbered
  obtain ⟨member, rfl⟩ := built.record?_eq_some_iff.mp found
  obtain ⟨otherMember, rfl⟩ := built.record?_eq_some_iff.mp otherFound
  have within := RecordArray.fieldPlace?_lt placed
  have otherWithin := RecordArray.fieldPlace?_lt otherPlaced
  obtain ⟨entry, offset⟩ := eq_of_mem_numbered member otherMember
    (RecordArray.cellNumber_lt inside within) (RecordArray.cellNumber_lt otherInside otherWithin)
    same
  cases entry
  obtain ⟨rfl, rfl⟩ := RecordArray.eq_of_cellNumber_eq within otherWithin offset
  obtain ⟨_, rfl, _⟩ := List.idxOf?_eq_some_iff.mp placed
  obtain ⟨_, rfl, _⟩ := List.idxOf?_eq_some_iff.mp otherPlaced
  exact ⟨rfl, rfl, rfl⟩

/-- The number of an element of a scalar array is below those of all fields. -/
theorem BuiltFrom.element_lt_field {first second field : String} {index element other : Nat}
    (elementNumbered : model.number? (.element first index) = some cell)
    (fieldNumbered : model.number? (.field second element field) = some other) : cell < other := by
  obtain ⟨start, array, found, inside, rfl⟩ := number?_element_eq_some elementNumbered
  obtain ⟨_, _, _, otherFound, otherInside, placed, rfl⟩ := number?_field_eq_some fieldNumbered
  obtain ⟨member, _⟩ := built.scalar?_eq_some_iff.mp found
  obtain ⟨otherMember, _⟩ := built.record?_eq_some_iff.mp otherFound
  have below := number_lt_of_scalar member inside
  have bounds := number_bounds_of_record otherMember
    (RecordArray.cellNumber_lt otherInside (RecordArray.fieldPlace?_lt placed))
  omega

/-- No two slots have the same number. -/
theorem BuiltFrom.number?_injective (numbered : model.number? slot = some cell)
    (otherNumbered : model.number? other = some cell) : slot = other := by
  cases slot with
  | element name index =>
      cases other with
      | element second place =>
          obtain ⟨rfl, rfl⟩ := built.element_eq_of_number numbered otherNumbered
          rfl
      | field second element field =>
          exact absurd (built.element_lt_field numbered otherNumbered) (Nat.lt_irrefl cell)
  | field name index field =>
      cases other with
      | element second place =>
          exact absurd (built.element_lt_field otherNumbered numbered) (Nat.lt_irrefl cell)
      | field second element other =>
          obtain ⟨rfl, rfl, rfl⟩ := built.field_eq_of_number numbered otherNumbered
          rfl

end Built

end Model

end LogicPuzzle
