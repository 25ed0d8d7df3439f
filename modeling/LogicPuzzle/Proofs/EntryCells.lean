import LogicPuzzle.Proofs.Addresses
import LogicPuzzle.Proofs.PeerOrder
import LogicPuzzle.Reader
import Mathlib.Data.List.Forall2

/-!
# The cells of an element

An element of a record array keeps its cells under the names of the entries of
its schema.  Entries of one name are therefore merged: they share the cell that
stands at the place of the first, ranges over the domain of the last, and has
peers when any of them is unique.  Each entry has a cell of its own exactly when
all names are different, which neither a text nor a build asks for.
-/

namespace LogicPuzzle

theorem eraseDups_of_nodup {names : List String} (distinct : names.Nodup) :
    names.eraseDups = names := by
  induction names with
  | nil => rfl
  | cons name names ih =>
      obtain ⟨fresh, others⟩ := List.nodup_cons.mp distinct
      have kept : names.filter (fun other => !other == name) = names :=
        List.filter_eq_self.mpr fun other member => by
          simpa using fun same : other = name => fresh (same ▸ member)
      rw [List.eraseDups_cons, kept, ih others]

namespace Schema

/-- All entries of one name in one: of the type of the last, and unique if any of them is. -/
def mergedEntry (schema : Schema) (field : String) : Entry where
  type := ((schema.entry? field).map (·.type)).getD ""
  name := field
  unique := schema.entries.any fun entry => entry.name == field && entry.unique

/-- The entries of a schema with those of one name merged into the first. -/
def merged (schema : Schema) : List Entry :=
  schema.fields.map schema.mergedEntry

variable {schema : Schema}

theorem unique_mergedEntry {field : String} :
    (schema.mergedEntry field).unique = true ↔ schema.IsUnique field := by
  simp only [mergedEntry, List.any_eq_true, Bool.and_eq_true, beq_iff_eq, IsUnique]

theorem fields_eq_fieldNames (distinct : schema.fieldNames.Nodup) :
    schema.fields = schema.fieldNames :=
  eraseDups_of_nodup distinct

/-- An entry is merged with nothing when all entries have different names. -/
theorem mergedEntry_eq_self (distinct : schema.fieldNames.Nodup) {entry : Entry}
    (member : entry ∈ schema.entries) : schema.mergedEntry entry.name = entry := by
  have only {other : Entry} (otherMember : other ∈ schema.entries)
      (same : other.name = entry.name) : other = entry :=
    List.inj_on_of_nodup_map distinct otherMember member same
  obtain ⟨found, entered⟩ := exists_entry? (List.mem_map_of_mem member)
  have foundMember := List.mem_reverse.mp (List.mem_of_find?_eq_some entered)
  have foundName : found.name = entry.name := by
    rw [Schema.entry?] at entered
    have same := List.find?_some entered
    rwa [beq_iff_eq] at same
  obtain rfl := only foundMember foundName
  have flag : (schema.mergedEntry found.name).unique = found.unique := by
    rw [Bool.eq_iff_iff, unique_mergedEntry]
    constructor
    · rintro ⟨other, otherMember, same, flagged⟩
      rwa [only otherMember same] at flagged
    · exact fun flagged => ⟨found, member, rfl, flagged⟩
  have type : (schema.mergedEntry found.name).type = found.type := by
    rw [mergedEntry, entered, Option.map_some, Option.getD_some]
  calc schema.mergedEntry found.name = ⟨found.type, found.name, found.unique⟩ := by
        rw [← type, ← flag]
        rfl
    _ = found := rfl

theorem merged_eq_entries (distinct : schema.fieldNames.Nodup) :
    schema.merged = schema.entries := by
  rw [merged, fields_eq_fieldNames distinct, fieldNames, List.map_map]
  exact (List.map_congr_left fun _ => mergedEntry_eq_self distinct).trans (List.map_id _)

end Schema

namespace RecordArray

def fieldCells (array : RecordArray) (start element : Nat) : Table Nat :=
  array.fields.names.mapIdx fun place field => (field, start + array.cellNumber element place)

theorem getElem?_fieldCells (array : RecordArray) (start element place : Nat) :
    (array.fieldCells start element)[place]? =
      array.fields.names[place]?.map fun field => (field, start + array.cellNumber element place) :=
  List.getElem?_mapIdx

theorem names_fieldCells (array : RecordArray) (start element : Nat) :
    (array.fieldCells start element).names = array.fields.names := by
  refine List.ext_getElem? fun place => ?_
  rw [Table.names, List.getElem?_map, getElem?_fieldCells, Option.map_map]
  exact Option.map_id' ..

/-- The cells of an element stand in a row. -/
theorem numbers_fieldCells (array : RecordArray) (start element : Nat) :
    (array.fieldCells start element).map (·.2) =
      List.range' (start + array.cellNumber element 0) array.width := by
  refine List.ext_getElem? fun place => ?_
  rw [List.getElem?_map, getElem?_fieldCells, Option.map_map]
  by_cases within : place < array.width
  · have named : place < array.fields.names.length := by rwa [Table.names, List.length_map]
    rw [List.getElem?_eq_getElem named, List.getElem?_range' within, Option.map_some,
      Function.comp_apply, cellNumber, cellNumber]
    congr 1
    omega
  · have unnamed : array.fields.names.length ≤ place := by
      rw [Table.names, List.length_map]
      exact Nat.le_of_not_lt within
    rw [List.getElem?_eq_none unnamed, List.getElem?_eq_none (by simpa using within)]
    rfl

end RecordArray

namespace Model

variable {model : Model} {puzzle : Puzzle}

def elementCells? (model : Model) (name : String) (element : Nat) : Option (Table Nat) :=
  (model.record? name).bind fun entry =>
    if element < entry.2.size then some (entry.2.fieldCells entry.1 element) else none

/-- A cell stands for an entry: under its name, over its domain, and without peers unless it is
unique. -/
structure StandsFor (model : Model) (puzzle : Puzzle) (entry : Entry) (cell : String × Nat) :
    Prop where
  named : cell.1 = entry.name
  ranges : ∃ domain, puzzle.domain? entry.type = some domain ∧
    model.cells[cell.2]? = some ⟨entry.type, domain⟩
  peered : model.peers.of cell.2 ≠ [] → entry.unique = true

def HasCellsFor (model : Model) (puzzle : Puzzle) (array : String) (element : Nat)
    (entries : List Entry) : Prop :=
  ∃ cells, model.elementCells? array element = some cells ∧ (cells.map (·.2)).Nodup ∧
    List.Forall₂ (model.StandsFor puzzle) entries cells

theorem names_of_standFor {entries : List Entry} {cells : Table Nat}
    (stand : List.Forall₂ (model.StandsFor puzzle) entries cells) :
    cells.names = entries.map (·.name) := by
  induction stand with
  | nil => rfl
  | cons first _ ih =>
      rw [Table.names] at ih
      rw [Table.names, List.map_cons, List.map_cons, first.named, ih]

section Built

variable (built : model.BuiltFrom puzzle)
include built

/-- The cell of a field stands for the merged entry of its name. -/
theorem BuiltFrom.standsFor_merged {array : RecordArray} {start element place : Nat}
    {field : String} (member : (start, array) ∈ model.numberedRecords)
    (inside : element < array.size) (placed : array.fieldPlace? field = some place) :
    model.StandsFor puzzle (array.schema.mergedEntry field)
      (field, start + array.cellNumber element place) := by
  have within := RecordArray.fieldPlace?_lt placed
  obtain ⟨entry, domain, entered, found, cell⟩ := built.field_of_place member placed
  have type : (array.schema.mergedEntry field).type = entry.type := by
    rw [Schema.mergedEntry, entered, Option.map_some, Option.getD_some]
  constructor
  case named => rfl
  case ranges =>
    rw [type]
    exact ⟨domain, found, (built.cells_of_record member inside within).trans cell⟩
  case peered =>
    intro joined
    refine Schema.unique_mergedEntry.mpr ((RecordArray.mem_uniquePlaces_iff placed).mp ?_)
    by_contra plain
    exact joined (built.peers_of_plain member inside within plain)

theorem BuiltFrom.names_eq_fields {array : RecordArray} {start : Nat}
    (member : (start, array) ∈ model.numberedRecords) :
    array.fields.names = array.schema.fields := by
  obtain ⟨declaration, _, schema, _, rfl⟩ := built.record_eq member
  exact names_recordArray puzzle declaration schema

theorem BuiltFrom.hasCellsFor_merged {name : String} {array : RecordArray} {start element : Nat}
    (found : model.record? name = some (start, array)) (inside : element < array.size) :
    model.HasCellsFor puzzle name element array.schema.merged := by
  obtain ⟨member, _⟩ := built.record?_eq_some_iff.mp found
  have names := built.names_eq_fields member
  refine ⟨array.fieldCells start element, ?_, ?_, List.forall₂_iff_get.mpr ⟨?_, ?_⟩⟩
  · rw [elementCells?, found, Option.bind_some, if_pos inside]
  · rw [RecordArray.numbers_fieldCells]
    exact List.nodup_range'
  · rw [Schema.merged, List.length_map, ← names, ← RecordArray.names_fieldCells, Table.names,
      List.length_map]
  · intro place inMerged inCells
    have inFields : place < array.schema.fields.length := by
      rwa [Schema.merged, List.length_map] at inMerged
    have atPlace : array.schema.fields[place]? = some array.schema.fields[place] :=
      List.getElem?_eq_getElem inFields
    have cell : (array.fieldCells start element)[place]? =
        some (array.schema.fields[place], start + array.cellNumber element place) := by
      rw [RecordArray.getElem?_fieldCells, names, atPlace, Option.map_some]
    have placed : array.fieldPlace? array.schema.fields[place] = some place :=
      idxOf?_eq_some_of_getElem? (built.nodup_fieldNames member) (by rw [names, atPlace])
    rw [List.get_eq_getElem, List.get_eq_getElem, (List.getElem?_eq_some_iff.mp cell).2]
    simp only [Schema.merged, List.getElem_map]
    exact built.standsFor_merged member inside placed

/-- The cell under a name is the one that references to the field resolve to. -/
theorem BuiltFrom.resolve_fieldCell {name field : String} {array : RecordArray}
    {start element cell : Nat} (found : model.record? name = some (start, array))
    (inside : element < array.size) (member : (field, cell) ∈ array.fieldCells start element) :
    model.resolve none (Slot.field name element field).reference = .ok cell := by
  obtain ⟨numbered, _⟩ := built.record?_eq_some_iff.mp found
  obtain ⟨place, atPlace⟩ := List.getElem?_of_mem member
  rw [RecordArray.getElem?_fieldCells] at atPlace
  obtain ⟨_, named, same⟩ := Option.map_eq_some_iff.mp atPlace
  cases same
  have placed := idxOf?_eq_some_of_getElem? (built.nodup_fieldNames numbered) named
  exact built.resolve_of_number (number?_field found inside placed)

/-- Every entry has a cell of its own exactly when all entries have different names. -/
theorem BuiltFrom.hasCellsFor_entries_iff {name : String} {array : RecordArray}
    {start element : Nat} (found : model.record? name = some (start, array))
    (inside : element < array.size) :
    model.HasCellsFor puzzle name element array.schema.entries ↔
      array.schema.fieldNames.Nodup := by
  constructor
  · rintro ⟨cells, sameCells, _, stand⟩
    rw [elementCells?, found, Option.bind_some, if_pos inside] at sameCells
    cases sameCells
    obtain ⟨member, _⟩ := built.record?_eq_some_iff.mp found
    have distinct := built.nodup_fieldNames member
    rw [← RecordArray.names_fieldCells array start element, names_of_standFor stand] at distinct
    exact distinct
  · intro distinct
    rw [← Schema.merged_eq_entries distinct]
    exact built.hasCellsFor_merged found inside

end Built

structure CellsOfEntries (model : Model) (puzzle : Puzzle) : Prop where
  own_iff : ∀ array schema size, puzzle.DeclaresRecords array schema size → ∀ element < size,
    (model.HasCellsFor puzzle array element schema.entries ↔ schema.fieldNames.Nodup)
  merged : ∀ array schema size, puzzle.DeclaresRecords array schema size → ∀ element < size,
    model.HasCellsFor puzzle array element schema.merged
  resolves : ∀ array element cells, model.elementCells? array element = some cells →
    ∀ field cell, (field, cell) ∈ cells →
      model.resolve none (Slot.field array element field).reference = .ok cell
  peered : ∀ cell, model.peers.of cell ≠ [] → ∃ array schema size element cells entry,
    puzzle.DeclaresRecords array schema size ∧ element < size ∧
      model.elementCells? array element = some cells ∧ (entry.name, cell) ∈ cells ∧
        entry ∈ schema.merged ∧ entry.unique = true

/-- In every element of a record array there is a cell for each merged entry of the schema, and
one for each entry exactly when their names are different.  Only unique ones have peers. -/
theorem cellsOfEntries_of_build (done : build puzzle = .ok model) :
    model.CellsOfEntries puzzle := by
  have built := builtFrom_of_build done
  constructor
  case own_iff =>
    intro name schema size declared element inside
    obtain ⟨start, array, found, rfl, rfl⟩ := built.declaresRecords_iff.mp declared
    exact built.hasCellsFor_entries_iff found inside
  case merged =>
    intro name schema size declared element inside
    obtain ⟨start, array, found, rfl, rfl⟩ := built.declaresRecords_iff.mp declared
    exact built.hasCellsFor_merged found inside
  case resolves =>
    intro name element cells isElement field cell member
    obtain ⟨⟨start, array⟩, found, counted⟩ := Option.bind_eq_some_iff.mp isElement
    obtain ⟨inside, same⟩ := Option.ite_none_right_eq_some.mp counted
    cases same
    exact built.resolve_fieldCell found inside member
  case peered =>
    intro cell joined
    -- Any peer at all shows the place of the cell to be a unique one.
    obtain ⟨other, isPeer⟩ := List.exists_mem_of_ne_nil _ joined
    obtain ⟨start, array, member, place, unique, first, _, inside, _, _, rfl, _⟩ :=
      built.mem_peers_iff.mp isPeer
    have found := built.record?_eq_some_iff.mpr ⟨member, rfl⟩
    obtain ⟨field, placed⟩ := built.exists_field member (RecordArray.lt_of_mem_uniquePlaces unique)
    obtain ⟨within, named, _⟩ := List.idxOf?_eq_some_iff.mp placed
    have atPlace : array.fields.names[place]? = some field :=
      List.getElem?_eq_some_iff.mpr ⟨within, named⟩
    refine ⟨array.name, array.schema, array.size, first, array.fieldCells start first,
      array.schema.mergedEntry field, built.declaresRecords_iff.mpr ⟨start, array, found, rfl, rfl⟩,
      inside, ?_, ?_, ?_, ?_⟩
    · rw [elementCells?, found, Option.bind_some, if_pos inside]
    · refine List.mem_of_getElem? (i := place) ?_
      rw [RecordArray.getElem?_fieldCells, atPlace, Option.map_some]
      rfl
    · refine List.mem_map_of_mem ?_
      rw [← built.names_eq_fields member]
      exact List.mem_of_getElem? atPlace
    · exact Schema.unique_mergedEntry.mpr ((RecordArray.mem_uniquePlaces_iff placed).mp unique)

def catText : String :=
  "Color = \x7bred, green\x7d\nSize = \x7bsmall, large, huge\x7d\n" ++
    "Cat = [unique Color coat, Size coat]\nvar Cats : Cat[2]\n"

def catSchema : Schema :=
  ⟨"Cat", [⟨"Color", "coat", true⟩, ⟨"Size", "coat", false⟩]⟩

def catPuzzle : Puzzle where
  file := some (Path.ofString "cats.grid")
  domains := [⟨"Color", ["red", "green"]⟩, ⟨"Size", ["small", "large", "huge"]⟩]
  schemas := [catSchema]
  declarations := [⟨"Cats", "Cat", some 2, ⟨4, 1⟩⟩]
  rules := []

def catModel : Model where
  file := some (Path.ofString "cats.grid")
  domains := catPuzzle.domains
  schemas := catPuzzle.schemas
  scalars := []
  records := [⟨"Cats", catSchema, [("coat", ⟨"Size", ⟨"Size", ["small", "large", "huge"]⟩⟩)], 2⟩]
  rules := []
  cells := List.replicate 2 ⟨"Size", ⟨"Size", ["small", "large", "huge"]⟩⟩
  peers := [[1], [0]]

/-- A cat has one coat: it is of some size, and all cats differ in it. -/
theorem cellsOfEntries_catText :
    readPuzzle (Path.ofString "cats.grid") catText = .ok (catPuzzle, []) ∧
      build catPuzzle = .ok catModel ∧
      ¬ catModel.HasCellsFor catPuzzle "Cats" 0 catSchema.entries ∧
      catModel.HasCellsFor catPuzzle "Cats" 0 [⟨"Size", "coat", true⟩] := by
  have read : readPuzzle (Path.ofString "cats.grid") catText = .ok (catPuzzle, []) := by
    decide +kernel
  have done : build catPuzzle = .ok catModel := by rfl
  have declared : catPuzzle.DeclaresRecords "Cats" catSchema 2 :=
    ⟨_, List.mem_singleton_self _, rfl, rfl, List.mem_singleton_self _, rfl⟩
  have cells := cellsOfEntries_of_build done
  refine ⟨read, done, fun own => ?_, cells.merged _ _ _ declared 0 (by decide)⟩
  have distinct := (cells.own_iff _ _ _ declared 0 (by decide)).mp own
  exact absurd distinct (by decide)

end Model

end LogicPuzzle
