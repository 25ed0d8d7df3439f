import LogicPuzzle.Proofs.Satisfaction
import LogicPuzzle.Proofs.Slots
import Mathlib.Algebra.BigOperators.Group.List.Basic
import Mathlib.Algebra.GroupWithZero.Nat

/-!
# Where the cells of a puzzle stand

The scalar arrays come first and the record arrays behind them, both in order of
declaration.  So the number of a slot is the extent of all that is declared
ahead of its array, plus its place in the array, and the size of the search
space is a product over the declarations.
-/

namespace LogicPuzzle

/-- The fields of a schema: the names of its entries in the order in which they first occur. -/
def Schema.fields (schema : Schema) : List String :=
  schema.fieldNames.eraseDups

namespace Puzzle

/-- How many cells a declaration over a domain makes: one for each element. -/
def scalarExtent (puzzle : Puzzle) (declaration : Declaration) : Nat :=
  (puzzle.domain? declaration.type).elim 0 fun _ => declaration.length

/-- How many cells a declaration over a schema makes: one for each field of each element. -/
def recordExtent (puzzle : Puzzle) (declaration : Declaration) : Nat :=
  (puzzle.schema? declaration.type).elim 0 fun schema =>
    declaration.length * schema.fields.length

/-- How many labels a field can take: those of the domain of the last entry of its name. -/
def fieldChoices (puzzle : Puzzle) (schema : Schema) (field : String) : Nat :=
  ((schema.entry? field).bind fun entry => puzzle.domain? entry.type).elim 0 fun domain =>
    domain.labels.length

def scalarChoices (puzzle : Puzzle) (declaration : Declaration) : Nat :=
  (puzzle.domain? declaration.type).elim 1 fun domain =>
    domain.labels.length ^ declaration.length

def recordChoices (puzzle : Puzzle) (declaration : Declaration) : Nat :=
  (puzzle.schema? declaration.type).elim 1 fun schema =>
    (schema.fields.map (puzzle.fieldChoices schema)).prod ^ declaration.length

/-- The number of the first cell of a scalar array that is declared behind others. -/
def scalarStart (puzzle : Puzzle) (before : List Declaration) : Nat :=
  (before.map puzzle.scalarExtent).sum

/-- The number of the first cell of a record array that is declared behind others. -/
def recordStart (puzzle : Puzzle) (before : List Declaration) : Nat :=
  (puzzle.declarations.map puzzle.scalarExtent).sum + (before.map puzzle.recordExtent).sum

end Puzzle

/-- What is folded over the results of a partial function can be folded over its arguments. -/
theorem foldr_map_filterMap {α β γ : Type} {join : γ → γ → γ} {unit : γ}
    (neutral : ∀ value, join unit value = value) (make : α → Option β) (weigh : β → γ)
    (elements : List α) :
    ((elements.filterMap make).map weigh).foldr join unit =
      (elements.map fun element => (make element).elim unit weigh).foldr join unit := by
  induction elements with
  | nil => rfl
  | cons element rest ih =>
      rw [List.filterMap_cons, List.map_cons, List.foldr_cons, ← ih]
      cases make element with
      | none => exact (neutral _).symm
      | some made => rfl

namespace Model

variable {model : Model} {puzzle : Puzzle}

/-! ## Numbers of arrays -/

/-- The number of an array is the extent of those ahead of it. -/
theorem mem_numbered_behind {α : Type} (extent : α → Nat) (start : Nat) (before : List α)
    (array : α) (after : List α) :
    (start + totalExtent extent before, array) ∈
      numbered extent start (before ++ array :: after) := by
  rw [numbered_append]
  exact List.mem_append_right _ List.mem_cons_self

theorem totalExtent_filterMap {α β : Type} (extent : β → Nat) (make : α → Option β)
    (elements : List α) :
    totalExtent extent (elements.filterMap make) =
      (elements.map fun element => (make element).elim 0 extent).sum := by
  rw [List.sum_eq_foldr, ← foldr_map_filterMap Nat.zero_add, List.foldr_map]
  rfl

theorem names_recordArray (puzzle : Puzzle) (declaration : Declaration) (schema : Schema) :
    (puzzle.recordArray declaration schema).fields.names = schema.fields := by
  rw [Puzzle.recordArray, Table.names_ofList, List.map_map]
  rfl

theorem width_recordArray (puzzle : Puzzle) (declaration : Declaration) (schema : Schema) :
    (puzzle.recordArray declaration schema).width = schema.fields.length := by
  rw [← names_recordArray puzzle declaration, Table.names, List.length_map, RecordArray.width]

theorem totalExtent_records (puzzle : Puzzle) (declarations : List Declaration) :
    totalExtent RecordArray.extent (declarations.filterMap puzzle.recordArray?) =
      (declarations.map puzzle.recordExtent).sum := by
  rw [totalExtent_filterMap]
  congr 2
  funext declaration
  rw [Puzzle.recordArray?, Puzzle.recordExtent]
  cases puzzle.schema? declaration.type with
  | none => rfl
  | some schema =>
      rw [Option.map_some, Option.elim_some, Option.elim_some, RecordArray.extent,
        width_recordArray]
      rfl

/-! ## Numbers of assignments -/

theorem span_eq_prod (cells : List Cell) : Odometer.span cells = (cells.map Cell.size).prod := by
  rw [Odometer.span, List.prod_eq_foldr, List.foldr_map]

theorem span_flatMap {α : Type} (piece : α → List Cell) (arrays : List α) :
    Odometer.span (arrays.flatMap piece) =
      (arrays.map fun array => Odometer.span (piece array)).prod := by
  rw [span_eq_prod, List.map_flatMap, List.flatMap_def, List.prod_flatten, List.map_map]
  congr 2
  funext array
  exact (span_eq_prod _).symm

theorem span_scalarArray (declaration : Declaration) (domain : Domain) :
    Odometer.span (Puzzle.scalarArray declaration domain).cells =
      domain.labels.length ^ declaration.length := by
  rw [span_eq_prod, ScalarArray.cells, List.map_replicate, List.prod_replicate]
  rfl

/-- A field has as many labels as the domain of its last entry. -/
theorem size_of_field {declaration : Declaration} {schema : Schema} {field : String × Cell}
    (member : field ∈ (puzzle.recordArray declaration schema).fields)
    (typed : ∀ entry ∈ schema.entries, (puzzle.domain? entry.type).isSome) :
    field.2.size = puzzle.fieldChoices schema field.1 := by
  have value := find?_fields puzzle declaration schema field.1
  have found : Table.find? field.1 (puzzle.recordArray declaration schema).fields = some field.2 :=
    Table.find?_eq_some_of_mem (Table.nodup_names_ofList _) member
  rw [found] at value
  obtain ⟨entry, entered, same⟩ := Option.map_eq_some_iff.mp value.symm
  have entryMember := List.mem_reverse.mp (List.mem_of_find?_eq_some entered)
  obtain ⟨domain, typeFound⟩ := Option.isSome_iff_exists.mp (typed entry entryMember)
  rw [Puzzle.fieldChoices, entered, Option.bind_some, typeFound, ← same, Puzzle.entryField,
    typeFound]
  rfl

theorem span_recordArray {declaration : Declaration} {schema : Schema}
    (typed : ∀ entry ∈ schema.entries, (puzzle.domain? entry.type).isSome) :
    Odometer.span (puzzle.recordArray declaration schema).cells =
      (schema.fields.map (puzzle.fieldChoices schema)).prod ^ declaration.length := by
  rw [span_eq_prod, RecordArray.cells, List.map_flatten, List.map_replicate, List.prod_flatten,
    List.map_replicate, List.prod_replicate, List.map_map, ← names_recordArray puzzle declaration,
    Table.names, List.map_map]
  congr 2
  exact List.map_congr_left fun field member => size_of_field member typed

/-! ## Built models -/

section Built

variable (built : model.BuiltFrom puzzle)
include built

theorem BuiltFrom.scalarArray?_eq (declaration : Declaration) :
    puzzle.scalarArray? declaration =
      (puzzle.domain? declaration.type).map (Puzzle.scalarArray declaration) := by
  rw [Puzzle.scalarArray?]
  cases found : puzzle.domain? declaration.type with
  | none => split <;> rfl
  | some domain => rw [built.schema?_eq_none_of_domain found]

theorem BuiltFrom.totalExtent_scalars (declarations : List Declaration) :
    totalExtent ScalarArray.size (declarations.filterMap puzzle.scalarArray?) =
      (declarations.map puzzle.scalarExtent).sum := by
  rw [totalExtent_filterMap]
  congr 2
  funext declaration
  rw [built.scalarArray?_eq, Puzzle.scalarExtent]
  cases puzzle.domain? declaration.type <;> rfl

theorem BuiltFrom.scalarCount_eq :
    model.scalarCount = (puzzle.declarations.map puzzle.scalarExtent).sum := by
  rw [← built.totalExtent_scalars, ← built.scalars]
  rfl

theorem BuiltFrom.recordCount_eq :
    model.recordCount = (puzzle.declarations.map puzzle.recordExtent).sum := by
  rw [← totalExtent_records, ← built.records]
  rfl

section Declared

variable {before after : List Declaration} {declaration : Declaration}
  (declared : puzzle.declarations = before ++ declaration :: after)
include declared

/-- A scalar array stands behind those that are declared ahead of it. -/
theorem BuiltFrom.mem_numberedScalars {domain : Domain}
    (found : puzzle.domain? declaration.type = some domain) :
    (puzzle.scalarStart before, Puzzle.scalarArray declaration domain) ∈
      model.numberedScalars := by
  have array : puzzle.scalarArray? declaration = some (Puzzle.scalarArray declaration domain) := by
    rw [built.scalarArray?_eq, found, Option.map_some]
  have member := mem_numbered_behind ScalarArray.size 0
    (before.filterMap puzzle.scalarArray?) (Puzzle.scalarArray declaration domain)
    (after.filterMap puzzle.scalarArray?)
  rw [Nat.zero_add, built.totalExtent_scalars] at member
  rw [numberedScalars, built.scalars, declared, List.filterMap_append, List.filterMap_cons, array]
  exact member

/-- A record array stands behind all scalar arrays and the record arrays that are declared ahead
of it. -/
theorem BuiltFrom.mem_numberedRecords {schema : Schema}
    (found : puzzle.schema? declaration.type = some schema) :
    (puzzle.recordStart before, puzzle.recordArray declaration schema) ∈
      model.numberedRecords := by
  have array : puzzle.recordArray? declaration = some (puzzle.recordArray declaration schema) := by
    rw [Puzzle.recordArray?, found, Option.map_some]
  have member := mem_numbered_behind RecordArray.extent model.scalarCount
    (before.filterMap puzzle.recordArray?) (puzzle.recordArray declaration schema)
    (after.filterMap puzzle.recordArray?)
  rw [totalExtent_records, built.scalarCount_eq] at member
  rw [numberedRecords, built.records, built.scalarCount_eq, declared, List.filterMap_append,
    List.filterMap_cons, array, ← declared]
  exact member

end Declared

theorem BuiltFrom.searchSpace_eq :
    model.searchSpace = (puzzle.declarations.map puzzle.scalarChoices).prod *
      (puzzle.declarations.map puzzle.recordChoices).prod := by
  have space : model.searchSpace = Odometer.span model.cells := rfl
  rw [space, built.cells, allCells, Odometer.span_append, span_flatMap, span_flatMap,
    built.scalars, built.records]
  congr 1
  · rw [List.prod_eq_foldr, foldr_map_filterMap Nat.one_mul, ← List.prod_eq_foldr]
    congr 2
    funext declaration
    rw [built.scalarArray?_eq, Puzzle.scalarChoices]
    cases puzzle.domain? declaration.type with
    | none => rfl
    | some domain => exact span_scalarArray declaration domain
  · rw [List.prod_eq_foldr, foldr_map_filterMap Nat.one_mul, ← List.prod_eq_foldr]
    congr 1
    refine List.map_congr_left fun declaration member => ?_
    rw [Puzzle.recordArray?, Puzzle.recordChoices]
    cases found : puzzle.schema? declaration.type with
    | none => rfl
    | some schema =>
        exact span_recordArray (built.fields_typed declaration member schema found)

section Declared

variable {before after : List Declaration} {declaration : Declaration}
  (declared : puzzle.declarations = before ++ declaration :: after)
include declared

/-- The elements of a scalar array stand in order. -/
theorem BuiltFrom.number?_of_scalar {domain : Domain} {index : Nat}
    (found : puzzle.domain? declaration.type = some domain) (inside : index < declaration.length) :
    model.number? (.element declaration.name index) =
      some (puzzle.scalarStart before + index) := by
  have member := built.mem_numberedScalars declared found
  exact number?_element (built.scalar?_eq_some_iff.mpr ⟨member, rfl⟩) inside

/-- The fields of the elements of a record array stand element by element, in order. -/
theorem BuiltFrom.number?_of_record {schema : Schema} {field : String} {index place : Nat}
    (found : puzzle.schema? declaration.type = some schema) (inside : index < declaration.length)
    (placed : schema.fields[place]? = some field) :
    (puzzle.recordArray declaration schema).fieldPlace? field = some place ∧
      model.number? (.field declaration.name index field) =
        some (puzzle.recordStart before + index * schema.fields.length + place) := by
  have member := built.mem_numberedRecords declared found
  have atPlace : (puzzle.recordArray declaration schema).fieldPlace? field = some place := by
    refine idxOf?_eq_some_of_getElem? (built.nodup_fieldNames member) ?_
    rw [names_recordArray, placed]
  have numbered := number?_field (built.record?_eq_some_iff.mpr ⟨member, rfl⟩) inside atPlace
  rw [RecordArray.cellNumber, width_recordArray, ← Nat.add_assoc] at numbered
  exact ⟨atPlace, numbered⟩

end Declared

end Built

/-- The cells of a model are the slots of its puzzle, each once: the elements of the scalar arrays
in order of declaration, and behind them the fields of the elements of the record arrays. -/
structure LaidOut (model : Model) (puzzle : Puzzle) : Prop where
  length : model.cells.length = (puzzle.declarations.map puzzle.scalarExtent).sum +
    (puzzle.declarations.map puzzle.recordExtent).sum
  scalar : ∀ before declaration after, puzzle.declarations = before ++ declaration :: after →
    ∀ domain, puzzle.domain? declaration.type = some domain → ∀ index < declaration.length,
      model.resolve none (Slot.element declaration.name index).reference =
          .ok (puzzle.scalarStart before + index) ∧
        model.cells[puzzle.scalarStart before + index]? = some ⟨declaration.type, domain⟩
  record : ∀ before declaration after, puzzle.declarations = before ++ declaration :: after →
    ∀ schema, puzzle.schema? declaration.type = some schema → ∀ index < declaration.length,
      ∀ place field, schema.fields[place]? = some field →
        let number := puzzle.recordStart before + index * schema.fields.length + place
        model.resolve none (Slot.field declaration.name index field).reference = .ok number ∧
          ∃ entry domain, schema.entry? field = some entry ∧
            puzzle.domain? entry.type = some domain ∧
              model.cells[number]? = some ⟨entry.type, domain⟩
  every : ∀ slot domain, puzzle.Has slot domain →
    ∃ number < model.cells.length, model.resolve none slot.reference = .ok number
  once : ∀ number < model.cells.length,
    ∃! slot, (∃ domain, puzzle.Has slot domain) ∧ model.resolve none slot.reference = .ok number
  searchSpace : model.searchSpace = (puzzle.declarations.map puzzle.scalarChoices).prod *
    (puzzle.declarations.map puzzle.recordChoices).prod
  inhabited : 1 ≤ model.searchSpace

/-- A built model has the slots of its puzzle at the places that the declarations give them. -/
theorem laidOut_of_build (done : build puzzle = .ok model) : model.LaidOut puzzle := by
  have built := builtFrom_of_build done
  constructor
  case length =>
    rw [built.length_cells, built.scalarCount_eq, built.recordCount_eq]
  case scalar =>
    intro before declaration after declared domain found index inside
    have member := built.mem_numberedScalars declared found
    exact ⟨built.resolve_of_number (built.number?_of_scalar declared found inside),
      built.cells_of_scalar member inside⟩
  case record =>
    intro before declaration after declared schema found index inside place field placed
    have member := built.mem_numberedRecords declared found
    obtain ⟨atPlace, numbered⟩ := built.number?_of_record declared found inside placed
    obtain ⟨entry, domain, entered, typed, cell⟩ := built.field_of_place member atPlace
    refine ⟨built.resolve_of_number numbered, entry, domain, entered, typed, ?_⟩
    have atNumber := built.cells_of_record member inside (RecordArray.fieldPlace?_lt atPlace)
    rwa [cell, RecordArray.cellNumber, width_recordArray, ← Nat.add_assoc] at atNumber
  case every =>
    intro slot domain has
    obtain ⟨number, resolved, numbered, _⟩ := built.exists_number has
    exact ⟨number, built.number_lt numbered, resolved⟩
  case once =>
    intro number below
    obtain ⟨slot, numbered⟩ := built.exists_slot below
    refine ⟨slot, ⟨built.has_of_number numbered, built.resolve_of_number numbered⟩, ?_⟩
    rintro other ⟨⟨domain, has⟩, resolved⟩
    exact built.number?_injective (built.number?_of_resolve has resolved) numbered
  case searchSpace => exact built.searchSpace_eq
  case inhabited => exact Odometer.span_pos built.cell_size_pos

/-- A hotel whose rooms are declared between keys and bells, with a cellar of no rooms.  The bed
of a room is entered twice. -/
def hotelPuzzle : Puzzle where
  file := none
  domains := [⟨"Metal", ["iron", "brass"]⟩, ⟨"Bed", ["single", "double", "bunk"]⟩]
  schemas := [⟨"Room", [⟨"Metal", "bed", false⟩, ⟨"Metal", "lamp", true⟩, ⟨"Bed", "bed", false⟩]⟩]
  declarations := [⟨"Keys", "Metal", some 2, ⟨0, 0⟩⟩, ⟨"Cellar", "Room", some 0, ⟨0, 0⟩⟩,
    ⟨"Rooms", "Room", some 2, ⟨0, 0⟩⟩, ⟨"Bell", "Metal", none, ⟨0, 0⟩⟩]
  rules := []

def roomArray (name : String) (size : Nat) : RecordArray where
  name := name
  schema := ⟨"Room", [⟨"Metal", "bed", false⟩, ⟨"Metal", "lamp", true⟩, ⟨"Bed", "bed", false⟩]⟩
  fields := [("bed", ⟨"Bed", ⟨"Bed", ["single", "double", "bunk"]⟩⟩),
    ("lamp", ⟨"Metal", ⟨"Metal", ["iron", "brass"]⟩⟩)]
  size := size

def hotelModel : Model where
  file := none
  domains := hotelPuzzle.domains
  schemas := hotelPuzzle.schemas
  scalars := [⟨"Keys", ⟨"Metal", ⟨"Metal", ["iron", "brass"]⟩⟩, 2⟩,
    ⟨"Bell", ⟨"Metal", ⟨"Metal", ["iron", "brass"]⟩⟩, 1⟩]
  records := [roomArray "Cellar" 0, roomArray "Rooms" 2]
  rules := []
  cells := List.replicate 3 ⟨"Metal", ⟨"Metal", ["iron", "brass"]⟩⟩ ++ (roomArray "Rooms" 2).cells
  peers := [[], [], [], [], [6], [], [4]]

theorem laidOut_hotelModel :
    build hotelPuzzle = .ok hotelModel ∧ hotelModel.LaidOut hotelPuzzle := by
  have done : build hotelPuzzle = .ok hotelModel := by rfl
  exact ⟨done, laidOut_of_build done⟩

/-- The bell stands behind the keys, and the rooms behind the bell. -/
example : hotelPuzzle.scalarStart (hotelPuzzle.declarations.take 3) = 2 ∧
    hotelPuzzle.recordStart (hotelPuzzle.declarations.take 2) = 3 := by decide

end Model

end LogicPuzzle
