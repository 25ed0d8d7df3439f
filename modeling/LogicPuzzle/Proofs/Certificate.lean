import LogicPuzzle.Proofs.Resolution
import LogicPuzzle.Proofs.Stepping
import LogicPuzzle.Proofs.TextPuzzles
import Mathlib.Data.List.Forall2

/-!
# Outcomes as certificates

The labels of a solved outcome tell the assignment that the search stopped at.
Every declared array is there with all of its elements, every element with all
of its fields, and the places of the labels in their domains are the places that
the cells held.  For this the labels of a domain must be distinct, as they are in
a puzzle that was read from a text.
-/

namespace LogicPuzzle

/-! ## Labels of slots -/

def Outcome.label? (outcome : Outcome) : Slot → Option String
  | .element array index => (Table.find? array outcome.scalars).bind fun labels => labels[index]?
  | .field array index name =>
      (Table.find? array outcome.records).bind fun elements =>
        elements[index]?.bind (Table.find? name)

def ScalarArray.slots (array : ScalarArray) : List (Slot × Cell) :=
  (List.range array.size).map fun index => (.element array.name index, array.cell)

def RecordArray.elementSlots (array : RecordArray) (index : Nat) : List (Slot × Cell) :=
  array.fields.map fun field => (.field array.name index field.1, field.2)

def RecordArray.slots (array : RecordArray) : List (Slot × Cell) :=
  (List.range array.size).flatMap array.elementSlots

namespace Model

def slots (model : Model) : List (Slot × Cell) :=
  model.scalars.flatMap ScalarArray.slots ++ model.records.flatMap RecordArray.slots

/-- The assignment that sets every cell to the label which an outcome gives its slot. -/
def restored? (model : Model) (outcome : Outcome) : Option Assignment :=
  model.slots.mapM fun entry => (outcome.label? entry.1).map entry.2.domain.indexOf

end Model

/-- An outcome has every declared array of a puzzle, with its size and its fields, and no other. -/
structure Outcome.Fills (outcome : Outcome) (puzzle : Puzzle) : Prop where
  records_named : Table.names outcome.records =
    (puzzle.declarations.filter fun declaration =>
      (puzzle.schema? declaration.type).isSome).map (·.name)
  scalars_named : Table.names outcome.scalars =
    (puzzle.declarations.filter fun declaration =>
      (puzzle.schema? declaration.type).isNone).map (·.name)
  names_distinct : (Table.names outcome.scalars ++ Table.names outcome.records).Nodup
  records_complete : ∀ declaration ∈ puzzle.declarations, ∀ schema,
    puzzle.schema? declaration.type = some schema →
      ∃ elements, (declaration.name, elements) ∈ outcome.records ∧
        elements.length = declaration.effectiveSize ∧
        ∀ element ∈ elements, (Table.names element).Nodup ∧
          ∀ field, field ∈ Table.names element ↔ field ∈ schema.fieldNames
  scalars_complete : ∀ declaration ∈ puzzle.declarations,
    puzzle.schema? declaration.type = none →
      ∃ labels, (declaration.name, labels) ∈ outcome.scalars ∧
        labels.length = declaration.effectiveSize

/-! ## Labels and places -/

theorem mapM_eq_some_of_forall₂ {α β : Type} {step : α → Option β} {elements : List α}
    {results : List β} (steps : List.Forall₂ (fun element result => step element = some result)
      elements results) : elements.mapM step = some results := by
  induction steps with
  | nil => rfl
  | cons first _ ih =>
      rw [List.mapM_cons, first, ih]
      rfl

/-! ## Pieces of a range -/

section Pieces

variable {α β : Type} {relation : β → Nat → Prop} {start : Nat}

/-- Pieces that match the ranges of numbered arrays match, one after the other, the whole range. -/
theorem forall₂_flatMap_numbered {extent : α → Nat} {piece : α → List β} {arrays : List α}
    (fits : ∀ entry ∈ Model.numbered extent start arrays,
      List.Forall₂ relation (piece entry.2) (List.range' entry.1 (extent entry.2))) :
    List.Forall₂ relation (arrays.flatMap piece)
      (List.range' start (Model.totalExtent extent arrays)) := by
  induction arrays generalizing start with
  | nil => exact .nil
  | cons first rest ih =>
      obtain ⟨firstFits, restFits⟩ := List.forall_mem_cons.mp fits
      have total : Model.totalExtent extent (first :: rest) =
          extent first + Model.totalExtent extent rest := rfl
      rw [List.flatMap_cons, total, ← List.range'_append, Nat.one_mul]
      exact List.rel_append firstFits (ih restFits)

/-- Pieces of one width that match consecutive ranges match the whole range. -/
theorem forall₂_flatMap_range {count width : Nat} {piece : Nat → List β}
    (fits : ∀ index < count,
      List.Forall₂ relation (piece index) (List.range' (start + index * width) width)) :
    List.Forall₂ relation ((List.range count).flatMap piece)
      (List.range' start (count * width)) := by
  induction count with
  | zero =>
      rw [Nat.zero_mul]
      exact .nil
  | succ count ih =>
      have lastFits := fits count (Nat.lt_succ_self count)
      rw [List.range_succ, List.flatMap_append, List.flatMap_singleton, Nat.succ_mul,
        ← List.range'_append, Nat.one_mul]
      exact List.rel_append (ih fun index below => fits index (Nat.lt_succ_of_lt below)) lastFits

end Pieces

namespace Search

variable {search : Search} {puzzle : Puzzle} {start index number : Nat}

/-- The cell of a number is that of a slot, and the outcome of the search has its label. -/
structure Shows (search : Search) (entry : Slot × Cell) (number : Nat) : Prop where
  cell : search.model.cells[number]? = some entry.2
  label : (search.outcome .solved).label? entry.1 = some (search.labelOf number)

/-- If the labels of its domain are distinct, a label that is shown gives the place back. -/
theorem Shows.place {entry : Slot × Cell} (shows : search.Shows entry number)
    (inRange : search.assignment.InRange search.model.cells)
    (distinct : entry.2.domain.labels.Nodup) :
    ((search.outcome .solved).label? entry.1).map entry.2.domain.indexOf =
      some (search.assignment.placeOf number) := by
  have lower := (inRange.placeOf_bounds shows.cell).1
  rw [shows.label, Option.map_some,
    Domain.indexOf_eq distinct lower (labels_getElem?_placeOf inRange shows.cell)]

theorem find?_elementLabels {array : RecordArray} (distinct : array.fields.names.Nodup)
    {place : Nat} {field : String × Cell} (found : array.fields[place]? = some field) :
    Table.find? field.1 (search.elementLabels start array index) =
      some (search.labelOf (start + array.cellNumber index place)) := by
  apply Table.find?_eq_some_of_mem
  · rw [names_elementLabels]
    exact distinct
  · exact List.mem_of_getElem? (getElem?_elementLabels search start index found)

theorem names_scalars (search : Search) :
    Table.names (search.outcome .solved).scalars = search.model.scalars.map (·.name) := by
  rw [← Model.map_numbered ScalarArray.name ScalarArray.size 0]
  exact List.map_map

theorem names_records (search : Search) :
    Table.names (search.outcome .solved).records = search.model.records.map (·.name) := by
  rw [← Model.map_numbered RecordArray.name RecordArray.extent search.model.scalarCount]
  exact List.map_map

section Built

variable (built : search.model.BuiltFrom puzzle)
include built

/-- Every cell of a scalar array shows the label of its element. -/
theorem shows_scalar {array : ScalarArray}
    (member : (start, array) ∈ search.model.numberedScalars) :
    List.Forall₂ search.Shows array.slots (List.range' start array.size) := by
  have found : Table.find? array.name (search.outcome .solved).scalars =
      some (search.scalarLabels start array) := by
    apply Table.find?_eq_some_of_mem
    · rw [names_scalars]
      exact (List.nodup_append.mp built.arrays_distinct).1
    · exact List.mem_map.mpr ⟨(start, array), member, rfl⟩
  rw [ScalarArray.slots, List.forall₂_map_left_iff, List.range'_eq_map_range,
    List.forall₂_map_right_iff, List.forall₂_same]
  intro index inside
  have within : index < array.size := List.mem_range.mp inside
  refine ⟨built.cells_of_scalar member within, ?_⟩
  rw [Outcome.label?, found, Option.bind_some, getElem?_scalarLabels search start within]

theorem find?_records {array : RecordArray}
    (member : (start, array) ∈ search.model.numberedRecords) :
    Table.find? array.name (search.outcome .solved).records =
      some (search.recordLabels start array) := by
  apply Table.find?_eq_some_of_mem
  · rw [names_records]
    exact (List.nodup_append.mp built.arrays_distinct).2.1
  · exact List.mem_map.mpr ⟨(start, array), member, rfl⟩

/-- Every cell of an element of a record array shows the label of its field. -/
theorem shows_element {array : RecordArray} (distinct : array.fields.names.Nodup)
    (member : (start, array) ∈ search.model.numberedRecords) (inside : index < array.size) :
    List.Forall₂ search.Shows (array.elementSlots index)
      (List.range' (start + index * array.width) array.width) := by
  have found := find?_records built member
  rw [RecordArray.elementSlots, List.forall₂_map_left_iff, List.forall₂_iff_get]
  refine ⟨List.length_range'.symm, ?_⟩
  intro place within _
  have field : array.fields[place]? = some array.fields[place] := List.getElem?_eq_getElem within
  rw [List.get_eq_getElem, List.get_eq_getElem, List.getElem_range', Nat.one_mul, Nat.add_assoc]
  constructor
  · exact (built.cells_of_record member inside within).trans (by rw [field, Option.map_some])
  · rw [Outcome.label?, found, Option.bind_some, getElem?_recordLabels search start inside]
    exact find?_elementLabels distinct field

/-- Every cell of a record array shows the label of its field. -/
theorem shows_record {array : RecordArray}
    (member : (start, array) ∈ search.model.numberedRecords) :
    List.Forall₂ search.Shows array.slots (List.range' start array.extent) := by
  have distinct := built.nodup_fieldNames member
  apply forall₂_flatMap_range
  intro index inside
  exact shows_element built distinct member inside

/-- Every cell shows the label of its slot. -/
theorem shows_slots :
    List.Forall₂ search.Shows search.model.slots (List.range' 0 search.model.slots.length) := by
  have scalars : List.Forall₂ search.Shows (search.model.scalars.flatMap ScalarArray.slots)
      (List.range' 0 search.model.scalarCount) :=
    forall₂_flatMap_numbered fun _ member => shows_scalar built member
  have records : List.Forall₂ search.Shows (search.model.records.flatMap RecordArray.slots)
      (List.range' search.model.scalarCount
        (Model.totalExtent RecordArray.extent search.model.records)) :=
    forall₂_flatMap_numbered fun _ member => shows_record built member
  have shows : List.Forall₂ search.Shows search.model.slots
      (List.range' 0 search.model.scalarCount ++ List.range' search.model.scalarCount
        (Model.totalExtent RecordArray.extent search.model.records)) :=
    List.rel_append scalars records
  have joined := @List.range'_append_1 0 search.model.scalarCount
    (Model.totalExtent RecordArray.extent search.model.records)
  rw [Nat.zero_add] at joined
  rw [joined] at shows
  have count := shows.length_eq
  rw [List.length_range'] at count
  rwa [← count] at shows

end Built

/-- A search that has ended with a solution stands at an assignment which the check accepts. -/
theorem check_of_seek_solved {limit : Option Int} {bound : Nat}
    (ended : (seek limit bound search).1 = .ok .solved) :
    (seek limit bound search).2.check = .ok true := by
  induction bound generalizing search with
  | zero => cases ended
  | succ bound ih =>
      obtain same | ⟨_, _, same⟩ | ⟨checked, same⟩ | ⟨_, ⟨next, _, same⟩ | ⟨_, _, same⟩⟩ :=
        seek_cases limit bound search
      · rw [same] at ended
        cases ended
      · rw [same] at ended
        cases ended
      · rw [same]
        exact checked
      · rw [same] at ended ⊢
        exact ih ended
      · rw [same] at ended
        cases ended

end Search

namespace Model

variable {model : Model} {puzzle : Puzzle} {search : Search}

/-- The slots have the cells of the model, in their order. -/
theorem BuiltFrom.map_slots (built : model.BuiltFrom puzzle) :
    model.slots.map Prod.snd = model.cells := by
  have scalar (array : ScalarArray) : array.slots.map Prod.snd = array.cells := by
    rw [ScalarArray.slots, ScalarArray.cells, List.map_map]
    exact List.map_const'.trans (congrArg (List.replicate · _) List.length_range)
  have record (array : RecordArray) : array.slots.map Prod.snd = array.cells := by
    have element (index : Nat) :
        (array.elementSlots index).map Prod.snd = array.fields.map Prod.snd := List.map_map
    rw [RecordArray.slots, RecordArray.cells, List.map_flatMap, List.flatMap_def]
    simp only [element]
    exact congrArg List.flatten
      (List.map_const'.trans (congrArg (List.replicate · _) List.length_range))
  rw [built.cells, allCells, slots, List.map_append, List.map_flatMap, List.map_flatMap]
  simp only [scalar, record]

theorem map_placeOf_range' (assignment : Assignment) :
    (List.range' 0 assignment.length).map assignment.placeOf = assignment := by
  apply List.ext_getElem
  · rw [List.length_map, List.length_range']
  · intro number _ inside
    rw [List.getElem_map, List.getElem_range', Nat.one_mul, Nat.zero_add, Assignment.placeOf,
      List.getElem?_eq_getElem inside, Option.getD_some]

/-- The labels of a solved outcome restore the assignment that the search stands at. -/
theorem restored?_outcome (built : model.BuiltFrom puzzle) (within : search.Within model)
    (distinct : ∀ domain ∈ puzzle.domains, domain.labels.Nodup) :
    model.restored? (search.outcome .solved) = some search.assignment := by
  obtain ⟨rfl, inRange⟩ := within
  have count : search.model.slots.length = search.assignment.length := by
    rw [← inRange.length_eq, ← built.map_slots, List.length_map]
  have shows := Search.shows_slots built
  apply mapM_eq_some_of_forall₂
  rw [count] at shows
  rw [← map_placeOf_range' search.assignment, List.forall₂_map_right_iff]
  refine shows.imp fun entry number shown => shown.place inRange (distinct _ ?_)
  exact built.cell_domain_mem _ (List.mem_of_getElem? shown.cell)

/-! ## Arrays of an outcome -/

/-- The names of what is made of some elements are the names of these elements. -/
theorem map_filterMap_eq_map_filter {α β : Type} {make : α → Option β} {makes : α → Bool}
    {name : β → String} {key : α → String} {elements : List α}
    (made : ∀ element ∈ elements,
      (make element).map name = if makes element then some (key element) else none) :
    (elements.filterMap make).map name = (elements.filter makes).map key := by
  rw [List.map_filterMap, List.filterMap_congr made, ← List.filterMap_eq_map,
    List.filterMap_filter]
  rfl

theorem BuiltFrom.map_records (built : model.BuiltFrom puzzle) :
    model.records.map (·.name) = (puzzle.declarations.filter fun declaration =>
      (puzzle.schema? declaration.type).isSome).map (·.name) := by
  rw [built.records]
  apply map_filterMap_eq_map_filter
  intro declaration _
  rw [Puzzle.recordArray?]
  cases puzzle.schema? declaration.type with
  | none => rfl
  | some schema => rfl

theorem BuiltFrom.map_scalars (built : model.BuiltFrom puzzle) :
    model.scalars.map (·.name) = (puzzle.declarations.filter fun declaration =>
      (puzzle.schema? declaration.type).isNone).map (·.name) := by
  rw [built.scalars]
  apply map_filterMap_eq_map_filter
  intro declaration declared
  have made := built.declared declaration declared
  rw [Puzzle.recordArray?] at made
  rw [Puzzle.scalarArray?] at made ⊢
  cases schema : puzzle.schema? declaration.type with
  | some schema => rfl
  | none =>
      rw [schema] at made
      cases domain : puzzle.domain? declaration.type with
      | some domain => rfl
      | none =>
          rw [domain] at made
          exact absurd made (by simp)

/-- A record array that is declared has its elements in an outcome, with all of its fields. -/
theorem exists_elements (built : model.BuiltFrom puzzle) (same : search.model = model)
    {declaration : Declaration} (declared : declaration ∈ puzzle.declarations) {schema : Schema}
    (found : puzzle.schema? declaration.type = some schema) :
    ∃ elements, (declaration.name, elements) ∈ (search.outcome .solved).records ∧
      elements.length = declaration.length ∧
      ∀ element ∈ elements, (Table.names element).Nodup ∧
        ∀ field, field ∈ Table.names element ↔ field ∈ schema.fieldNames := by
  have made : puzzle.recordArray? declaration = some (puzzle.recordArray declaration schema) := by
    rw [Puzzle.recordArray?, found, Option.map_some]
  have inRecords : puzzle.recordArray declaration schema ∈ model.records := by
    rw [built.records]
    exact List.mem_filterMap.mpr ⟨declaration, declared, made⟩
  obtain ⟨start, member⟩ := exists_mem_numbered_iff.mpr inRecords
  rw [← same] at member
  refine ⟨_, List.mem_map_of_mem member, ?_, ?_⟩
  · exact (List.length_map _).trans List.length_range
  · intro element inElements
    obtain ⟨index, _, rfl⟩ := List.mem_map.mp inElements
    rw [Search.names_elementLabels]
    refine ⟨Table.nodup_names_ofList _, fun field => ?_⟩
    have named : (schema.entries.map puzzle.entryField).map (·.1) = schema.fieldNames :=
      List.map_map
    exact Table.mem_names_ofList.trans (by rw [named])

/-- A scalar array that is declared has its elements in an outcome. -/
theorem exists_labels (built : model.BuiltFrom puzzle) (same : search.model = model)
    {declaration : Declaration} (declared : declaration ∈ puzzle.declarations)
    (unfound : puzzle.schema? declaration.type = none) :
    ∃ labels, (declaration.name, labels) ∈ (search.outcome .solved).scalars ∧
      labels.length = declaration.length := by
  have made := built.declared declaration declared
  rw [Puzzle.recordArray?, Puzzle.scalarArray?, unfound] at made
  obtain ⟨array, madeArray⟩ := Option.isSome_iff_exists.mp
    (made.resolve_right Bool.false_ne_true)
  have inScalars : array ∈ model.scalars := by
    rw [built.scalars]
    refine List.mem_filterMap.mpr ⟨declaration, declared, ?_⟩
    rw [Puzzle.scalarArray?, unfound, madeArray]
  obtain ⟨start, member⟩ := exists_mem_numbered_iff.mpr inScalars
  obtain ⟨domain, _, rfl⟩ := Option.map_eq_some_iff.mp madeArray
  rw [← same] at member
  refine ⟨_, List.mem_map_of_mem member, ?_⟩
  exact (List.length_map _).trans List.length_range'

theorem outcome_fills (built : model.BuiltFrom puzzle) (same : search.model = model)
    (sizes : ∀ declaration ∈ puzzle.declarations, 0 ≤ declaration.effectiveSize) :
    (search.outcome .solved).Fills puzzle := by
  have length_eq {declaration : Declaration} (declared : declaration ∈ puzzle.declarations) :
      (declaration.length : Int) = declaration.effectiveSize :=
    Int.toNat_of_nonneg (sizes declaration declared)
  constructor
  · rw [Search.names_records, same, built.map_records]
  · rw [Search.names_scalars, same, built.map_scalars]
  · rw [Search.names_scalars, Search.names_records, same]
    exact built.arrays_distinct
  · intro declaration declared schema found
    obtain ⟨elements, member, length, complete⟩ := exists_elements built same declared found
    exact ⟨elements, member, by rw [length, length_eq declared], complete⟩
  · intro declaration declared unfound
    obtain ⟨labels, member, length⟩ := exists_labels built same declared unfound
    exact ⟨labels, member, by rw [length, length_eq declared]⟩

/-- The outcome of a search that has solved a puzzle which was read from a text is a certificate:
it has all declared arrays, and its labels restore the assignment at which the search has stopped
and which the check accepts. -/
theorem solved_outcome_certifies {file : Path} {text : String} {notices : List Notice}
    {limit : Option Int} {outcome : Outcome} {last : Search}
    (read : readPuzzle file text = .ok (puzzle, notices)) (done : build puzzle = .ok model)
    (reached : search.Reached model) (ended : search.solve limit = (.ok outcome, last))
    (solved : outcome.status = .solved) :
    outcome.Fills puzzle ∧
    model.slots.map Prod.snd = model.cells ∧
    last.assignment.InRange model.cells ∧
    model.restored? outcome = some last.assignment ∧
    model.check last.assignment = .ok true := by
  have built := builtFrom_of_build done
  have textual := textual_of_readPuzzle read
  rcases reached with ⟨calls, rfl⟩
  have reached := (Search.within_ofModel built).afterAll built calls
  have within := reached.after built (.solve limit)
  rw [Search.after, ended] at within
  obtain ⟨status, sought, rfl⟩ := Search.seek_of_solve ended
  obtain rfl : status = .solved := solved
  have accepted := Search.check_of_seek_solved (congrArg Prod.fst sought)
  rw [sought, Search.check, within.model_eq] at accepted
  exact ⟨outcome_fills built within.model_eq textual.sizes_nonneg, built.map_slots,
    within.inRange, restored?_outcome built within textual.labels_distinct, accepted⟩

/-- Two houses and a lamp.  Red walls ask for a green lamp, and the second house has them. -/
def streetText : String :=
  "Color = \x7bred, green\x7d\nHouse = [unique Color wall, Color door]\n" ++
    "var Lamp : Color\nvar Houses : House[2]\nHouses[1].wall = red\n" ++
    "Houses.wall = red =>\n    Lamp[0] = green\n"

def streetPuzzle : Puzzle where
  file := some (Path.ofString "street.puzzle")
  domains := [⟨"Color", ["red", "green"]⟩]
  schemas := [⟨"House", [⟨"Color", "wall", true⟩, ⟨"Color", "door", false⟩]⟩]
  declarations := [⟨"Lamp", "Color", none, ⟨3, 1⟩⟩, ⟨"Houses", "House", some 2, ⟨4, 1⟩⟩]
  rules := [
    ⟨⟨⟨"Houses", [.index 1, .field "wall"], ⟨5, 1⟩⟩, false, ⟨"red", [], ⟨5, 18⟩⟩⟩, []⟩,
    ⟨⟨⟨"Houses", [.field "wall"], ⟨6, 1⟩⟩, false, ⟨"red", [], ⟨6, 15⟩⟩⟩,
      [⟨⟨"Lamp", [.index 0], ⟨7, 5⟩⟩, false, ⟨"green", [], ⟨7, 15⟩⟩⟩]⟩]

def streetArray : RecordArray where
  name := "Houses"
  schema := ⟨"House", [⟨"Color", "wall", true⟩, ⟨"Color", "door", false⟩]⟩
  fields := [("wall", ⟨"Color", ⟨"Color", ["red", "green"]⟩⟩),
    ("door", ⟨"Color", ⟨"Color", ["red", "green"]⟩⟩)]
  size := 2

def streetModel : Model where
  file := streetPuzzle.file
  domains := streetPuzzle.domains
  schemas := streetPuzzle.schemas
  scalars := [⟨"Lamp", ⟨"Color", ⟨"Color", ["red", "green"]⟩⟩, 1⟩]
  records := [streetArray]
  rules := streetPuzzle.rules
  cells := ⟨"Color", ⟨"Color", ["red", "green"]⟩⟩ :: streetArray.cells
  peers := [[], [3], [], [1], []]

def streetOutcome : Outcome where
  puzzle := "street"
  status := .solved
  iterations := 4
  searchSpace := 32
  records := [("Houses", [[("wall", "green"), ("door", "red")],
    [("wall", "red"), ("door", "red")]])]
  scalars := [("Lamp", ["green"])]

theorem certified_streetOutcome :
    readPuzzle (Path.ofString "street.puzzle") streetText = .ok (streetPuzzle, []) ∧
      build streetPuzzle = .ok streetModel ∧
      (Search.ofModel streetModel).solve none =
        (.ok streetOutcome, ⟨streetModel, [1, 1, 0, 0, 0], 4⟩) ∧
      streetModel.restored? streetOutcome = some [1, 1, 0, 0, 0] ∧
      streetModel.check [1, 1, 0, 0, 0] = .ok true := by
  have read : readPuzzle (Path.ofString "street.puzzle") streetText = .ok (streetPuzzle, []) := by
    decide +kernel
  have done : build streetPuzzle = .ok streetModel := by rfl
  have ended : (Search.ofModel streetModel).solve none =
      (.ok streetOutcome, ⟨streetModel, [1, 1, 0, 0, 0], 4⟩) := by
    rfl
  obtain ⟨_, _, _, restored, accepted⟩ :=
    solved_outcome_certifies read done ⟨[], rfl⟩ ended rfl
  exact ⟨read, done, ended, restored, accepted⟩

end Model

end LogicPuzzle
