import LogicPuzzle.Proofs.Certificate
import LogicPuzzle.Proofs.Satisfaction
import Mathlib.Data.Finset.Card
import Mathlib.Data.Int.Interval

/-!
# Fields whose cells have peers

The cells of a field are peers of each other, all of them or none.  When they
are, the elements of the array take different labels in the field, so there are
at most as many elements as labels.  A search of an array with more elements
refuses every assignment before it tests a rule, and in an array with just as
many elements each label of the domain is taken once.
-/

namespace LogicPuzzle

open Search

namespace RecordArray

variable {array : RecordArray} {first place member : Nat}

/-- A cell that has a peer is one of a unique field. -/
theorem mem_uniquePlaces_of_peer (within : place < array.width)
    (joined : member ∈ array.peers.of (array.cellNumber first place)) :
    place ∈ array.uniquePlaces := by
  obtain ⟨other, unique, element, _, _, _, _, same, _⟩ := mem_of_peers.mp joined
  rwa [place_eq_of_cellNumber_eq within (lt_of_mem_uniquePlaces unique) same]

end RecordArray

namespace Model

/-- A field of a record array with peers among its cells, which range over a domain. -/
structure PeeredField (model : Model) (name field : String) (start place : Nat)
    (array : RecordArray) (domain : Domain) : Prop where
  found : model.record? name = some (start, array)
  placed : array.fieldPlace? field = some place
  peered : ∃ element < array.size, model.peers.of (start + array.cellNumber element place) ≠ []
  ranges : ∀ element < array.size,
    model.cells[start + array.cellNumber element place]?.map Cell.domain = some domain

namespace PeeredField

variable {model : Model} {puzzle : Puzzle} {name field : String} {start place : Nat}
  {array : RecordArray} {domain : Domain} {assignment : Assignment}
  (peered : model.PeeredField name field start place array domain)
include peered

/-- If one cell of the field has peers, the field is unique. -/
theorem unique (built : model.BuiltFrom puzzle) : place ∈ array.uniquePlaces := by
  obtain ⟨numbered, _⟩ := built.record?_eq_some_iff.mp peered.found
  have within := RecordArray.fieldPlace?_lt peered.placed
  obtain ⟨element, inside, joined⟩ := peered.peered
  rw [built.peers_of_record numbered (RecordArray.cellNumber_lt inside within)] at joined
  obtain ⟨member, isPeer⟩ := List.exists_mem_of_ne_nil _ fun none =>
    joined (List.map_eq_nil_iff.mpr none)
  exact RecordArray.mem_uniquePlaces_of_peer within isPeer

/-- An assignment without conflicts gives the elements different places in the field. -/
theorem differ (built : model.BuiltFrom puzzle)
    (accepted : model.checkUniqueness assignment = true) :
    ∀ first < array.size, ∀ second < array.size, first ≠ second →
      assignment.placeOf (start + array.cellNumber first place) ≠
        assignment.placeOf (start + array.cellNumber second place) := by
  obtain ⟨numbered, _⟩ := built.record?_eq_some_iff.mp peered.found
  exact built.checkUniqueness_iff_differs.mp accepted _ numbered place (peered.unique built)

theorem exists_cell {element : Nat} (inside : element < array.size) : ∃ type,
    model.cells[start + array.cellNumber element place]? = some ⟨type, domain⟩ := by
  obtain ⟨cell, found, rfl⟩ := Option.map_eq_some_iff.mp (peered.ranges element inside)
  exact ⟨cell.type, found⟩

theorem placeOf_bounds (inRange : assignment.InRange model.cells) {element : Nat}
    (inside : element < array.size) :
    0 ≤ assignment.placeOf (start + array.cellNumber element place) ∧
      assignment.placeOf (start + array.cellNumber element place) < domain.labels.length := by
  obtain ⟨type, found⟩ := peered.exists_cell inside
  exact inRange.placeOf_bounds found

/-- Then there are places enough for all elements. -/
theorem size_le (built : model.BuiltFrom puzzle) (inRange : assignment.InRange model.cells)
    (accepted : model.checkUniqueness assignment = true) :
    array.size ≤ domain.labels.length := by
  -- The elements are sent to their places, which are different numbers below that of the labels.
  have inside : ∀ element ∈ Finset.range array.size,
      assignment.placeOf (start + array.cellNumber element place) ∈
        Finset.Ico (0 : Int) domain.labels.length := fun element member =>
    Finset.mem_Ico.mpr (peered.placeOf_bounds inRange (Finset.mem_range.mp member))
  have apart : Set.InjOn
      (fun element => assignment.placeOf (start + array.cellNumber element place))
      (Finset.range array.size) := by
    intro first firstMember second secondMember same
    by_contra different
    exact peered.differ built accepted first (Finset.mem_range.mp firstMember) second
      (Finset.mem_range.mp secondMember) different same
  have count := Finset.card_le_card_of_injOn _ inside apart
  rwa [Finset.card_range, Int.card_Ico, Int.sub_zero, Int.toNat_natCast] at count

/-- The labels of the field are those of a domain of the puzzle. -/
theorem domain_mem (built : model.BuiltFrom puzzle) : domain ∈ puzzle.domains := by
  obtain ⟨element, inside, _⟩ := peered.peered
  obtain ⟨type, found⟩ := peered.exists_cell inside
  exact built.cell_domain_mem _ (List.mem_of_getElem? found)

/-- With more elements than labels no assignment gets as far as the rules. -/
theorem refused (built : model.BuiltFrom puzzle) (crowded : domain.labels.length < array.size)
    (inRange : assignment.InRange model.cells) : model.check assignment = .ok false := by
  have conflicting : ¬ model.checkUniqueness assignment = true := fun accepted =>
    absurd (peered.size_le built inRange accepted) (Nat.not_le.mpr crowded)
  rw [check, if_neg conflicting]

theorem solve_of_crowded (built : model.BuiltFrom puzzle)
    (crowded : domain.labels.length < array.size) {limit : Option Int}
    (unlimited : allowance limit = ⊤) :
    model.solve limit = .ok (unsolved puzzle model .noSolution model.searchSpace) := by
  have all : ∀ rank < model.searchSpace, model.verdict rank = .ok false := fun rank _ =>
    peered.refused built crowded (Odometer.places_inRange built.cell_size_pos rank)
  have allowed : (model.searchSpace : ℕ∞) ≤ allowance limit := unlimited ▸ le_top
  exact solve_of_all_refused built allowed all

end PeeredField

end Model

/-! ## Reported labels -/

namespace Search

variable {model : Model} {puzzle : Puzzle} {name field : String} {start place : Nat}
  {array : RecordArray} {domain : Domain} {search : Search}

def fieldLabels (search : Search) (start : Nat) (array : RecordArray) (place : Nat) :
    List String :=
  (List.range array.size).map fun element =>
    search.labelOf (start + array.cellNumber element place)

/-- The labels that are reported for a field are those that its cells show. -/
theorem map_find?_recordLabels (built : model.BuiltFrom puzzle)
    (member : (start, array) ∈ model.numberedRecords)
    (placed : array.fieldPlace? field = some place) :
    (search.recordLabels start array).map (Table.find? field) =
      (search.fieldLabels start array place).map some := by
  have distinct := built.nodup_fieldNames member
  obtain ⟨entry, found, rfl⟩ : ∃ entry, array.fields[place]? = some entry ∧ entry.1 = field := by
    obtain ⟨inside, named, _⟩ := List.idxOf?_eq_some_iff.mp placed
    have listed : array.fields.names[place]? = some field :=
      List.getElem?_eq_some_iff.mpr ⟨inside, named⟩
    rw [Table.names, List.getElem?_map] at listed
    exact Option.map_eq_some_iff.mp listed
  rw [recordLabels, fieldLabels, List.map_map, List.map_map]
  exact List.map_congr_left fun element _ => find?_elementLabels distinct found

/-- A solved outcome is that of a search which has stopped at an accepted assignment. -/
theorem exists_accepted_of_solve (built : model.BuiltFrom puzzle) {limit : Option Int}
    {outcome : Outcome} (ended : model.solve limit = .ok outcome)
    (solved : outcome.status = .solved) :
    ∃ last : Search, last.Within model ∧ outcome = last.outcome .solved ∧
      model.check last.assignment = .ok true := by
  obtain ⟨last, ended⟩ : ∃ last, (ofModel model).solve limit = (.ok outcome, last) :=
    ⟨_, Prod.ext ended rfl⟩
  obtain ⟨status, sought, rfl⟩ := seek_of_solve ended
  obtain rfl : status = .solved := solved
  have within := ((within_ofModel built).reset built).seek built (effectiveLimit limit)
    (ofModel model).model.searchSpace
  have accepted := check_of_seek_solved (congrArg Prod.fst sought)
  rw [sought] at within
  rw [sought, Search.check, within.model_eq] at accepted
  exact ⟨last, within, rfl, accepted⟩

end Search

namespace Model.PeeredField

variable {model : Model} {puzzle : Puzzle} {name field : String} {start place : Nat}
  {array : RecordArray} {domain : Domain} {search : Search}
  (peered : model.PeeredField name field start place array domain)
include peered

theorem mem_labels_of_fieldLabels (within : search.Within model) {label : String}
    (shown : label ∈ search.fieldLabels start array place) : label ∈ domain.labels := by
  obtain ⟨rfl, inRange⟩ := within
  obtain ⟨element, inside, rfl⟩ := List.mem_map.mp shown
  obtain ⟨type, found⟩ := peered.exists_cell (List.mem_range.mp inside)
  exact List.mem_of_getElem? (labels_getElem?_placeOf inRange found)

/-- Different places in a domain without repetitions have different labels. -/
theorem nodup_fieldLabels (built : model.BuiltFrom puzzle) (within : search.Within model)
    (distinct : domain.labels.Nodup)
    (accepted : model.checkUniqueness search.assignment = true) :
    (search.fieldLabels start array place).Nodup := by
  obtain ⟨rfl, inRange⟩ := within
  refine List.Nodup.map_on ?_ List.nodup_range
  intro first firstMember second secondMember same
  have firstBelow := List.mem_range.mp firstMember
  have secondBelow := List.mem_range.mp secondMember
  obtain ⟨_, firstFound⟩ := peered.exists_cell firstBelow
  obtain ⟨_, secondFound⟩ := peered.exists_cell secondBelow
  have firstLabel := labels_getElem?_placeOf inRange firstFound
  have secondLabel := labels_getElem?_placeOf inRange secondFound
  by_contra different
  apply peered.differ built accepted first firstBelow second secondBelow different
  rw [← Domain.indexOf_eq distinct (inRange.placeOf_bounds firstFound).1 firstLabel,
    ← Domain.indexOf_eq distinct (inRange.placeOf_bounds secondFound).1 secondLabel, same]

/-- As many elements as labels take each label once. -/
theorem perm_fieldLabels (within : search.Within model)
    (different : (search.fieldLabels start array place).Nodup)
    (equal : array.size = domain.labels.length) :
    (search.fieldLabels start array place).Perm domain.labels := by
  have inside : search.fieldLabels start array place ⊆ domain.labels := fun _ =>
    peered.mem_labels_of_fieldLabels within
  have count : (search.fieldLabels start array place).length = array.size :=
    (List.length_map _).trans List.length_range
  exact (different.subperm inside).perm_of_length_le (count.trans equal).ge

end Model.PeeredField

namespace Model

variable {model : Model} {puzzle : Puzzle} {name field : String} {start place : Nat}
  {array : RecordArray} {domain : Domain}

/-- If a field whose cells have peers has fewer labels than there are elements, a search without a
limit ends without a solution after all assignments, whatever the rules are.  A solution of a puzzle
that was read from a text has different labels in the field, and each label of the domain if there
are as many elements. -/
theorem peered_fields_count (done : build puzzle = .ok model)
    (peered : model.PeeredField name field start place array domain) :
    (domain.labels.length < array.size → ∀ limit, allowance limit = ⊤ →
      model.solve limit = .ok (unsolved puzzle model .noSolution model.searchSpace)) ∧
    ∀ file text notices, readPuzzle file text = .ok (puzzle, notices) →
      ∀ limit outcome, model.solve limit = .ok outcome → outcome.status = .solved →
        ∃ elements, ∃ labels : List String, Table.find? name outcome.records = some elements ∧
          elements.map (Table.find? field) = labels.map some ∧ labels.length = array.size ∧
          labels.Nodup ∧ (array.size = domain.labels.length → labels.Perm domain.labels) := by
  have built := builtFrom_of_build done
  refine ⟨fun crowded limit => peered.solve_of_crowded built crowded, ?_⟩
  intro file text notices read limit outcome ended solved
  obtain ⟨last, within, rfl, checked⟩ := exists_accepted_of_solve built ended solved
  have distinct := (textual_of_readPuzzle read).labels_distinct domain (peered.domain_mem built)
  have unique := checkUniqueness_of_check checked
  have different := peered.nodup_fieldLabels built within distinct unique
  obtain ⟨numbered, rfl⟩ := built.record?_eq_some_iff.mp peered.found
  obtain rfl := within.model_eq
  exact ⟨_, _, find?_records built numbered, map_find?_recordLabels built numbered peered.placed,
    (List.length_map _).trans List.length_range, different,
    peered.perm_fieldLabels within different⟩

def crowdedPuzzle : Puzzle where
  file := none
  domains := [⟨"Color", ["red", "green"]⟩]
  schemas := [⟨"Guest", [⟨"Color", "scarf", true⟩]⟩]
  declarations := [⟨"Guests", "Guest", some 3, ⟨3, 1⟩⟩]
  rules := [⟨⟨⟨"Nobody", [.index 0], ⟨4, 1⟩⟩, false, ⟨"red", [], ⟨4, 13⟩⟩⟩, []⟩]

def crowdedArray : RecordArray where
  name := "Guests"
  schema := ⟨"Guest", [⟨"Color", "scarf", true⟩]⟩
  fields := [("scarf", ⟨"Color", ⟨"Color", ["red", "green"]⟩⟩)]
  size := 3

def crowdedModel : Model where
  file := none
  domains := crowdedPuzzle.domains
  schemas := crowdedPuzzle.schemas
  scalars := []
  records := [crowdedArray]
  rules := crowdedPuzzle.rules
  cells := crowdedArray.cells
  peers := [[1, 2], [0, 2], [0, 1]]

/-- The guests cannot differ, and the two houses of a street do. -/
theorem peered_guests_houses :
    crowdedModel.solve (some 0) =
        .ok (unsolved crowdedPuzzle crowdedModel .noSolution crowdedModel.searchSpace) ∧
      crowdedModel.searchSpace = 8 ∧
      streetModel.solve none = .ok streetOutcome ∧
      ∃ elements, ∃ labels : List String,
        Table.find? "Houses" streetOutcome.records = some elements ∧
          elements.map (Table.find? "wall") = labels.map some ∧ labels.Perm ["red", "green"] := by
  have guests : crowdedModel.PeeredField "Guests" "scarf" 0 0 crowdedArray
      ⟨"Color", ["red", "green"]⟩ :=
    ⟨by rfl, by rfl, ⟨0, by decide, by decide⟩, by decide⟩
  have houses : streetModel.PeeredField "Houses" "wall" 1 0 streetArray
      ⟨"Color", ["red", "green"]⟩ :=
    ⟨by rfl, by rfl, ⟨0, by decide, by decide⟩, by decide⟩
  have read : readPuzzle (Path.ofString "street.puzzle") streetText = .ok (streetPuzzle, []) := by
    decide +kernel
  have ended : streetModel.solve none = .ok streetOutcome := by rfl
  obtain ⟨elements, labels, found, reported, _, _, perm⟩ :=
    (peered_fields_count (by rfl) houses).2 _ _ _ read none streetOutcome ended rfl
  exact ⟨(peered_fields_count (by rfl) guests).1 (by decide) (some 0) (by rfl), by rfl, ended,
    elements, labels, found, reported, perm rfl⟩

end Model

end LogicPuzzle
