import LogicPuzzle.Proofs.Slots
import Mathlib.Algebra.BigOperators.Intervals
import Mathlib.Data.List.Sort
import Mathlib.Data.Set.Card

/-!
# The order of peers

Connecting pairs of cells one after the other lists the peers of a cell in the
order of the pairs.  In a unique field of a record array they are the cells of
the other elements in ascending order, each of them once, however many entries
of that name are unique.  No other cell has peers.
-/

namespace LogicPuzzle

/-- The elements of a record array must differ in a field when some entry of its name is unique. -/
def Schema.IsUnique (schema : Schema) (field : String) : Prop :=
  ∃ entry ∈ schema.entries, entry.name = field ∧ entry.unique = true

namespace Peers

variable {known numbers : List Nat}

theorem foldl_noted_of_known (all : ∀ number ∈ numbers, number ∈ known) :
    numbers.foldl noted known = known := by
  induction numbers with
  | nil => rfl
  | cons number numbers ih =>
      obtain ⟨first, others⟩ := List.forall_mem_cons.mp all
      rw [List.foldl_cons, noted, if_pos first, ih others]

theorem foldl_noted_of_fresh (distinct : (known ++ numbers).Nodup) :
    numbers.foldl noted known = known ++ numbers := by
  induction numbers generalizing known with
  | nil => exact (List.append_nil known).symm
  | cons number numbers ih =>
      have fresh : number ∉ known := fun member =>
        (List.nodup_append.mp distinct).2.2 _ member _ List.mem_cons_self rfl
      rw [List.append_cons] at distinct
      rw [List.foldl_cons, noted, if_neg fresh, ih distinct, ← List.append_cons]

end Peers

namespace RecordArray

open Peers

variable {array : RecordArray} {element place other bound : Nat}

def others (bound element : Nat) : List Nat :=
  (List.range bound).filter (· ≠ element)

theorem mem_others : other ∈ others bound element ↔ other < bound ∧ other ≠ element := by
  rw [others, List.mem_filter, List.mem_range, decide_eq_true_iff]

theorem sortedLT_others (bound element : Nat) : (others bound element).SortedLT :=
  (List.Pairwise.filter _ List.pairwise_lt_range).sortedLT

/-- Pairs are listed by their first number, and those of one first number by the second. -/
theorem pairwise_pairs (bound : Nat) :
    (pairs bound).Pairwise fun pair next =>
      pair.1 < next.1 ∨ pair.1 = next.1 ∧ pair.2 < next.2 := by
  rw [pairs, List.pairwise_flatMap]
  constructor
  · intro first _
    rw [List.pairwise_map]
    exact (List.pairwise_lt_range' 1).imp fun less => .inr ⟨rfl, less⟩
  · refine List.pairwise_lt_range.imp fun less => ?_
    simp only [List.mem_map]
    rintro _ ⟨_, _, rfl⟩ _ ⟨_, _, rfl⟩
    exact .inl less

/-- All pairs below a bound join a number with the others, in ascending order. -/
theorem filterMap_opposite_pairs (inside : element < bound) :
    (pairs bound).filterMap (opposite element) = others bound element := by
  have proper {pair : Nat × Nat} (member : pair ∈ pairs bound) :
      pair.1 < pair.2 ∧ pair.2 < bound := mem_pairs.mp member
  have ascending : ((pairs bound).filterMap (opposite element)).SortedLT := by
    refine (List.pairwise_filterMap.mpr ?_).sortedLT
    refine (pairwise_pairs bound).imp_of_mem ?_
    intro pair next member nextMember order number isOpposite nextNumber nextOpposite
    have less := (proper member).1
    have nextLess := (proper nextMember).1
    rcases (opposite_eq_some_iff (Nat.ne_of_lt less)).mp isOpposite with rfl | rfl <;>
      rcases (opposite_eq_some_iff (Nat.ne_of_lt nextLess)).mp nextOpposite with rfl | rfl <;>
        dsimp only at less nextLess order <;> omega
  refine ascending.eq_of_mem_iff (sortedLT_others bound element) fun number => ?_
  rw [List.mem_filterMap, mem_others]
  constructor
  · rintro ⟨pair, member, isOpposite⟩
    obtain ⟨less, below⟩ := proper member
    rcases (opposite_eq_some_iff (Nat.ne_of_lt less)).mp isOpposite with rfl | rfl <;>
      dsimp only at less below <;> omega
  · rintro ⟨below, different⟩
    rcases Nat.lt_or_gt_of_ne different with less | more
    · exact ⟨(number, element), mem_pairs.mpr ⟨less, inside⟩,
        (opposite_eq_some_iff different).mpr (.inr rfl)⟩
    · exact ⟨(element, number), mem_pairs.mpr ⟨more, below⟩,
        (opposite_eq_some_iff (Ne.symm different)).mpr (.inl rfl)⟩

def fieldEdges (array : RecordArray) (field : Nat) : List (Nat × Nat) :=
  (pairs array.size).map fun pair => (array.cellNumber pair.1 field, array.cellNumber pair.2 field)

/-- The pairs of a field join a cell of the field with those of the other elements. -/
theorem filterMap_opposite_fieldEdges (inside : element < array.size)
    (within : place < array.width) :
    (array.fieldEdges place).filterMap (opposite (array.cellNumber element place)) =
      (others array.size element).map (array.cellNumber · place) := by
  have same (first : Nat) :
      array.cellNumber first place = array.cellNumber element place ↔ first = element :=
    ⟨fun equal => (eq_of_cellNumber_eq within within equal).1, fun equal => equal ▸ rfl⟩
  rw [fieldEdges, List.filterMap_map, ← filterMap_opposite_pairs inside, List.map_filterMap]
  refine List.filterMap_congr fun pair _ => ?_
  simp only [Function.comp_apply, opposite, same]
  split
  · rfl
  · split <;> rfl

theorem filterMap_opposite_otherEdges {field : Nat} (within : place < array.width)
    (fieldWithin : field < array.width) (different : field ≠ place) :
    (array.fieldEdges field).filterMap (opposite (array.cellNumber element place)) = [] := by
  have apart (first : Nat) :
      array.cellNumber first field ≠ array.cellNumber element place := fun equal =>
    different (eq_of_cellNumber_eq fieldWithin within equal).2
  rw [fieldEdges, List.filterMap_map]
  refine List.filterMap_eq_nil_iff.mpr fun pair _ => ?_
  simp only [Function.comp_apply, opposite, if_neg (apart _)]

/-- The cells that are noted as peers of a cell, one field after the other. -/
theorem of_peers (array : RecordArray) (holder : Nat) :
    array.peers.of holder = (array.uniquePlaces.flatMap fun field =>
      (array.fieldEdges field).filterMap (opposite holder)).foldl noted [] := by
  rw [peers_eq_connectAll, of_connectAll edges_proper, of_replicate_nil, edges,
    List.filterMap_flatMap]
  rfl

/-- The peers of a cell of a unique field are the cells of the field in the other elements. -/
theorem peers_of_uniquePlace (inside : element < array.size)
    (unique : place ∈ array.uniquePlaces) :
    array.peers.of (array.cellNumber element place) =
      (others array.size element).map (array.cellNumber · place) := by
  have within := lt_of_mem_uniquePlaces unique
  have own := filterMap_opposite_fieldEdges inside within
  have piece (field : Nat) (member : field ∈ array.uniquePlaces) :
      field = place ∨
        (array.fieldEdges field).filterMap (opposite (array.cellNumber element place)) = [] := by
    by_cases same : field = place
    · exact .inl same
    · exact .inr (filterMap_opposite_otherEdges within (lt_of_mem_uniquePlaces member) same)
  have distinct : ((others array.size element).map (array.cellNumber · place)).Nodup :=
    (sortedLT_others _ _).nodup.map_on fun first _ second _ equal =>
      (eq_of_cellNumber_eq within within equal).1
  -- The first unique entry of the name notes all peers, and further ones find them noted.
  obtain ⟨before, after, split, fresh⟩ := List.eq_append_cons_of_mem unique
  rw [of_peers, split, List.flatMap_append, List.flatMap_cons, List.foldl_append,
    List.foldl_append, own]
  rw [split] at piece
  have none : (before.flatMap fun field =>
      (array.fieldEdges field).filterMap (opposite (array.cellNumber element place))) = [] := by
    refine List.flatMap_eq_nil_iff.mpr fun field member => ?_
    exact (piece field (List.mem_append_left _ member)).resolve_left fun same =>
      fresh (same ▸ member)
  have noting : ((others array.size element).map (array.cellNumber · place)).foldl noted [] =
      (others array.size element).map (array.cellNumber · place) := foldl_noted_of_fresh distinct
  rw [none, List.foldl_nil, noting]
  refine foldl_noted_of_known fun number member => ?_
  obtain ⟨field, fieldMember, inPiece⟩ := List.mem_flatMap.mp member
  rcases piece field (List.mem_append_right _ (List.mem_cons_of_mem _ fieldMember)) with
    rfl | empty
  · rwa [own] at inPiece
  · rw [empty] at inPiece
    cases inPiece

theorem peers_of_plainPlace (within : place < array.width) (plain : place ∉ array.uniquePlaces) :
    array.peers.of (array.cellNumber element place) = [] := by
  have none : (array.uniquePlaces.flatMap fun field =>
      (array.fieldEdges field).filterMap (opposite (array.cellNumber element place))) = [] :=
    List.flatMap_eq_nil_iff.mpr fun field member =>
      filterMap_opposite_otherEdges within (lt_of_mem_uniquePlaces member) fun same =>
        plain (same ▸ member)
  rw [of_peers, none, List.foldl_nil]

theorem length_pairs (bound : Nat) : (pairs bound).length = bound * (bound - 1) / 2 := by
  have row (first : Nat) : ((List.range' (first + 1) (bound - (first + 1))).map
      fun second => (first, second)).length = bound - 1 - first := by
    rw [List.length_map, List.length_range']
    omega
  rw [pairs, List.length_flatMap]
  simp only [row]
  exact (Finset.sum_range_reflect (fun first => first) bound).trans (Finset.sum_range_id bound)

theorem nodup_pairs (bound : Nat) : (pairs bound).Nodup := by
  refine (pairwise_pairs bound).imp ?_
  rintro pair _ order rfl
  omega

/-- A place is one in which the elements must differ if some entry of its name is unique. -/
theorem mem_uniquePlaces_iff {field : String} (placed : array.fieldPlace? field = some place) :
    place ∈ array.uniquePlaces ↔ array.schema.IsUnique field := by
  constructor
  · intro unique
    obtain ⟨entry, member, entryPlaced⟩ := List.mem_filterMap.mp unique
    obtain ⟨inEntries, flagged⟩ := List.mem_filter.mp member
    obtain ⟨_, rfl, _⟩ := List.idxOf?_eq_some_iff.mp placed
    obtain ⟨_, same, _⟩ := List.idxOf?_eq_some_iff.mp entryPlaced
    exact ⟨entry, inEntries, same.symm, flagged⟩
  · rintro ⟨entry, inEntries, rfl, flagged⟩
    exact List.mem_filterMap.mpr ⟨entry, List.mem_filter.mpr ⟨inEntries, flagged⟩, placed⟩

end RecordArray

namespace Model

open RecordArray

variable {model : Model} {puzzle : Puzzle}

/-- The peers of the cells are those that the unique fields of the puzzle call for. -/
structure ExactlyPeered (model : Model) (puzzle : Puzzle) : Prop where
  unique_field : ∀ array schema size, puzzle.DeclaresRecords array schema size →
    ∀ field, schema.IsUnique field → ∀ element < size, ∃ cell,
      model.resolve none (Slot.field array element field).reference = .ok cell ∧
        (model.peers.of cell).map .ok =
          ((List.range size).filter (· ≠ element)).map fun other =>
            model.resolve none (Slot.field array other field).reference
  plain_field : ∀ array schema size, puzzle.DeclaresRecords array schema size →
    ∀ field ∈ schema.fieldNames, ¬ schema.IsUnique field → ∀ element < size, ∃ cell,
      model.resolve none (Slot.field array element field).reference = .ok cell ∧
        model.peers.of cell = []
  scalar : ∀ array domain size, puzzle.DeclaresScalars array domain size →
    ∀ element < size, ∃ cell,
      model.resolve none (Slot.element array element).reference = .ok cell ∧
        model.peers.of cell = []
  symmetric : ∀ cell other, other ∈ model.peers.of cell → cell ∈ model.peers.of other
  irreflexive : ∀ cell, cell ∉ model.peers.of cell
  pairs : ∀ array schema size, puzzle.DeclaresRecords array schema size →
    ∀ field, schema.IsUnique field →
      {pair : Nat × Nat | pair.1 < pair.2 ∧ pair.2 ∈ model.peers.of pair.1 ∧ ∃ element < size,
        model.resolve none (Slot.field array element field).reference = .ok pair.1}.ncard =
          size * (size - 1) / 2
  one_field : ∀ cell other, other ∈ model.peers.of cell →
    ∀ slot domain, puzzle.Has slot domain → model.resolve none slot.reference = .ok cell →
      ∀ next nextDomain, puzzle.Has next nextDomain →
        model.resolve none next.reference = .ok other →
          nextDomain = domain ∧ ∃ array field first second, first ≠ second ∧
            slot = .field array first field ∧ next = .field array second field

section Built

variable (built : model.BuiltFrom puzzle)
include built

/-- The elements of a record array have numbers for each field, with one place for the field. -/
theorem BuiltFrom.exists_place {name field : String} {schema : Schema} {size : Nat}
    (declared : puzzle.DeclaresRecords name schema size) (named : field ∈ schema.fieldNames) :
    ∃ start array place, (start, array) ∈ model.numberedRecords ∧ array.schema = schema ∧
      array.size = size ∧ array.fieldPlace? field = some place ∧ ∀ element < size,
        model.resolve none (Slot.field name element field).reference =
          .ok (start + array.cellNumber element place) := by
  obtain ⟨start, array, found, rfl, rfl⟩ := built.declaresRecords_iff.mp declared
  obtain ⟨member, _⟩ := built.record?_eq_some_iff.mp found
  obtain ⟨entry, entered⟩ := Schema.exists_entry? named
  obtain ⟨place, placed⟩ := built.exists_fieldPlace? member entered
  exact ⟨start, array, place, member, rfl, rfl, placed, fun element inside =>
    built.resolve_of_number (number?_field found inside placed)⟩

section Cells

variable {array : RecordArray} {start element place : Nat}
  (member : (start, array) ∈ model.numberedRecords)
include member

theorem BuiltFrom.peers_of_unique (inside : element < array.size)
    (unique : place ∈ array.uniquePlaces) :
    model.peers.of (start + array.cellNumber element place) =
      (others array.size element).map fun other => start + array.cellNumber other place := by
  rw [built.peers_of_record member (cellNumber_lt inside (lt_of_mem_uniquePlaces unique)),
    peers_of_uniquePlace inside unique, List.map_map]
  rfl

theorem BuiltFrom.peers_of_plain (inside : element < array.size) (within : place < array.width)
    (plain : place ∉ array.uniquePlaces) :
    model.peers.of (start + array.cellNumber element place) = [] := by
  rw [built.peers_of_record member (cellNumber_lt inside within), peers_of_plainPlace within plain,
    List.map_nil]

/-- The pairs of peers in a unique field are the pairs of elements. -/
theorem BuiltFrom.peer_pairs_eq (unique : place ∈ array.uniquePlaces) :
    {pair : Nat × Nat | pair.1 < pair.2 ∧ pair.2 ∈ model.peers.of pair.1 ∧
        ∃ element < array.size, start + array.cellNumber element place = pair.1} =
      (fun pair : Nat × Nat =>
          (start + array.cellNumber pair.1 place, start + array.cellNumber pair.2 place)) ''
        {pair | pair ∈ pairs array.size} := by
  have within := lt_of_mem_uniquePlaces unique
  have order {first second : Nat} :
      array.cellNumber first place < array.cellNumber second place ↔ first < second := by
    rw [cellNumber, cellNumber, Nat.add_lt_add_iff_right]
    exact Nat.mul_lt_mul_right (Nat.zero_lt_of_lt within)
  ext ⟨cell, other⟩
  constructor
  · rintro ⟨less, joined, element, inside, rfl⟩
    rw [built.peers_of_unique member inside unique] at joined
    obtain ⟨next, isOther, rfl⟩ := List.mem_map.mp joined
    have before : element < next := order.mp (Nat.lt_of_add_lt_add_left less)
    exact ⟨(element, next), mem_pairs.mpr ⟨before, (mem_others.mp isOther).1⟩, rfl⟩
  · rintro ⟨⟨first, second⟩, inPairs, same⟩
    cases same
    obtain ⟨less, below⟩ := mem_pairs.mp inPairs
    have inside := Nat.lt_trans less below
    refine ⟨Nat.add_lt_add_left (order.mpr less) start, ?_, first, inside, rfl⟩
    rw [built.peers_of_unique member inside unique]
    exact List.mem_map.mpr ⟨second, mem_others.mpr ⟨below, Nat.ne_of_gt less⟩, rfl⟩

theorem BuiltFrom.ncard_peer_pairs (unique : place ∈ array.uniquePlaces) :
    {pair : Nat × Nat | pair.1 < pair.2 ∧ pair.2 ∈ model.peers.of pair.1 ∧
        ∃ element < array.size, start + array.cellNumber element place = pair.1}.ncard =
      array.size * (array.size - 1) / 2 := by
  have within := lt_of_mem_uniquePlaces unique
  have count : {pair | pair ∈ pairs array.size} = ((pairs array.size).toFinset : Set (Nat × Nat)) :=
    (List.coe_toFinset _).symm
  rw [built.peer_pairs_eq member unique, Set.ncard_image_of_injective, count,
    Set.ncard_coe_finset, List.toFinset_card_of_nodup (nodup_pairs _), length_pairs]
  rintro ⟨first, second⟩ ⟨third, fourth⟩ same
  obtain ⟨firsts, seconds⟩ := Prod.mk.inj same
  obtain ⟨rfl, _⟩ := eq_of_cellNumber_eq within within (Nat.add_left_cancel firsts)
  obtain ⟨rfl, _⟩ := eq_of_cellNumber_eq within within (Nat.add_left_cancel seconds)
  rfl

end Cells

/-- Peers are numbers of one field. -/
theorem BuiltFrom.exists_field_of_peer {cell other : Nat} (joined : other ∈ model.peers.of cell) :
    ∃ array field first second, first ≠ second ∧
      model.number? (.field array first field) = some cell ∧
        model.number? (.field array second field) = some other ∧
          model.cells[other]? = model.cells[cell]? := by
  obtain ⟨start, array, member, place, unique, first, second, firstBelow, secondBelow, different,
    rfl, rfl⟩ := built.mem_peers_iff.mp joined
  have within := lt_of_mem_uniquePlaces unique
  have found := built.record?_eq_some_iff.mpr ⟨member, rfl⟩
  obtain ⟨field, placed⟩ := built.exists_field member within
  refine ⟨array.name, field, first, second, different, number?_field found firstBelow placed,
    number?_field found secondBelow placed, ?_⟩
  rw [built.cells_of_record member firstBelow within,
    built.cells_of_record member secondBelow within]

theorem BuiltFrom.peers_symm {cell other : Nat} (joined : other ∈ model.peers.of cell) :
    cell ∈ model.peers.of other := by
  obtain ⟨start, array, member, place, unique, first, second, firstBelow, secondBelow,
    different, atFirst, atSecond⟩ := built.mem_peers_iff.mp joined
  exact built.mem_peers_iff.mpr ⟨start, array, member, place, unique, second, first,
    secondBelow, firstBelow, different.symm, atSecond, atFirst⟩

theorem BuiltFrom.not_mem_peers_self (cell : Nat) : cell ∉ model.peers.of cell := by
  intro joined
  obtain ⟨array, field, first, second, different, atFirst, atSecond, _⟩ :=
    built.exists_field_of_peer joined
  obtain ⟨_, same, _⟩ := built.field_eq_of_number atFirst atSecond
  exact different same

/-- Slots whose cells are peers are over one domain, and in one field of one array. -/
theorem BuiltFrom.slots_of_peers {cell other : Nat} {slot next : Slot}
    {domain nextDomain : Domain} (joined : other ∈ model.peers.of cell)
    (has : puzzle.Has slot domain) (nextHas : puzzle.Has next nextDomain)
    (numbered : model.number? slot = some cell) (nextNumbered : model.number? next = some other) :
    nextDomain = domain ∧ ∃ array field first second, first ≠ second ∧
      slot = .field array first field ∧ next = .field array second field := by
  obtain ⟨array, field, first, second, different, atFirst, atSecond, alike⟩ :=
    built.exists_field_of_peer joined
  obtain ⟨type, found⟩ := built.cell_of_number has numbered
  obtain ⟨nextType, nextFound⟩ := built.cell_of_number nextHas nextNumbered
  rw [alike, found] at nextFound
  cases nextFound
  exact ⟨rfl, array, field, first, second, different,
    built.number?_injective numbered atFirst, built.number?_injective nextNumbered atSecond⟩

end Built

/-- In every unique field of a record array the peers of a cell are the cells of the other
elements, in ascending order, and no other cell has peers. -/
theorem exactlyPeered_of_build (done : build puzzle = .ok model) :
    model.ExactlyPeered puzzle := by
  have built := builtFrom_of_build done
  have unique_named {schema : Schema} {field : String} (unique : schema.IsUnique field) :
      field ∈ schema.fieldNames := by
    obtain ⟨entry, member, rfl, _⟩ := unique
    exact List.mem_map_of_mem member
  constructor
  case unique_field =>
    intro name schema size declared field unique element inside
    obtain ⟨start, array, place, member, rfl, rfl, placed, resolved⟩ :=
      built.exists_place declared (unique_named unique)
    refine ⟨_, resolved element inside, ?_⟩
    rw [built.peers_of_unique member inside ((mem_uniquePlaces_iff placed).mpr unique),
      List.map_map]
    refine List.map_congr_left fun other isOther => ?_
    exact (resolved other (mem_others.mp isOther).1).symm
  case plain_field =>
    intro name schema size declared field named plain element inside
    obtain ⟨start, array, place, member, rfl, rfl, placed, resolved⟩ :=
      built.exists_place declared named
    exact ⟨_, resolved element inside, built.peers_of_plain member inside (fieldPlace?_lt placed)
      fun unique => plain ((mem_uniquePlaces_iff placed).mp unique)⟩
  case scalar =>
    intro name domain size declared element inside
    obtain ⟨start, array, found, _, rfl⟩ := built.declaresScalars_iff.mp declared
    obtain ⟨member, _⟩ := built.scalar?_eq_some_iff.mp found
    exact ⟨_, built.resolve_of_number (number?_element found inside),
      built.peers_of_scalar (number_lt_of_scalar member inside)⟩
  case symmetric => exact fun cell other => built.peers_symm
  case irreflexive => exact built.not_mem_peers_self
  case pairs =>
    intro name schema size declared field unique
    obtain ⟨start, array, place, member, rfl, rfl, placed, resolved⟩ :=
      built.exists_place declared (unique_named unique)
    rw [← built.ncard_peer_pairs member ((mem_uniquePlaces_iff placed).mpr unique)]
    congr 1
    ext pair
    refine and_congr_right fun _ => and_congr_right fun _ => exists_congr fun element =>
      and_congr_right fun inside => ?_
    rw [resolved element inside, Except.ok.injEq]
  case one_field =>
    intro cell other joined slot domain has resolved next nextDomain nextHas nextResolved
    exact built.slots_of_peers joined has nextHas (built.number?_of_resolve has resolved)
      (built.number?_of_resolve nextHas nextResolved)

def teamPuzzle : Puzzle where
  file := none
  domains := [⟨"Color", ["red", "blue"]⟩, ⟨"Number", ["one", "two", "three"]⟩]
  schemas := [⟨"Player", [⟨"Number", "shirt", true⟩, ⟨"Color", "shoe", false⟩,
    ⟨"Color", "shirt", false⟩, ⟨"Number", "shirt", true⟩]⟩]
  declarations := [⟨"Home", "Player", some 3, ⟨0, 0⟩⟩, ⟨"Ball", "Color", none, ⟨0, 0⟩⟩,
    ⟨"Guests", "Player", some 2, ⟨0, 0⟩⟩]
  rules := []

def playerArray (name : String) (size : Nat) : RecordArray where
  name := name
  schema := ⟨"Player", [⟨"Number", "shirt", true⟩, ⟨"Color", "shoe", false⟩,
    ⟨"Color", "shirt", false⟩, ⟨"Number", "shirt", true⟩]⟩
  fields := [("shirt", ⟨"Number", ⟨"Number", ["one", "two", "three"]⟩⟩),
    ("shoe", ⟨"Color", ⟨"Color", ["red", "blue"]⟩⟩)]
  size := size

def teamModel : Model where
  file := none
  domains := teamPuzzle.domains
  schemas := teamPuzzle.schemas
  scalars := [⟨"Ball", ⟨"Color", ⟨"Color", ["red", "blue"]⟩⟩, 1⟩]
  records := [playerArray "Home" 3, playerArray "Guests" 2]
  rules := []
  cells := ⟨"Color", ⟨"Color", ["red", "blue"]⟩⟩ ::
    ((playerArray "Home" 3).cells ++ (playerArray "Guests" 2).cells)
  peers := [[], [3, 5], [], [1, 5], [], [1, 3], [], [9], [], [7], []]

theorem exactlyPeered_teamModel :
    build teamPuzzle = .ok teamModel ∧ teamModel.ExactlyPeered teamPuzzle := by
  have done : build teamPuzzle = .ok teamModel := by rfl
  exact ⟨done, exactlyPeered_of_build done⟩

end Model

end LogicPuzzle
