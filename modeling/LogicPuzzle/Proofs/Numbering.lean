import LogicPuzzle.Judgement
import LogicPuzzle.Proofs.Building
import LogicPuzzle.Proofs.Peers
import Mathlib.Data.List.Nodup

/-!
# The numbers of cells

The cells of an array have consecutive numbers, from the number of the array on.
So the cell, the peers and the array at a number can be read off the array that
the number falls into.
-/

namespace LogicPuzzle

/-- Among elements with different keys a search for a key finds its element. -/
theorem find?_eq_some_of_mem {α : Type} (key : α → String) {elements : List α}
    (distinct : (elements.map key).Nodup) {element : α} (member : element ∈ elements) :
    (elements.find? fun other => key other == key element) = some element := by
  induction elements with
  | nil => cases member
  | cons first rest ih =>
      obtain ⟨fresh, restDistinct⟩ := List.nodup_cons.mp distinct
      rcases List.mem_cons.mp member with rfl | inRest
      · exact List.find?_cons_of_pos (by simp)
      · have different : key first ≠ key element := fun same =>
          fresh (same ▸ List.mem_map_of_mem inRest)
        rw [List.find?_cons_of_neg (by simpa using different)]
        exact ih restDistinct inRest

theorem find?_eq_some_iff_mem {α : Type} (key : α → String) {elements : List α}
    (distinct : (elements.map key).Nodup) {element : α} {name : String} :
    (elements.find? fun other => key other == name) = some element ↔
      element ∈ elements ∧ key element = name := by
  constructor
  · intro found
    exact ⟨List.mem_of_find?_eq_some found, by simpa using List.find?_some found⟩
  · rintro ⟨member, rfl⟩
    exact find?_eq_some_of_mem key distinct member

/-- What a list has once is found at its place. -/
theorem idxOf?_eq_some_of_getElem? {names : List String} (distinct : names.Nodup) {name : String}
    {place : Nat} (found : names[place]? = some name) : names.idxOf? name = some place := by
  obtain ⟨inside, rfl⟩ := List.getElem?_eq_some_iff.mp found
  refine List.idxOf?_eq_some_iff.mpr ⟨inside, rfl, ?_⟩
  intro earlier before same
  exact absurd (distinct.getElem_inj_iff.mp same) (Nat.ne_of_lt before)

/-- The place of a label that occurs once is where it stands. -/
theorem Domain.indexOf_eq {domain : Domain} (distinct : domain.labels.Nodup) {place : Int}
    (lower : 0 ≤ place) {label : String} (found : domain.labels[place.toNat]? = some label) :
    domain.indexOf label = place := by
  rw [indexOf, idxOf?_eq_some_of_getElem? distinct found]
  exact Int.toNat_of_nonneg lower

/-- A label stands at the place that it is looked up at, and at no other one. -/
theorem Domain.indexOf_eq_iff {domain : Domain} (distinct : domain.labels.Nodup) {place : Int}
    (lower : 0 ≤ place) {label : String} :
    domain.indexOf label = place ↔ domain.labels[place.toNat]? = some label := by
  constructor
  · intro looked
    rw [indexOf] at looked
    cases found : domain.labels.idxOf? label with
    | none =>
        simp only [found] at looked
        omega
    | some index =>
        rw [found] at looked
        obtain ⟨inside, rfl, _⟩ := List.idxOf?_eq_some_iff.mp found
        rw [← looked, Int.toNat_natCast, List.getElem?_eq_getElem inside]
  · exact indexOf_eq distinct lower

/-- The rows of a table that repeats one row follow each other. -/
theorem getElem?_flatten_replicate {α : Type} {row : List α} {count index place : Nat}
    (inside : index < count) (within : place < row.length) :
    (List.replicate count row).flatten[index * row.length + place]? = row[place]? := by
  induction count generalizing index with
  | zero => cases inside
  | succ count ih =>
      rw [List.replicate_succ, List.flatten_cons]
      cases index with
      | zero => rw [Nat.zero_mul, Nat.zero_add, List.getElem?_append_left within]
      | succ index =>
          have later : row.length ≤ (index + 1) * row.length + place := by
            rw [Nat.succ_mul]
            omega
          have shifted : (index + 1) * row.length + place - row.length =
              index * row.length + place := by
            rw [Nat.succ_mul]
            omega
          rw [List.getElem?_append_right later, shifted, ih (Nat.lt_of_succ_lt_succ inside)]

namespace Model

/-! ## Numbered arrays -/

section Numbered

variable {α β : Type} {extent : α → Nat} {array : α} {start number offset : Nat}

theorem map_numbered (key : α → String) (extent : α → Nat) (start : Nat) (arrays : List α) :
    (numbered extent start arrays).map (fun entry => key entry.2) = arrays.map key := by
  induction arrays generalizing start with
  | nil => rfl
  | cons array arrays ih => rw [numbered, List.map_cons, List.map_cons, ih]

theorem exists_mem_numbered_iff {arrays : List α} :
    (∃ number, (number, array) ∈ numbered extent start arrays) ↔ array ∈ arrays := by
  induction arrays generalizing start with
  | nil => simp [numbered]
  | cons first rest ih =>
      simp only [numbered, List.mem_cons, Prod.mk.injEq]
      constructor
      · rintro ⟨number, ⟨_, rfl⟩ | later⟩
        · exact .inl rfl
        · exact .inr (ih.mp ⟨number, later⟩)
      · rintro (rfl | later)
        · exact ⟨start, .inl ⟨rfl, rfl⟩⟩
        · obtain ⟨number, member⟩ := ih.mpr later
          exact ⟨number, .inr member⟩

/-- Arrays with different names are found by their names. -/
theorem find?_numbered_eq_some_iff (key : α → String) {arrays : List α}
    (distinct : (arrays.map key).Nodup) {name : String} :
    ((numbered extent start arrays).find? fun entry => key entry.2 == name) =
        some (number, array) ↔
      (number, array) ∈ numbered extent start arrays ∧ key array = name := by
  rw [← map_numbered key extent start arrays] at distinct
  exact find?_eq_some_iff_mem (fun entry : Nat × α => key entry.2) distinct

/-- The pieces of numbered arrays stand at the numbers of the arrays. -/
theorem getElem?_flatMap_numbered {arrays : List α} (piece : Nat × α → List β)
    (fits : ∀ entry ∈ numbered extent start arrays, (piece entry).length = extent entry.2)
    (member : (number, array) ∈ numbered extent start arrays) (inside : offset < extent array)
    (lead trail : List β) (leadLength : lead.length = start) :
    (lead ++ (numbered extent start arrays).flatMap piece ++ trail)[number + offset]? =
      (piece (number, array))[offset]? := by
  induction arrays generalizing start lead with
  | nil => cases member
  | cons first rest ih =>
      rw [numbered] at fits member ⊢
      obtain ⟨firstFits, restFits⟩ := List.forall_mem_cons.mp fits
      rw [List.flatMap_cons, ← List.append_assoc lead]
      rcases List.mem_cons.mp member with same | later
      · cases same
        rw [← firstFits] at inside
        rw [List.append_assoc, List.append_assoc, List.getElem?_append_right (by omega),
          List.getElem?_append_left (by omega)]
        congr 1
        omega
      · have nextLength : (lead ++ piece (start, first)).length = start + extent first := by
          rw [List.length_append, leadLength, firstFits]
        exact ih restFits later _ nextLength

def totalExtent (extent : α → Nat) (arrays : List α) : Nat :=
  arrays.foldr (fun array count => extent array + count) 0

def later (shift : Nat) (entry : Nat × α) : Nat × α :=
  (shift + entry.1, entry.2)

theorem numbered_append (extent : α → Nat) (start : Nat) (arrays more : List α) :
    numbered extent start (arrays ++ more) =
      numbered extent start arrays ++ numbered extent (start + totalExtent extent arrays) more := by
  induction arrays generalizing start with
  | nil => rfl
  | cons array arrays ih =>
      have total : totalExtent extent (array :: arrays) =
          extent array + totalExtent extent arrays := rfl
      rw [List.cons_append, numbered, ih, numbered, List.cons_append, total, Nat.add_assoc]

theorem numbered_later (extent : α → Nat) (shift start : Nat) (arrays : List α) :
    numbered extent (shift + start) arrays = (numbered extent start arrays).map (later shift) := by
  induction arrays generalizing start with
  | nil => rfl
  | cons array arrays ih =>
      rw [numbered, numbered, List.map_cons, ← ih, Nat.add_assoc]
      rfl

theorem totalExtent_append (extent : α → Nat) (arrays more : List α) :
    totalExtent extent (arrays ++ more) = totalExtent extent arrays + totalExtent extent more := by
  induction arrays with
  | nil => exact (Nat.zero_add _).symm
  | cons array arrays ih =>
      have total (others : List α) : totalExtent extent (array :: others) =
          extent array + totalExtent extent others := rfl
      rw [List.cons_append, total, total, ih, Nat.add_assoc]

/-- A number below the total falls into an array. -/
theorem exists_mem_numbered {arrays : List α} (fromStart : start ≤ number)
    (below : number < start + totalExtent extent arrays) :
    ∃ entry ∈ numbered extent start arrays, ∃ offset, offset < extent entry.2 ∧
      number = entry.1 + offset := by
  induction arrays generalizing start with
  | nil =>
      change number < start + 0 at below
      omega
  | cons first rest ih =>
      have total : totalExtent extent (first :: rest) =
          extent first + totalExtent extent rest := rfl
      rw [numbered]
      by_cases here : number < start + extent first
      · exact ⟨(start, first), List.mem_cons_self, number - start, by dsimp only; omega, by
          dsimp only
          omega⟩
      · have beyond : start + extent first ≤ number := Nat.le_of_not_lt here
        have within : number < start + extent first + totalExtent extent rest := by omega
        obtain ⟨entry, member, found⟩ := ih beyond within
        exact ⟨entry, List.mem_cons_of_mem _ member, found⟩

/-- The cells of a numbered array lie between the ends of the numbering. -/
theorem bounds_of_mem_numbered {arrays : List α}
    (member : (number, array) ∈ numbered extent start arrays) :
    start ≤ number ∧ number + extent array ≤ start + totalExtent extent arrays := by
  induction arrays generalizing start with
  | nil => cases member
  | cons first rest ih =>
      have total : totalExtent extent (first :: rest) =
          extent first + totalExtent extent rest := rfl
      rcases List.mem_cons.mp member with same | others
      · cases same
        omega
      · have bounds := ih others
        omega

/-- A number falls into one array only. -/
theorem eq_of_mem_numbered {arrays : List α} {first second : Nat × α} {place : Nat}
    (firstMember : first ∈ numbered extent start arrays)
    (secondMember : second ∈ numbered extent start arrays) (inside : offset < extent first.2)
    (otherInside : place < extent second.2) (same : first.1 + offset = second.1 + place) :
    first = second ∧ offset = place := by
  induction arrays generalizing start with
  | nil => cases firstMember
  | cons head rest ih =>
      rcases List.mem_cons.mp firstMember with rfl | firstLater
      · rcases List.mem_cons.mp secondMember with rfl | secondLater
        · exact ⟨rfl, Nat.add_left_cancel same⟩
        · have bounds := bounds_of_mem_numbered secondLater
          dsimp only at inside same
          omega
      · rcases List.mem_cons.mp secondMember with rfl | secondLater
        · have bounds := bounds_of_mem_numbered firstLater
          dsimp only at otherInside same
          omega
        · exact ih firstLater secondLater

theorem length_flatMap_numbered {arrays : List α} {piece : Nat × α → List β}
    (fits : ∀ entry ∈ numbered extent start arrays, (piece entry).length = extent entry.2) :
    ((numbered extent start arrays).flatMap piece).length = totalExtent extent arrays := by
  induction arrays generalizing start with
  | nil => rfl
  | cons first rest ih =>
      rw [numbered] at fits ⊢
      obtain ⟨firstFits, restFits⟩ := List.forall_mem_cons.mp fits
      rw [List.flatMap_cons, List.length_append, firstFits, ih restFits]
      rfl

end Numbered

/-! ## The arrays of a built model -/

variable {model : Model} {puzzle : Puzzle} {start offset : Nat} {name : String}

theorem BuiltFrom.record?_eq_some_iff (built : model.BuiltFrom puzzle) {array : RecordArray} :
    model.record? name = some (start, array) ↔
      (start, array) ∈ model.numberedRecords ∧ array.name = name :=
  find?_numbered_eq_some_iff RecordArray.name (List.nodup_append.mp built.arrays_distinct).2.1

theorem BuiltFrom.scalar?_eq_some_iff (built : model.BuiltFrom puzzle) {array : ScalarArray} :
    model.scalar? name = some (start, array) ↔
      (start, array) ∈ model.numberedScalars ∧ array.name = name :=
  find?_numbered_eq_some_iff ScalarArray.name (List.nodup_append.mp built.arrays_distinct).1

theorem mem_arrayNames_of_scalar {entry : Nat × ScalarArray}
    (member : entry ∈ model.numberedScalars) : entry.2.name ∈ model.arrayNames :=
  List.mem_append_left _ (List.mem_map_of_mem (exists_mem_numbered_iff.mp ⟨entry.1, member⟩))

theorem mem_arrayNames_of_record {entry : Nat × RecordArray}
    (member : entry ∈ model.numberedRecords) : entry.2.name ∈ model.arrayNames :=
  List.mem_append_right _ (List.mem_map_of_mem (exists_mem_numbered_iff.mp ⟨entry.1, member⟩))

theorem scalar?_eq_none (absent : name ∉ model.arrayNames) : model.scalar? name = none := by
  refine List.find?_eq_none.mpr fun entry member same => absent ?_
  rw [← beq_iff_eq.mp same]
  exact mem_arrayNames_of_scalar member

theorem record?_eq_none (absent : name ∉ model.arrayNames) : model.record? name = none := by
  refine List.find?_eq_none.mpr fun entry member same => absent ?_
  rw [← beq_iff_eq.mp same]
  exact mem_arrayNames_of_record member

/-- No record array has the name of a scalar array. -/
theorem BuiltFrom.record?_eq_none_of_scalar (built : model.BuiltFrom puzzle) {array : ScalarArray}
    (found : model.scalar? name = some (start, array)) : model.record? name = none := by
  obtain ⟨member, rfl⟩ := built.scalar?_eq_some_iff.mp found
  cases other : model.record? array.name with
  | none => rfl
  | some entry =>
      rcases entry with ⟨number, records⟩
      obtain ⟨recordsMember, same⟩ := built.record?_eq_some_iff.mp other
      have inScalars := List.mem_map_of_mem (f := (·.name))
        (exists_mem_numbered_iff.mp ⟨start, member⟩)
      have inRecords := List.mem_map_of_mem (f := (·.name))
        (exists_mem_numbered_iff.mp ⟨number, recordsMember⟩)
      exact absurd same.symm
        ((List.nodup_append.mp built.arrays_distinct).2.2 _ inScalars _ inRecords)

def recordCount (model : Model) : Nat :=
  totalExtent RecordArray.extent model.records

def scalarCells (model : Model) : List Cell :=
  model.numberedScalars.flatMap fun entry => entry.2.cells

def recordCells (model : Model) : List Cell :=
  model.numberedRecords.flatMap fun entry => entry.2.cells

theorem flatMap_numbered {α β : Type} (piece : α → List β) (extent : α → Nat) (start : Nat)
    (arrays : List α) :
    ((numbered extent start arrays).flatMap fun entry => piece entry.2) = arrays.flatMap piece := by
  induction arrays generalizing start with
  | nil => rfl
  | cons array arrays ih => rw [numbered, List.flatMap_cons, List.flatMap_cons, ih]

theorem BuiltFrom.cells_eq (built : model.BuiltFrom puzzle) :
    model.cells = model.scalarCells ++ model.recordCells := by
  rw [built.cells, allCells, scalarCells, recordCells, numberedScalars, numberedRecords,
    flatMap_numbered, flatMap_numbered]

theorem length_scalarCells (model : Model) : model.scalarCells.length = model.scalarCount :=
  length_flatMap_numbered fun _ _ => List.length_replicate

theorem length_cells_record (array : RecordArray) : array.cells.length = array.extent := by
  simp [RecordArray.cells, RecordArray.extent, RecordArray.width]

theorem length_recordCells (model : Model) : model.recordCells.length = model.recordCount :=
  length_flatMap_numbered fun entry _ => length_cells_record entry.2

theorem BuiltFrom.length_cells (built : model.BuiltFrom puzzle) :
    model.cells.length = model.scalarCount + model.recordCount := by
  rw [built.cells_eq, List.length_append, length_scalarCells, length_recordCells]

theorem number_lt_of_scalar {array : ScalarArray}
    (member : (start, array) ∈ model.numberedScalars) (inside : offset < array.size) :
    start + offset < model.scalarCount := by
  have bounds : 0 ≤ start ∧ start + array.size ≤ 0 + model.scalarCount :=
    bounds_of_mem_numbered member
  omega

theorem number_bounds_of_record {array : RecordArray}
    (member : (start, array) ∈ model.numberedRecords) (inside : offset < array.extent) :
    model.scalarCount ≤ start + offset ∧
      start + offset < model.scalarCount + model.recordCount := by
  have bounds : model.scalarCount ≤ start ∧
      start + array.extent ≤ model.scalarCount + model.recordCount :=
    bounds_of_mem_numbered member
  omega

/-- Every element of a scalar array has the cell of the array. -/
theorem BuiltFrom.cells_of_scalar (built : model.BuiltFrom puzzle) {array : ScalarArray}
    (member : (start, array) ∈ model.numberedScalars) (inside : offset < array.size) :
    model.cells[start + offset]? = some array.cell := by
  have placed := getElem?_flatMap_numbered (fun entry => entry.2.cells)
    (fun _ _ => List.length_replicate) member inside [] model.recordCells rfl
  rw [built.cells_eq]
  apply placed.trans
  rw [ScalarArray.cells, List.getElem?_replicate, if_pos inside]

/-- Every element of a record array has the cells of the fields. -/
theorem BuiltFrom.cells_of_record (built : model.BuiltFrom puzzle) {array : RecordArray}
    (member : (start, array) ∈ model.numberedRecords) {element place : Nat}
    (inside : element < array.size) (within : place < array.width) :
    model.cells[start + array.cellNumber element place]? = array.fields[place]?.map (·.2) := by
  have placed := getElem?_flatMap_numbered (fun entry => entry.2.cells)
    (fun entry _ => length_cells_record entry.2) member
    (RecordArray.cellNumber_lt inside within) model.scalarCells [] model.length_scalarCells
  rw [built.cells_eq, ← List.append_nil (model.scalarCells ++ model.recordCells)]
  apply placed.trans
  have row : (array.fields.map (·.2)).length = array.width := List.length_map _
  rw [RecordArray.cells, RecordArray.cellNumber, ← row, getElem?_flatten_replicate inside (by
    rw [row]
    exact within), List.getElem?_map]

/-! ## The peers of a built model -/

theorem length_peers_piece (entry : Nat × RecordArray) :
    (entry.2.peers.map fun peers => peers.map (entry.1 + ·)).length = entry.2.extent := by
  rw [List.length_map, RecordArray.length_peers]

theorem BuiltFrom.peers_of_record (built : model.BuiltFrom puzzle) {array : RecordArray}
    (member : (start, array) ∈ model.numberedRecords) (inside : offset < array.extent) :
    model.peers.of (start + offset) = (array.peers.of offset).map (start + ·) := by
  have placed := getElem?_flatMap_numbered
    (fun entry => entry.2.peers.map fun peers => peers.map (entry.1 + ·))
    (fun entry _ => length_peers_piece entry) member inside (List.replicate model.scalarCount [])
    [] List.length_replicate
  have within : offset < array.peers.length := by
    rw [RecordArray.length_peers]
    exact inside
  rw [List.append_nil] at placed
  rw [Peers.of, built.peers, allPeers, numberedRecords, placed, List.getElem?_map, Peers.of,
    List.getElem?_eq_getElem within]
  rfl

theorem BuiltFrom.peers_of_scalar (built : model.BuiltFrom puzzle)
    (inside : offset < model.scalarCount) : model.peers.of offset = [] := by
  rw [Peers.of, built.peers, allPeers, List.getElem?_append_left (by simpa using inside),
    List.getElem?_replicate, if_pos inside, Option.getD_some]

theorem BuiltFrom.length_peers (built : model.BuiltFrom puzzle) :
    model.peers.length = model.scalarCount + totalExtent RecordArray.extent model.records := by
  rw [built.peers, allPeers, List.length_append, List.length_replicate, numberedRecords,
    length_flatMap_numbered fun entry _ => length_peers_piece entry]

/-- Two cells of a built model are peers if they hold one unique field of two elements. -/
theorem BuiltFrom.mem_peers_iff (built : model.BuiltFrom puzzle) {holder member : Nat} :
    member ∈ model.peers.of holder ↔
      ∃ start array, (start, array) ∈ model.numberedRecords ∧
        ∃ place ∈ array.uniquePlaces, ∃ first second, first < array.size ∧ second < array.size ∧
          first ≠ second ∧ holder = start + array.cellNumber first place ∧
            member = start + array.cellNumber second place := by
  constructor
  · intro joined
    have below : holder < model.peers.length := by
      by_contra outside
      rw [Peers.of, List.getElem?_eq_none (Nat.le_of_not_lt outside)] at joined
      exact List.not_mem_nil joined
    rw [built.length_peers] at below
    by_cases scalar : holder < model.scalarCount
    · rw [built.peers_of_scalar scalar] at joined
      exact absurd joined List.not_mem_nil
    · obtain ⟨⟨start, array⟩, arrayMember, offset, inside, rfl⟩ :=
        exists_mem_numbered (Nat.le_of_not_lt scalar) below
      rw [built.peers_of_record arrayMember inside] at joined
      obtain ⟨other, otherJoined, rfl⟩ := List.mem_map.mp joined
      obtain ⟨place, unique, first, second, firstBelow, secondBelow, different, rfl, rfl⟩ :=
        RecordArray.mem_of_peers.mp otherJoined
      exact ⟨start, array, arrayMember, place, unique, first, second, firstBelow, secondBelow,
        different, rfl, rfl⟩
  · rintro ⟨start, array, arrayMember, place, unique, first, second, firstBelow, secondBelow,
      different, rfl, rfl⟩
    have within := RecordArray.lt_of_mem_uniquePlaces unique
    rw [built.peers_of_record arrayMember (RecordArray.cellNumber_lt firstBelow within)]
    exact List.mem_map_of_mem (RecordArray.mem_of_peers.mpr
      ⟨place, unique, first, second, firstBelow, secondBelow, different, rfl, rfl⟩)

end Model

end LogicPuzzle
