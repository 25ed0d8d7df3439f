import LogicPuzzle.Model.Arrays
import Mathlib.Tactic.Tauto

/-!
# Peers of a record array

Connecting pairs of cells makes each cell of a pair a peer of the other one, in
the order of the pairs, and adds no other peers.  In a record array the peers of a cell are therefore the
cells of the same field in all other elements, when the field is unique, and
there are none when it is not.
-/

namespace LogicPuzzle

namespace Peers

variable {peers : Peers} {cell other holder member : Nat} {edges : List (Nat × Nat)}

theorem length_link (peers : Peers) (cell other : Nat) :
    (peers.link cell other).length = peers.length :=
  List.length_modify _ _ _

theorem length_connect (peers : Peers) (cell other : Nat) :
    (peers.connect cell other).length = peers.length := by
  unfold connect
  split
  · rfl
  · rw [length_link, length_link]

def noted (known : List Nat) (number : Nat) : List Nat :=
  if number ∈ known then known else known ++ [number]

def opposite (holder : Nat) (edge : Nat × Nat) : Option Nat :=
  if edge.1 = holder then some edge.2
  else if edge.2 = holder then some edge.1
  else none

theorem opposite_eq_some_iff {edge : Nat × Nat} (different : edge.1 ≠ edge.2) :
    opposite holder edge = some other ↔ edge = (holder, other) ∨ edge = (other, holder) := by
  obtain ⟨first, second⟩ := edge
  grind [opposite]

theorem mem_foldl_noted {known numbers : List Nat} :
    member ∈ numbers.foldl noted known ↔ member ∈ known ∨ member ∈ numbers := by
  induction numbers generalizing known with
  | nil => simp
  | cons number numbers ih =>
      rw [List.foldl_cons, ih, List.mem_cons, noted]
      split
      · next old =>
          constructor
          · tauto
          · rintro (earlier | rfl | later)
            · exact .inl earlier
            · exact .inl old
            · exact .inr later
      · rw [List.mem_append, List.mem_singleton, or_assoc]

theorem of_link (within : cell < peers.length) :
    (peers.link cell other).of holder =
      if cell = holder then noted (peers.of holder) other else peers.of holder := by
  unfold link of
  rw [List.getElem?_modify]
  by_cases same : cell = holder
  · subst same
    rw [List.getElem?_eq_getElem within]
    simp [noted]
  · simp [same]

theorem of_connect (different : cell ≠ other) (cellWithin : cell < peers.length)
    (otherWithin : other < peers.length) :
    (peers.connect cell other).of holder =
      (opposite holder (cell, other)).elim (peers.of holder) (noted (peers.of holder)) := by
  rw [connect, if_neg different, of_link (by rwa [length_link]), of_link cellWithin, opposite]
  by_cases first : cell = holder
  · subst first
    rw [if_neg (Ne.symm different), if_pos rfl, if_pos rfl, Option.elim_some]
  · rw [if_neg first, if_neg first]
    split <;> rfl

theorem of_replicate_nil (count holder : Nat) : Peers.of (List.replicate count []) holder = [] := by
  rw [of, List.getElem?_replicate]
  split <;> rfl

def connectAll (peers : Peers) (edges : List (Nat × Nat)) : Peers :=
  edges.foldl (fun peers edge => peers.connect edge.1 edge.2) peers

theorem length_connectAll (peers : Peers) (edges : List (Nat × Nat)) :
    (peers.connectAll edges).length = peers.length := by
  induction edges generalizing peers with
  | nil => rfl
  | cons edge edges ih => exact (ih _).trans (length_connect peers edge.1 edge.2)

/-- The cells that pairs join a cell with are noted in the order of the pairs. -/
theorem of_connectAll
    (proper : ∀ edge ∈ edges, edge.1 ≠ edge.2 ∧ edge.1 < peers.length ∧ edge.2 < peers.length) :
    (peers.connectAll edges).of holder =
      (edges.filterMap (opposite holder)).foldl noted (peers.of holder) := by
  induction edges generalizing peers with
  | nil => rfl
  | cons edge edges ih =>
      obtain ⟨⟨different, first, second⟩, others⟩ := List.forall_mem_cons.mp proper
      have step : peers.connectAll (edge :: edges) =
          (peers.connect edge.1 edge.2).connectAll edges := rfl
      rw [step, ih (by simpa only [length_connect] using others),
        of_connect different first second, List.filterMap_cons]
      cases opposite holder (edge.1, edge.2) <;> rfl

/-- After all pairs are connected the new peers are those that some pair joins. -/
theorem mem_of_connectAll
    (proper : ∀ edge ∈ edges, edge.1 ≠ edge.2 ∧ edge.1 < peers.length ∧ edge.2 < peers.length) :
    member ∈ (peers.connectAll edges).of holder ↔
      member ∈ peers.of holder ∨ (holder, member) ∈ edges ∨ (member, holder) ∈ edges := by
  rw [of_connectAll proper, mem_foldl_noted, List.mem_filterMap]
  refine or_congr_right ⟨?_, ?_⟩
  · rintro ⟨edge, joined, isOpposite⟩
    rcases (opposite_eq_some_iff (proper edge joined).1).mp isOpposite with rfl | rfl
    · exact .inl joined
    · exact .inr joined
  · rintro (joined | joined)
    · exact ⟨_, joined, (opposite_eq_some_iff (proper _ joined).1).mpr (.inl rfl)⟩
    · exact ⟨_, joined, (opposite_eq_some_iff (proper _ joined).1).mpr (.inr rfl)⟩

end Peers

namespace RecordArray

variable {array : RecordArray} {holder member : Nat}

theorem mem_pairs {bound first second : Nat} :
    (first, second) ∈ pairs bound ↔ first < second ∧ second < bound := by
  simp only [pairs, List.mem_flatMap, List.mem_range, List.mem_map, List.mem_range'_1,
    Prod.mk.injEq]
  constructor
  · rintro ⟨_, _, _, bounds, rfl, rfl⟩
    omega
  · rintro ⟨order, below⟩
    exact ⟨first, by omega, second, by omega, rfl, rfl⟩

def uniquePlaces (array : RecordArray) : List Nat :=
  array.schema.uniqueEntries.filterMap fun entry => array.fieldPlace? entry.name

def edges (array : RecordArray) : List (Nat × Nat) :=
  array.uniquePlaces.flatMap fun field => (pairs array.size).map fun pair =>
    (array.cellNumber pair.1 field, array.cellNumber pair.2 field)

theorem peers_eq_connectAll (array : RecordArray) :
    array.peers = Peers.connectAll (List.replicate array.extent []) array.edges := by
  rw [peers, Peers.connectAll, edges, List.foldl_flatMap]
  congr 1
  funext peers field
  rw [List.foldl_map]
  rfl

theorem length_peers (array : RecordArray) : array.peers.length = array.extent := by
  rw [peers_eq_connectAll, Peers.length_connectAll, List.length_replicate]

theorem fieldPlace?_lt {name : String} {place : Nat} (found : array.fieldPlace? name = some place) :
    place < array.width := by
  obtain ⟨within, _⟩ := List.idxOf?_eq_some_iff.mp found
  rwa [Table.names, List.length_map] at within

theorem lt_of_mem_uniquePlaces {place : Nat} (unique : place ∈ array.uniquePlaces) :
    place < array.width := by
  obtain ⟨entry, _, found⟩ := List.mem_filterMap.mp unique
  exact fieldPlace?_lt found

theorem cellNumber_lt {element place : Nat} (inside : element < array.size)
    (within : place < array.width) : array.cellNumber element place < array.extent := by
  calc array.cellNumber element place
      < element * array.width + array.width := Nat.add_lt_add_left within _
    _ = (element + 1) * array.width := (Nat.succ_mul _ _).symm
    _ ≤ array.extent := Nat.mul_le_mul_right _ inside

theorem cellNumber_ne {first second place : Nat} (order : first < second)
    (within : place < array.width) :
    array.cellNumber first place ≠ array.cellNumber second place := by
  have width : 0 < array.width := Nat.zero_lt_of_lt within
  have less : first * array.width < second * array.width := Nat.mul_lt_mul_of_pos_right order width
  unfold cellNumber
  omega

/-- The number of a cell tells its field. -/
theorem place_eq_of_cellNumber_eq {first second place other : Nat} (within : place < array.width)
    (otherWithin : other < array.width)
    (same : array.cellNumber first place = array.cellNumber second other) : place = other := by
  have remainder {element field : Nat} (inside : field < array.width) :
      array.cellNumber element field % array.width = field := by
    rw [cellNumber, Nat.mul_add_mod', Nat.mod_eq_of_lt inside]
  rw [← remainder within, same, remainder otherWithin]

/-- The number of a cell tells its element and its field. -/
theorem eq_of_cellNumber_eq {first second place other : Nat} (within : place < array.width)
    (otherWithin : other < array.width)
    (same : array.cellNumber first place = array.cellNumber second other) :
    first = second ∧ place = other := by
  obtain rfl := place_eq_of_cellNumber_eq within otherWithin same
  refine ⟨?_, rfl⟩
  rcases Nat.lt_trichotomy first second with order | equal | order
  · exact absurd same (cellNumber_ne order within)
  · exact equal
  · exact absurd same.symm (cellNumber_ne order within)

/-- Only different cells of the array are connected. -/
theorem edges_proper : ∀ edge ∈ array.edges, edge.1 ≠ edge.2 ∧
    edge.1 < (List.replicate array.extent ([] : List Nat)).length ∧
    edge.2 < (List.replicate array.extent ([] : List Nat)).length := by
  intro edge joined
  obtain ⟨place, unique, inPairs⟩ := List.mem_flatMap.mp joined
  obtain ⟨⟨first, second⟩, pair, rfl⟩ := List.mem_map.mp inPairs
  obtain ⟨order, below⟩ := mem_pairs.mp pair
  have within := lt_of_mem_uniquePlaces unique
  rw [List.length_replicate]
  exact ⟨cellNumber_ne order within, cellNumber_lt (Nat.lt_trans order below) within,
    cellNumber_lt below within⟩

/-- The peers of a cell are the cells of its field in the other elements, if the field is unique. -/
theorem mem_of_peers :
    member ∈ array.peers.of holder ↔
      ∃ place ∈ array.uniquePlaces, ∃ first second, first < array.size ∧ second < array.size ∧
        first ≠ second ∧ holder = array.cellNumber first place ∧
          member = array.cellNumber second place := by
  have unconnected : member ∉ Peers.of (List.replicate array.extent []) holder := by
    rw [Peers.of_replicate_nil]
    exact List.not_mem_nil
  rw [peers_eq_connectAll, Peers.mem_of_connectAll edges_proper]
  simp only [unconnected, false_or, edges, List.mem_flatMap, List.mem_map, Prod.exists,
    mem_pairs, Prod.mk.injEq]
  constructor
  · rintro (⟨place, unique, first, second, ⟨order, below⟩, rfl, rfl⟩ |
      ⟨place, unique, first, second, ⟨order, below⟩, rfl, rfl⟩)
    · exact ⟨place, unique, first, second, Nat.lt_trans order below, below, by omega, rfl, rfl⟩
    · exact ⟨place, unique, second, first, below, Nat.lt_trans order below, by omega, rfl, rfl⟩
  · rintro ⟨place, unique, first, second, firstBelow, secondBelow, different, rfl, rfl⟩
    rcases Nat.lt_or_gt_of_ne different with order | order
    · exact .inl ⟨place, unique, first, second, ⟨order, secondBelow⟩, rfl, rfl⟩
    · exact .inr ⟨place, unique, second, first, ⟨order, firstBelow⟩, rfl, rfl⟩

end RecordArray

end LogicPuzzle
