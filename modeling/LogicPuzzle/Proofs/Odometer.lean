import LogicPuzzle.Search
import Mathlib.Data.List.Forall2
import Mathlib.Logic.ExistsUnique

/-!
# The odometer

The assignments whose places lie in their domains are numbered in the order in
which a search walks through them.  The place of the first cell is the least
significant digit of the number, and each cell counts up to the size of its
domain.  Turning the odometer is adding one to the number, modulo the number of
assignments.
-/

namespace LogicPuzzle

/-- Every cell holds a place of its own domain. -/
def Assignment.InRange (cells : List Cell) (assignment : Assignment) : Prop :=
  List.Forall₂ (fun cell place => 0 ≤ place ∧ place < (cell.size : Int)) cells assignment

theorem Assignment.InRange.placeOf_bounds {cells : List Cell} {assignment : Assignment}
    (inRange : assignment.InRange cells) {number : Nat} {cell : Cell}
    (found : cells[number]? = some cell) :
    0 ≤ assignment.placeOf number ∧ assignment.placeOf number < cell.size := by
  unfold Assignment.placeOf
  induction inRange generalizing number with
  | nil => simp at found
  | @cons first place cells places bounds _ ih =>
      cases number with
      | zero =>
          rw [List.getElem?_cons_zero] at found
          cases found
          exact bounds
      | succ number => exact ih found

/-- An assignment is in range when it has a place for every cell, which is one of its domain. -/
theorem Assignment.inRange_iff {cells : List Cell} {assignment : Assignment} :
    assignment.InRange cells ↔ assignment.length = cells.length ∧
      ∀ number cell, cells[number]? = some cell →
        0 ≤ assignment.placeOf number ∧ assignment.placeOf number < cell.size := by
  constructor
  · intro inRange
    exact ⟨inRange.length_eq.symm, fun number cell => inRange.placeOf_bounds⟩
  · rintro ⟨count, bounds⟩
    refine List.forall₂_iff_get.mpr ⟨count.symm, fun number below within => ?_⟩
    have held : assignment.placeOf number = assignment[number] := by
      rw [placeOf, List.getElem?_eq_getElem within, Option.getD_some]
    have place := bounds number _ (List.getElem?_eq_getElem below)
    rwa [held] at place

/-- Assignments to as many cells that give each the same place are the same. -/
theorem Assignment.ext_placeOf {first second : Assignment} (count : first.length = second.length)
    (same : ∀ cell < first.length, first.placeOf cell = second.placeOf cell) :
    first = second := by
  refine List.ext_getElem count fun cell inside within => ?_
  have held := same cell inside
  rwa [placeOf, placeOf, List.getElem?_eq_getElem inside, List.getElem?_eq_getElem within,
    Option.getD_some, Option.getD_some] at held

namespace Odometer

/-- How many assignments in range some cells have. -/
def span (cells : List Cell) : Nat :=
  cells.foldr (fun cell count => cell.size * count) 1

/-- The assignment of a rank. -/
def places : List Cell → Nat → Assignment
  | [], _ => []
  | cell :: cells, rank => ((rank % cell.size : Nat) : Int) :: places cells (rank / cell.size)

/-- The rank of an assignment. -/
def rank : List Cell → Assignment → Nat
  | cell :: cells, place :: places => place.toNat + cell.size * rank cells places
  | _, _ => 0

variable {cells : List Cell} {assignment : Assignment} {number : Nat}

theorem span_cons (cell : Cell) (cells : List Cell) :
    span (cell :: cells) = cell.size * span cells := rfl

theorem span_pos (labelled : ∀ cell ∈ cells, 0 < cell.size) : 0 < span cells := by
  induction cells with
  | nil => exact Nat.one_pos
  | cons cell cells ih =>
      obtain ⟨first, others⟩ := List.forall_mem_cons.mp labelled
      exact Nat.mul_pos first (ih others)

theorem places_zero (cells : List Cell) : places cells 0 = cells.map fun _ => 0 := by
  induction cells with
  | nil => rfl
  | cons cell cells ih => simp [places, ih]

theorem places_inRange (labelled : ∀ cell ∈ cells, 0 < cell.size) (number : Nat) :
    Assignment.InRange cells (places cells number) := by
  induction cells generalizing number with
  | nil => exact .nil
  | cons cell cells ih =>
      obtain ⟨first, others⟩ := List.forall_mem_cons.mp labelled
      have below : number % cell.size < cell.size := Nat.mod_lt _ first
      exact .cons ⟨Int.natCast_nonneg _, Int.ofNat_lt.mpr below⟩ (ih others _)

/-- A number with a digit below the base is below a bound if its other digits are. -/
theorem digits_lt {base low high bound : Nat} (below : low < base) (less : high < bound) :
    low + base * high < base * bound := by
  calc low + base * high
      < base + base * high := Nat.add_lt_add_right below _
    _ = base * (high + 1) := by rw [Nat.mul_succ, Nat.add_comm]
    _ ≤ base * bound := Nat.mul_le_mul_left _ less

theorem rank_lt (inRange : Assignment.InRange cells assignment) :
    rank cells assignment < span cells := by
  induction inRange with
  | nil => exact Nat.one_pos
  | @cons cell place cells places bounds _ ih =>
      have digit : place.toNat < cell.size := by omega
      exact digits_lt digit ih

/-- A number splits into its lowest digit and the number of the other digits. -/
theorem places_cons {cell : Cell} {digit : Nat} (below : digit < cell.size) (rest : Nat) :
    places (cell :: cells) (digit + cell.size * rest) = (digit : Int) :: places cells rest := by
  have size : 0 < cell.size := Nat.zero_lt_of_lt below
  have low : (digit + cell.size * rest) % cell.size = digit := by
    rw [Nat.add_mul_mod_self_left, Nat.mod_eq_of_lt below]
  have high : (digit + cell.size * rest) / cell.size = rest := by
    rw [Nat.add_mul_div_left _ _ size, Nat.div_eq_of_lt below, Nat.zero_add]
  rw [places, low, high]

theorem places_rank (inRange : Assignment.InRange cells assignment) :
    places cells (rank cells assignment) = assignment := by
  induction inRange with
  | nil => rfl
  | @cons cell place cells others bounds _ ih =>
      have digit : place.toNat < cell.size := by omega
      rw [rank, places_cons digit, ih, Int.toNat_of_nonneg bounds.1]

theorem rank_places (bound : number < span cells) : rank cells (places cells number) = number := by
  induction cells generalizing number with
  | nil =>
      have zero : number = 0 := Nat.lt_one_iff.mp bound
      rw [zero]
      rfl
  | cons cell cells ih =>
      have rest : number / cell.size < span cells := Nat.div_lt_of_lt_mul bound
      rw [places, rank, ih rest, Int.toNat_natCast]
      exact Nat.mod_add_div number cell.size

/-! ## Cells in a row -/

theorem span_append (cells more : List Cell) : span (cells ++ more) = span cells * span more := by
  induction cells with
  | nil => exact (Nat.one_mul _).symm
  | cons cell cells ih => rw [List.cons_append, span_cons, span_cons, ih, Nat.mul_assoc]

/-- The cells in front are the lower digits of a rank. -/
theorem rank_append {more : List Cell} {others : Assignment}
    (inRange : Assignment.InRange cells assignment) :
    rank (cells ++ more) (assignment ++ others) =
      rank cells assignment + span cells * rank more others := by
  induction inRange with
  | nil => simp [rank, span]
  | @cons cell place cells places _ _ ih =>
      rw [List.cons_append, List.cons_append, rank, ih, rank, span_cons, Nat.mul_add,
        Nat.mul_assoc, Nat.add_assoc]

theorem exists_of_inRange_append {more : List Cell}
    (inRange : Assignment.InRange (cells ++ more) assignment) :
    ∃ places others, assignment = places ++ others ∧ Assignment.InRange cells places ∧
      Assignment.InRange more others := by
  induction cells generalizing assignment with
  | nil => exact ⟨[], assignment, rfl, .nil, inRange⟩
  | cons cell cells ih =>
      cases inRange with
      | @cons _ place _ _ bounds rest =>
          obtain ⟨places, others, rfl, front, back⟩ := ih rest
          exact ⟨place :: places, others, rfl, .cons bounds front, back⟩

/-- Two numbers of which the lower digit is below the base compare as their digits do. -/
theorem digits_le_iff {base low high otherLow otherHigh : Nat} (below : low < base)
    (otherBelow : otherLow < base) :
    low + base * high ≤ otherLow + base * otherHigh ↔
      high < otherHigh ∨ high = otherHigh ∧ low ≤ otherLow := by
  rcases Nat.lt_trichotomy high otherHigh with less | rfl | more
  · have carried : low + base * high < base * otherHigh := digits_lt below less
    omega
  · omega
  · have carried : otherLow + base * otherHigh < base * high := digits_lt otherBelow more
    omega

/-! ## Turning -/

/-- Ranks below the number of assignments number the assignments in range, each one once. -/
theorem inRange_iff_existsUnique_rank (labelled : ∀ cell ∈ cells, 0 < cell.size) :
    Assignment.InRange cells assignment ↔
      ∃! number, number < span cells ∧ places cells number = assignment := by
  constructor
  · intro inRange
    refine ⟨rank cells assignment, ⟨rank_lt inRange, places_rank inRange⟩, ?_⟩
    rintro number ⟨bound, rfl⟩
    exact (rank_places bound).symm
  · rintro ⟨number, ⟨_, rfl⟩, _⟩
    exact places_inRange labelled number

/-- Turning goes to the next rank, and from the last rank back to the first. -/
theorem turn_places (bound : number < span cells) :
    Search.turn cells (places cells number) =
      (decide (number + 1 < span cells), places cells ((number + 1) % span cells)) := by
  induction cells generalizing number with
  | nil => simp [Search.turn, places, span]
  | cons cell cells ih =>
      have size : 0 < cell.size := Nat.pos_of_mul_pos_right (Nat.zero_lt_of_lt bound)
      obtain ⟨digit, rest, below, rfl⟩ :
          ∃ digit rest, digit < cell.size ∧ number = digit + cell.size * rest :=
        ⟨number % cell.size, number / cell.size, Nat.mod_lt _ size,
          (Nat.mod_add_div number cell.size).symm⟩
      have restBound : rest < span cells :=
        Nat.lt_of_mul_lt_mul_left (Nat.lt_of_le_of_lt (Nat.le_add_left _ digit) bound)
      rw [places_cons below, Search.turn, span_cons]
      by_cases more : digit + 1 < cell.size
      · -- The first wheel moves on, and no other one does.
        have next : digit + 1 + cell.size * rest < cell.size * span cells :=
          digits_lt more restBound
        have same : digit + cell.size * rest + 1 = digit + 1 + cell.size * rest := by omega
        rw [if_pos (by omega), same, Nat.mod_eq_of_lt next, places_cons more,
          decide_eq_true next]
        rfl
      · -- The first wheel comes back to zero and carries into the others.
        have last : digit + 1 = cell.size := by omega
        have carry : digit + cell.size * rest + 1 = cell.size * (rest + 1) := by
          rw [Nat.mul_succ]
          omega
        have wrapped : cell.size * (rest + 1) % (cell.size * span cells) =
            0 + cell.size * ((rest + 1) % span cells) := by
          rw [Nat.mul_mod_mul_left, Nat.zero_add]
        have within : cell.size * (rest + 1) < cell.size * span cells ↔ rest + 1 < span cells :=
          Nat.mul_lt_mul_left size
        rw [if_neg (by omega), ih restBound, carry, wrapped, places_cons size]
        simp only [within]
        rfl

end Odometer

end LogicPuzzle
