import LogicPuzzle.Proofs.Slots

/-!
# Checked references

A reference selects an element at the very index that it gives, or that the
binding gives, or it is at fault.  Record arrays check the index at both ends.
Scalar arrays check it at the upper end only: a negative index counts from the
end, and one that goes past the start is not even a fault.  Neither is an index
outside of its array that is too long for the words of the fault.
-/

namespace LogicPuzzle

namespace Model

variable {model : Model} {binding : Option Binding} {reference : Reference} {slot other : Slot}

/-- The slot that a reference selects: in the array of its name, at the index that it gives or
that the binding gives, inside the array, and with a field that the array has. -/
inductive Picks (model : Model) (binding : Option Binding) (reference : Reference) :
    Slot → Prop where
  | element {start index : Nat} {array : ScalarArray}
      (unrecorded : model.record? reference.name = none)
      (found : model.scalar? reference.name = some (start, array))
      (given : reference.index? = some (index : Int)) (inside : index < array.size) :
      Picks model binding reference (.element reference.name index)
  | field {start index : Nat} {array : RecordArray} {name : String}
      (found : model.record? reference.name = some (start, array))
      (selects : reference.Selects binding index) (inside : index < array.size)
      (named : reference.field? = some name) (known : name ∈ array.fields.names) :
      Picks model binding reference (.field reference.name index name)

/-- A reference gives the cell of the slot that it selects, or is at fault as it selects none.
The fault cannot be put in words if its index is too long. -/
inductive Checked (model : Model) (binding : Option Binding) (reference : Reference) : Prop where
  | inside {slot : Slot} {cell : Nat} (picks : model.Picks binding reference slot)
      (numbered : model.number? slot = some cell)
      (resolved : model.resolve binding reference = .ok cell)
  | fault {fault : ModelFault} (nothing : ∀ slot, ¬ model.Picks binding reference slot)
      (resolved : model.resolve binding reference =
        .error (.fault (model.placed fault reference.position)))
  | numeral {index : Int} (nothing : ∀ slot, ¬ model.Picks binding reference slot)
      (exceeds : model.Exceeds binding reference index) (long : Numeral.tooLong index = true)
      (resolved : model.resolve binding reference = .error .numeral)

structure CountsBack (model : Model) (reference : Reference) (array : ScalarArray) (index : Int) :
    Prop where
  unrecorded : model.record? reference.name = none
  found : ∃ start, model.scalar? reference.name = some (start, array)
  given : reference.index? = some index
  negative : index < 0

def Forward (model : Model) (reference : Reference) : Prop :=
  ∀ array index, ¬ model.CountsBack reference array index

/-! ## Single references -/

theorem fieldPlace?_of_mem {array : RecordArray} {name : String}
    (known : name ∈ array.fields.names) : ∃ place, array.fieldPlace? name = some place := by
  have isSome : (array.fields.names.idxOf? name).isSome := List.isSome_idxOf?.mpr known
  exact Option.isSome_iff_exists.mp isSome

theorem mem_of_fieldPlace? {array : RecordArray} {name : String} {place : Nat}
    (placed : array.fieldPlace? name = some place) : name ∈ array.fields.names :=
  List.isSome_idxOf?.mp (Option.isSome_iff_exists.mpr ⟨place, placed⟩)

/-- A reference that selects a slot gives the cell of this slot. -/
theorem Picks.resolve (picks : model.Picks binding reference slot) :
    ∃ cell, model.number? slot = some cell ∧ model.resolve binding reference = .ok cell := by
  cases picks with
  | @element start index array unrecorded found given inside =>
      refine ⟨start + index, number?_element found inside, ?_⟩
      have within : ¬ (array.size : Int) ≤ (index : Int) := by omega
      rw [resolve_of_scalar unrecorded found, resolveScalar, given]
      simp only [if_neg within, fromStart?_natCast]
  | @field start index array name found selects inside named known =>
      obtain ⟨place, placed⟩ := fieldPlace?_of_mem known
      refine ⟨start + array.cellNumber index place, number?_field found inside placed, ?_⟩
      have within : ¬ ((index : Int) < 0 ∨ (array.size : Int) ≤ (index : Int)) := by omega
      rw [resolve_of_record found, resolveRecord, selects_iff.mp selects]
      simp only [if_neg within, named, placed, Int.toNat_natCast]

theorem Picks.checked (picks : model.Picks binding reference slot) :
    model.Checked binding reference := by
  obtain ⟨cell, numbered, resolved⟩ := picks.resolve
  exact .inside picks numbered resolved

/-- A reference breaks down exactly over an index outside of its array that is too long. -/
theorem resolve_numeral_iff :
    model.resolve binding reference = .error .numeral ↔
      ∃ index, model.Exceeds binding reference index ∧ Numeral.tooLong index = true := by
  constructor
  · exact exceeds_of_numeral
  · rintro ⟨index, exceeds, long⟩
    obtain ⟨fault, same, resolved⟩ := exceeds.resolve
    rw [resolved, unresolved_of_long (same.trans long)]

theorem checked_of_fault {fault : ModelFault}
    (resolved : model.resolve binding reference = .error (model.unresolved reference fault)) :
    model.Checked binding reference := by
  have nothing : ∀ slot, ¬ model.Picks binding reference slot := by
    intro slot picks
    obtain ⟨cell, _, found⟩ := picks.resolve
    cases resolved.symm.trans found
  cases long : fault.hasLongNumber with
  | false =>
      rw [unresolved_of_short long] at resolved
      exact .fault nothing resolved
  | true =>
      rw [unresolved_of_long long] at resolved
      obtain ⟨index, exceeds, tooLong⟩ := resolve_numeral_iff.mp resolved
      exact .numeral nothing exceeds tooLong resolved

theorem checked_of_record {start : Nat} {array : RecordArray}
    (found : model.record? reference.name = some (start, array)) :
    model.Checked binding reference := by
  have resolved : model.resolve binding reference = _ := resolve_of_record found
  rw [resolveRecord] at resolved
  split at resolved
  · exact checked_of_fault resolved
  · next index selected =>
      split at resolved
      · exact checked_of_fault resolved
      · next within =>
          split at resolved
          · exact checked_of_fault resolved
          · next name named =>
              split at resolved
              · exact checked_of_fault resolved
              · next place placed =>
                  have lower : 0 ≤ index := by omega
                  obtain ⟨natural, rfl⟩ := Int.eq_ofNat_of_zero_le lower
                  have inside : natural < array.size := by omega
                  exact (Picks.field found (selects_iff.mpr selected) inside named
                    (mem_of_fieldPlace? placed)).checked

theorem checked_of_scalar {start : Nat} {array : ScalarArray} (forward : model.Forward reference)
    (unrecorded : model.record? reference.name = none)
    (found : model.scalar? reference.name = some (start, array)) :
    model.Checked binding reference := by
  have resolved : model.resolve binding reference = _ := resolve_of_scalar unrecorded found
  rw [resolveScalar] at resolved
  split at resolved
  · exact checked_of_fault resolved
  · next index given =>
      split at resolved
      · exact checked_of_fault resolved
      · have lower : 0 ≤ index := Int.not_lt.mp fun negative =>
          forward array index ⟨unrecorded, ⟨start, found⟩, given, negative⟩
        obtain ⟨natural, rfl⟩ := Int.eq_ofNat_of_zero_le lower
        have inside : natural < array.size := by omega
        exact (Picks.element unrecorded found given inside).checked

theorem checked_of_forward (forward : model.Forward reference) :
    model.Checked binding reference := by
  cases recorded : model.record? reference.name with
  | some entry => exact checked_of_record recorded
  | none =>
      cases found : model.scalar? reference.name with
      | some entry => exact checked_of_scalar forward recorded found
      | none =>
          have failed : model.resolve binding reference =
              .error (model.unresolved reference (.unknownArray reference.name)) := by
            rw [resolve, recorded, found]
          exact checked_of_fault failed

/-- A negative index counts from the end of a scalar array. -/
theorem CountsBack.resolve {array : ScalarArray} {index : Int} {element : Nat}
    (back : model.CountsBack reference array index)
    (fromEnd : (element : Int) = array.size + index) :
    ∃ cell, model.number? (.element reference.name element) = some cell ∧
      model.resolve binding reference = .ok cell := by
  obtain ⟨unrecorded, ⟨start, found⟩, given, negative⟩ := back
  have inside : element < array.size := by omega
  refine ⟨start + element, number?_element found inside, ?_⟩
  have below : ¬ (array.size : Int) ≤ index := by omega
  have counted : fromStart? array.size index = some element := by
    rw [fromStart?, if_neg (Int.not_le.mpr negative), if_pos (by omega), ← fromEnd,
      Int.toNat_natCast]
  rw [resolve_of_scalar unrecorded found, resolveScalar, given]
  simp only [if_neg below, counted]

/-- An index that counts past the start of a scalar array is out of range. -/
theorem CountsBack.resolve_beyond {array : ScalarArray} {index : Int}
    (back : model.CountsBack reference array index) (beyond : array.size + index < 0) :
    model.resolve binding reference = .error .outOfRange := by
  obtain ⟨unrecorded, ⟨start, found⟩, given, negative⟩ := back
  have below : ¬ (array.size : Int) ≤ index := by omega
  have nowhere : fromStart? array.size index = none := by
    rw [fromStart?, if_neg (Int.not_le.mpr negative), if_neg (Int.not_le.mpr beyond)]
  rw [resolve_of_scalar unrecorded found, resolveScalar, given]
  simp only [if_neg below, nowhere]

/-! ## Comparisons -/

section Comparisons

variable {assignment : Assignment} {comparison : Comparison} {cell : Nat}

theorem evaluate_of_left (resolved : model.resolve binding comparison.left = .ok cell) :
    model.evaluate assignment binding comparison =
      (model.rightPlace assignment binding cell comparison.right).map fun place =>
        (assignment.placeOf cell == place) != comparison.negated := by
  rw [evaluate, resolved]
  cases placed : model.rightPlace assignment binding cell comparison.right <;>
    simp [bind, Except.bind, pure, Except.pure, Except.map, placed]

theorem evaluate_of_left_error {unresolved : Unresolved}
    (resolved : model.resolve binding comparison.left = .error unresolved) :
    model.evaluate assignment binding comparison = .error unresolved := by
  rw [evaluate, resolved]
  rfl

/-- A comparison is at fault exactly when its left side is. -/
theorem evaluate_fault_iff {diagnostic : Diagnostic ModelFault} :
    model.evaluate assignment binding comparison = .error (.fault diagnostic) ↔
      model.resolve binding comparison.left = .error (.fault diagnostic) := by
  cases resolved : model.resolve binding comparison.left with
  | error unresolved => rw [evaluate_of_left_error resolved, Except.error.injEq, Except.error.injEq]
  | ok cell =>
      have unfaulty : model.rightPlace assignment binding cell comparison.right ≠
          .error (.fault diagnostic) := by
        rw [rightPlace]
        split <;> simp
      rw [evaluate_of_left resolved]
      cases placed : model.rightPlace assignment binding cell comparison.right with
      | ok place => simp [Except.map]
      | error unresolved =>
          rw [placed, Ne, Except.error.injEq] at unfaulty
          simp [Except.map, unfaulty]

end Comparisons

structure BoundsChecked (model : Model) (binding : Option Binding) : Prop where
  checked : ∀ reference, model.Forward reference → model.Checked binding reference
  numeral_iff : ∀ reference, model.resolve binding reference = .error .numeral ↔
    ∃ index, model.Exceeds binding reference index ∧ Numeral.tooLong index = true
  counted : ∀ reference array index, model.CountsBack reference array index →
    ∀ element : Nat, (element : Int) = array.size + index →
      ∃ cell, model.number? (.element reference.name element) = some cell ∧
        model.resolve binding reference = .ok cell
  beyond : ∀ reference array index, model.CountsBack reference array index →
    array.size + index < 0 → model.resolve binding reference = .error .outOfRange
  fault_iff : ∀ assignment comparison diagnostic,
    model.evaluate assignment binding comparison = .error (.fault diagnostic) ↔
      model.resolve binding comparison.left = .error (.fault diagnostic)
  cells : ∀ assignment comparison left right, model.Picks binding comparison.left left →
    model.Picks binding comparison.right right → ∃ cell other, model.number? left = some cell ∧
      model.number? right = some other ∧ model.evaluate assignment binding comparison =
        .ok ((assignment.placeOf cell == assignment.placeOf other) != comparison.negated)
  label : ∀ assignment comparison left, model.Picks binding comparison.left left →
    model.Forward comparison.right → (∀ right, ¬ model.Picks binding comparison.right right) →
      (∀ index, model.Exceeds binding comparison.right index → Numeral.tooLong index = false) →
        ∃ cell, model.number? left = some cell ∧ model.evaluate assignment binding comparison =
          .ok ((assignment.placeOf cell == model.labelPlace cell comparison.right.name) !=
            comparison.negated)
  right_beyond : ∀ assignment comparison left, model.Picks binding comparison.left left →
    ∀ array index, model.CountsBack comparison.right array index → array.size + index < 0 →
      model.evaluate assignment binding comparison = .error .outOfRange
  right_numeral : ∀ assignment comparison left, model.Picks binding comparison.left left →
    ∀ index, model.Exceeds binding comparison.right index → Numeral.tooLong index = true →
      model.evaluate assignment binding comparison = .error .numeral

/-- Every reference that does not count from the end of a scalar array is checked at both ends of
its array, and a comparison takes a right side that is at fault for a label, unless the index in
the words of the fault is too long. -/
theorem bounds_checked (model : Model) (binding : Option Binding) :
    model.BoundsChecked binding := by
  constructor
  case checked => exact fun reference => checked_of_forward
  case numeral_iff => exact fun reference => resolve_numeral_iff
  case counted => exact fun reference array index back element => back.resolve
  case beyond => exact fun reference array index back => back.resolve_beyond
  case fault_iff => exact fun assignment comparison diagnostic => evaluate_fault_iff
  case cells =>
    intro assignment comparison left right leftPicks rightPicks
    obtain ⟨cell, numbered, resolved⟩ := leftPicks.resolve
    obtain ⟨other, otherNumbered, otherResolved⟩ := rightPicks.resolve
    refine ⟨cell, other, numbered, otherNumbered, ?_⟩
    rw [evaluate_of_left resolved, rightPlace, otherResolved]
    rfl
  case label =>
    intro assignment comparison left picks forward nothing short
    obtain ⟨cell, numbered, resolved⟩ := picks.resolve
    refine ⟨cell, numbered, ?_⟩
    have checked : model.Checked binding comparison.right := checked_of_forward forward
    cases checked with
    | inside picks => exact absurd picks (nothing _)
    | fault _ failed =>
        rw [evaluate_of_left resolved, rightPlace, failed]
        rfl
    | numeral _ exceeds long _ => exact absurd long (Bool.eq_false_iff.mp (short _ exceeds))
  case right_beyond =>
    intro assignment comparison left picks array index back beyond
    obtain ⟨cell, numbered, resolved⟩ := picks.resolve
    rw [evaluate_of_left resolved, rightPlace, back.resolve_beyond beyond]
    rfl
  case right_numeral =>
    intro assignment comparison left picks index exceeds long
    obtain ⟨cell, numbered, resolved⟩ := picks.resolve
    rw [evaluate_of_left resolved, rightPlace, resolve_numeral_iff.mpr ⟨index, exceeds, long⟩]
    rfl

def bitModel : Model :=
  { empty none with scalars := [⟨"Flags", ⟨"Bit", ⟨"Bit", ["off", "on"]⟩⟩, 3⟩] }

/-- The last element of an array, counted from its end. -/
example : bitModel.resolve none ⟨"Flags", [.index (-1)], ⟨0, 0⟩⟩ = .ok 2 := by
  decide

/-- An index beyond the end that is too long for the words of a fault. -/
example : bitModel.resolve none ⟨"Flags", [.index (10 ^ 4300)], ⟨0, 0⟩⟩ = .error .numeral := by
  decide +kernel

end Model

end LogicPuzzle
