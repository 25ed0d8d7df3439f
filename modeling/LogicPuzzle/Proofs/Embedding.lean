import LogicPuzzle.Proofs.Satisfaction

/-!
# Models within models

A model is found within another one when its arrays are, at other numbers.  A
reference whose name means nothing else in the larger model then resolves to the
moved cell, or to none in both.  So where both assignments hold the same places,
tests that give a result give the same one in the larger model, and the arrays
show the same labels.
-/

namespace LogicPuzzle

def Rule.names (rule : Rule) : List String :=
  (rule.guard :: rule.consequents).flatMap fun comparison =>
    [comparison.left.name, comparison.right.name]

namespace Rule

variable {rule : Rule} {comparison : Comparison}

theorem left_mem_names (member : comparison ∈ rule.guard :: rule.consequents) :
    comparison.left.name ∈ rule.names :=
  List.mem_flatMap.mpr ⟨comparison, member, List.mem_cons_self⟩

theorem right_mem_names (member : comparison ∈ rule.guard :: rule.consequents) :
    comparison.right.name ∈ rule.names :=
  List.mem_flatMap.mpr ⟨comparison, member, List.mem_cons_of_mem _ List.mem_cons_self⟩

end Rule

namespace Model

/-- Where other tests give all results that some tests give, they do so for a whole list. -/
theorem allM_ok_of_ok {ε α : Type} {test other : α → Except ε Bool} {elements : List α}
    {result : Bool}
    (same : ∀ element ∈ elements, ∀ result, test element = .ok result →
      other element = .ok result)
    (tested : elements.allM test = .ok result) : elements.allM other = .ok result := by
  induction elements with
  | nil => exact tested
  | cons first rest ih =>
      obtain ⟨firstSame, restSame⟩ := List.forall_mem_cons.mp same
      rw [List.allM_cons] at tested ⊢
      obtain ⟨passed, firstTested, later⟩ := ok_of_bind tested
      rw [firstSame passed firstTested]
      cases passed with
      | true => exact ih restSame later
      | false => exact later

/-- The arrays and cells of a model are those of another one at other numbers, for the names
that are its own. -/
structure Embeds (place : Nat → Nat) (own : String → Prop) (part whole : Model) : Prop where
  no_scalar : ∀ {name}, own name → part.scalar? name = none → whole.scalar? name = none
  no_record : ∀ {name}, own name → part.record? name = none → whole.record? name = none
  scalar : ∀ {name start array}, own name → part.scalar? name = some (start, array) →
    ∃ other, whole.scalar? name = some (other, array) ∧ ∀ offset < array.size,
      start + offset < part.cells.length ∧ place (start + offset) = other + offset
  record : ∀ {name start array}, own name → part.record? name = some (start, array) →
    ∃ other, whole.record? name = some (other, array) ∧ ∀ offset < array.extent,
      start + offset < part.cells.length ∧ place (start + offset) = other + offset
  cells : ∀ cell < part.cells.length, whole.cells[place cell]? = part.cells[cell]?

/-- An assignment holds the places that another one gives the cells of a part. -/
def Repeats (place : Nat → Nat) (part : Model) (held holding : Assignment) : Prop :=
  ∀ cell < part.cells.length, holding.placeOf (place cell) = held.placeOf cell

theorem differs_congr {array : RecordArray} {held other : Nat → Int}
    (same : ∀ offset < array.extent, held offset = other offset) :
    array.Differs held ↔ array.Differs other := by
  refine forall₂_congr fun field unique => forall₂_congr fun first firstBelow =>
    forall₂_congr fun second secondBelow => forall_congr' fun _ => ?_
  have within := RecordArray.lt_of_mem_uniquePlaces unique
  rw [same _ (RecordArray.cellNumber_lt firstBelow within),
    same _ (RecordArray.cellNumber_lt secondBelow within)]

/-- A reference that resolves below a bound resolves to the moved cell, and one that does not
fails in the same way. -/
inductive Transfers (place : Nat → Nat) (bound : Nat) :
    Except Unresolved Nat → Except Unresolved Nat → Prop where
  | cell {cell : Nat} (inside : cell < bound) : Transfers place bound (.ok cell) (.ok (place cell))
  | fault (diagnostic other : Diagnostic ModelFault) :
      Transfers place bound (.error (.fault diagnostic)) (.error (.fault other))
  | outOfRange : Transfers place bound (.error .outOfRange) (.error .outOfRange)
  | numeral : Transfers place bound (.error .numeral) (.error .numeral)

variable {part whole : Model} {puzzle : Puzzle} {place : Nat → Nat} {own : String → Prop}
  {binding : Option Binding} {reference : Reference} {comparison : Comparison} {rule : Rule}
  {held holding : Assignment} {start other bound cell : Nat}

/-! ## Moved cells -/

/-- The number of a cell when the scalar cells come some numbers later and the record cells some
other numbers. -/
def moved (model : Model) (scalars records cell : Nat) : Nat :=
  if cell < model.scalarCount then scalars + cell else records + cell

section Moved

variable (scalars records : Nat)

theorem moved_scalar (built : part.BuiltFrom puzzle) {array : ScalarArray}
    (member : (start, array) ∈ part.numberedScalars) :
    ∀ offset < array.size, start + offset < part.cells.length ∧
      part.moved scalars records (start + offset) = scalars + start + offset := by
  intro offset inside
  have below := number_lt_of_scalar member inside
  rw [built.length_cells, moved, if_pos below, Nat.add_assoc]
  exact ⟨Nat.lt_add_right _ below, rfl⟩

theorem moved_record (built : part.BuiltFrom puzzle) {array : RecordArray}
    (member : (start, array) ∈ part.numberedRecords) :
    ∀ offset < array.extent, start + offset < part.cells.length ∧
      part.moved scalars records (start + offset) = records + start + offset := by
  intro offset inside
  obtain ⟨beyond, below⟩ := number_bounds_of_record member inside
  rw [built.length_cells, moved, if_neg (Nat.not_lt.mpr beyond), Nat.add_assoc]
  exact ⟨below, rfl⟩

end Moved

section Moves

variable {scalars records : Nat}

/-- A model whose arrays are found at moved numbers is embedded. -/
theorem embeds_moved (built : part.BuiltFrom puzzle)
    (scalarFound : ∀ name, own name →
      whole.scalar? name = (part.scalar? name).map (later scalars))
    (recordFound : ∀ name, own name →
      whole.record? name = (part.record? name).map (later records))
    (cells : ∀ cell < part.cells.length,
      whole.cells[part.moved scalars records cell]? = part.cells[cell]?) :
    Embeds (part.moved scalars records) own part whole where
  no_scalar owned unfound := by
    rw [scalarFound _ owned, unfound]
    rfl
  no_record owned unfound := by
    rw [recordFound _ owned, unfound]
    rfl
  scalar {name start array} owned found := by
    refine ⟨scalars + start, ?_,
      moved_scalar scalars records built (List.mem_of_find?_eq_some found)⟩
    rw [scalarFound _ owned, found]
    rfl
  record {name start array} owned found := by
    refine ⟨records + start, ?_,
      moved_record scalars records built (List.mem_of_find?_eq_some found)⟩
    rw [recordFound _ owned, found]
    rfl
  cells := cells

theorem getElem?_behind {α : Type} (front back : List α) (offset : Nat) :
    (front ++ back)[front.length + offset]? = back[offset]? := by
  rw [List.getElem?_append_right (Nat.le_add_right _ _), Nat.add_sub_cancel_left]

/-- What a list has for the scalar cells and for the record cells is found at the moved numbers in
a list that has more in front, between and behind. -/
theorem getElem?_moved {α : Type} {ownScalars ownRecords front middle back : List α}
    (count : ownScalars.length = part.scalarCount) (ahead : front.length = scalars)
    (between : front.length + middle.length = records)
    (inside : cell < (ownScalars ++ ownRecords).length) :
    (front ++ (ownScalars ++ (middle ++ (ownRecords ++ back))))[
        part.moved scalars records cell]? = (ownScalars ++ ownRecords)[cell]? := by
  rw [moved, ← count, ← ahead, ← between]
  split
  · next scalar =>
      rw [getElem?_behind, List.getElem?_append_left scalar, List.getElem?_append_left scalar]
  · next beyond =>
      obtain ⟨offset, rfl⟩ := Nat.exists_eq_add_of_le (Nat.le_of_not_lt beyond)
      rw [List.length_append] at inside
      have number : front.length + middle.length + (ownScalars.length + offset) =
          front.length + (ownScalars.length + (middle.length + offset)) := by omega
      rw [number, getElem?_behind, getElem?_behind, getElem?_behind, getElem?_behind,
        List.getElem?_append_left (by omega)]

end Moves

/-! ## References -/

theorem transfers_unresolved (fault : ModelFault) :
    Transfers place bound (.error (part.unresolved reference fault))
      (.error (whole.unresolved reference fault)) := by
  rw [unresolved, unresolved]
  split
  · exact .numeral
  · exact .fault _ _

theorem transfers_resolveRecord {array : RecordArray}
    (moves : ∀ offset < array.extent, start + offset < bound ∧
      place (start + offset) = other + offset) :
    Transfers place bound (part.resolveRecord start array binding reference)
      (whole.resolveRecord other array binding reference) := by
  rw [resolveRecord, resolveRecord]
  cases elementIndex? binding reference with
  | none => exact transfers_unresolved _
  | some index =>
      simp only
      split
      · exact transfers_unresolved _
      · next within =>
          cases reference.field? with
          | none => exact transfers_unresolved _
          | some field =>
              cases placed : array.fieldPlace? field with
              | none =>
                  simp only [placed]
                  exact transfers_unresolved _
              | some column =>
                  simp only [placed]
                  have inside : array.cellNumber index.toNat column < array.extent :=
                    RecordArray.cellNumber_lt (by omega) (RecordArray.fieldPlace?_lt placed)
                  obtain ⟨below, moved⟩ := moves _ inside
                  rw [← moved]
                  exact .cell below

theorem transfers_resolveScalar {array : ScalarArray}
    (moves : ∀ offset < array.size, start + offset < bound ∧
      place (start + offset) = other + offset) :
    Transfers place bound (part.resolveScalar start array reference)
      (whole.resolveScalar other array reference) := by
  rw [resolveScalar, resolveScalar]
  cases reference.index? with
  | none => exact transfers_unresolved _
  | some index =>
      simp only
      split
      · exact transfers_unresolved _
      · next within =>
          cases counted : fromStart? array.size index with
          | none => exact .outOfRange
          | some element =>
              obtain ⟨below, moved⟩ := moves element (fromStart?_lt (by omega) counted)
              simp only [← moved]
              exact .cell below

theorem Embeds.transfers (embeds : Embeds place own part whole) (owned : own reference.name) :
    Transfers place part.cells.length (part.resolve binding reference)
      (whole.resolve binding reference) := by
  cases found : part.record? reference.name with
  | some entry =>
      rcases entry with ⟨start, array⟩
      obtain ⟨other, otherFound, moves⟩ := embeds.record owned found
      rw [resolve_of_record found, resolve_of_record otherFound]
      exact transfers_resolveRecord moves
  | none =>
      have otherAbsent := embeds.no_record owned found
      cases scalarFound : part.scalar? reference.name with
      | some entry =>
          rcases entry with ⟨start, array⟩
          obtain ⟨other, otherFound, moves⟩ := embeds.scalar owned scalarFound
          rw [resolve_of_scalar found scalarFound, resolve_of_scalar otherAbsent otherFound]
          exact transfers_resolveScalar moves
      | none =>
          rw [resolve, resolve, found, scalarFound, otherAbsent,
            embeds.no_scalar owned scalarFound]
          exact transfers_unresolved _

/-! ## Tests -/

theorem Embeds.labelPlace (embeds : Embeds place own part whole)
    (inside : cell < part.cells.length) (label : String) :
    whole.labelPlace (place cell) label = part.labelPlace cell label := by
  rw [Model.labelPlace, Model.labelPlace, embeds.cells cell inside]

theorem Embeds.quantifiedArray? (embeds : Embeds place own part whole)
    (owned : own rule.guard.left.name) :
    whole.quantifiedArray? rule = part.quantifiedArray? rule := by
  rw [Model.quantifiedArray?, Model.quantifiedArray?]
  cases found : part.record? rule.guard.left.name with
  | none => rw [embeds.no_record owned found]
  | some entry =>
      obtain ⟨other, otherFound, _⟩ := embeds.record owned found
      rw [otherFound]
      rfl

section Tests

variable (embeds : Embeds place own part whole) (repeats : Repeats place part held holding)
include embeds repeats

theorem Embeds.rightPlace (owned : own reference.name) (inside : cell < part.cells.length) :
    whole.rightPlace holding binding (place cell) reference =
      part.rightPlace held binding cell reference := by
  have resolved := @Embeds.transfers part whole place own binding reference embeds owned
  rw [Model.rightPlace, Model.rightPlace]
  generalize part.resolve binding reference = first at *
  generalize whole.resolve binding reference = second at *
  cases resolved with
  | cell rightInside => simp only [repeats _ rightInside]
  | fault diagnostic other => simp only [embeds.labelPlace inside]
  | outOfRange => rfl
  | numeral => rfl

/-- A comparison that gives a result gives the same one in the larger model. -/
theorem Embeds.evaluate {result : Bool} (leftOwned : own comparison.left.name)
    (rightOwned : own comparison.right.name)
    (evaluated : part.evaluate held binding comparison = .ok result) :
    whole.evaluate holding binding comparison = .ok result := by
  obtain ⟨left, leftResolved, rest⟩ := ok_of_bind evaluated
  obtain ⟨right, rightRead, returned⟩ := ok_of_bind rest
  cases returned
  have resolved := @Embeds.transfers part whole place own binding comparison.left embeds leftOwned
  rw [leftResolved] at resolved
  rw [Model.evaluate]
  generalize whole.resolve binding comparison.left = first at *
  cases resolved with
  | cell inside =>
      change (whole.rightPlace holding binding (place left) comparison.right >>= _) = _
      rw [embeds.rightPlace repeats rightOwned inside, rightRead, repeats left inside]
      rfl

theorem Embeds.holdsAt {bound : Binding} {result : Bool} (owned : ∀ name ∈ rule.names, own name)
    (tested : part.holdsAt held rule bound = .ok result) :
    whole.holdsAt holding rule bound = .ok result := by
  have evaluated {comparison : Comparison} {result : Bool}
      (member : comparison ∈ rule.guard :: rule.consequents) :=
    @Embeds.evaluate part whole place own (some bound) comparison held holding embeds repeats result
      (owned _ (Rule.left_mem_names member)) (owned _ (Rule.right_mem_names member))
  rw [Model.holdsAt] at tested ⊢
  obtain ⟨guard, guardTested, rest⟩ := ok_of_bind tested
  rw [evaluated List.mem_cons_self guardTested]
  cases guard with
  | true =>
      exact allM_ok_of_ok (fun _ member _ => evaluated (List.mem_cons_of_mem _ member)) rest
  | false => exact rest

/-- A rule whose test gives a result has the same one in the larger model. -/
theorem Embeds.checkRule {result : Bool} (owned : ∀ name ∈ rule.names, own name)
    (tested : part.checkRule held rule = .ok result) :
    whole.checkRule holding rule = .ok result := by
  have guardMember : rule.guard ∈ rule.guard :: rule.consequents := List.mem_cons_self
  have leftOwned := owned _ (Rule.left_mem_names guardMember)
  rw [Model.checkRule] at tested ⊢
  rw [embeds.quantifiedArray? leftOwned]
  cases quantified : part.quantifiedArray? rule with
  | none =>
      rw [quantified] at tested
      exact embeds.evaluate repeats leftOwned (owned _ (Rule.right_mem_names guardMember)) tested
  | some array =>
      rw [quantified] at tested
      exact allM_ok_of_ok (fun index _ _ => embeds.holdsAt repeats owned) tested

theorem Embeds.checkRules {rules : List Rule} {result : Bool}
    (owned : ∀ rule ∈ rules, ∀ name ∈ rule.names, own name)
    (tested : rules.allM (part.checkRule held) = .ok result) :
    rules.allM (whole.checkRule holding) = .ok result :=
  allM_ok_of_ok (fun rule member _ => embeds.checkRule repeats (owned rule member)) tested

end Tests

/-- Moved record arrays differ in their unique fields where they did. -/
theorem differs_moved (built : part.BuiltFrom puzzle) {scalars records : Nat}
    (repeats : Repeats (part.moved scalars records) part held holding) :
    (∀ entry ∈ part.numberedRecords.map (later records),
        entry.2.Differs fun offset => holding.placeOf (entry.1 + offset)) ↔
      ∀ entry ∈ part.numberedRecords,
        entry.2.Differs fun offset => held.placeOf (entry.1 + offset) := by
  rw [List.forall_mem_map]
  refine forall₂_congr ?_
  rintro ⟨start, array⟩ member
  refine differs_congr fun offset inside => ?_
  obtain ⟨within, moved⟩ := moved_record scalars records built member offset inside
  rw [later, ← moved]
  exact repeats _ within

end Model

namespace Search

variable {part whole : Search} {place : Nat → Nat} {own : String → Prop}

/-! ## Labels -/

section Labels

variable (embeds : Model.Embeds place own part.model whole.model)
  (repeats : Model.Repeats place part.model part.assignment whole.assignment)
include embeds repeats

theorem labelOf_embedded {number : Nat} (inside : number < part.model.cells.length) :
    whole.labelOf (place number) = part.labelOf number := by
  rw [labelOf, labelOf, embeds.cells number inside, repeats number inside]

/-- A scalar array that is moved shows the same labels. -/
theorem scalarLabels_embedded {start other : Nat} {array : ScalarArray}
    (moves : ∀ offset < array.size, start + offset < part.model.cells.length ∧
      place (start + offset) = other + offset) :
    whole.scalarLabels other array = part.scalarLabels start array := by
  rw [scalarLabels, scalarLabels, List.range'_eq_map_range, List.range'_eq_map_range,
    List.map_map, List.map_map]
  refine List.map_congr_left fun offset member => ?_
  obtain ⟨inside, moved⟩ := moves offset (List.mem_range.mp member)
  simp only [Function.comp_apply, ← moved]
  exact labelOf_embedded embeds repeats inside

/-- A record array that is moved shows the same labels. -/
theorem recordLabels_embedded {start other : Nat} {array : RecordArray}
    (moves : ∀ offset < array.extent, start + offset < part.model.cells.length ∧
      place (start + offset) = other + offset) :
    whole.recordLabels other array = part.recordLabels start array := by
  rw [recordLabels, recordLabels]
  refine List.map_congr_left fun element member => ?_
  refine List.ext_getElem (by simp only [elementLabels, List.length_mapIdx]) ?_
  intro field within _
  simp only [elementLabels, List.length_mapIdx, Table.names, List.length_map] at within
  obtain ⟨inside, moved⟩ :=
    moves _ (RecordArray.cellNumber_lt (List.mem_range.mp member) within)
  simp only [elementLabels, List.getElem_mapIdx, ← moved]
  rw [labelOf_embedded embeds repeats inside]

end Labels

variable {puzzle : Puzzle} {scalars records : Nat}

/-- Moved scalar arrays show what they did. -/
theorem scalars_moved (built : part.model.BuiltFrom puzzle)
    (embeds : Model.Embeds (part.model.moved scalars records) own part.model whole.model)
    (repeats : Model.Repeats (part.model.moved scalars records) part.model part.assignment
      whole.assignment) :
    (part.model.numberedScalars.map (Model.later scalars)).map
        (fun entry => (entry.2.name, whole.scalarLabels entry.1 entry.2)) =
      part.model.numberedScalars.map
        (fun entry => (entry.2.name, part.scalarLabels entry.1 entry.2)) := by
  rw [List.map_map]
  refine List.map_congr_left ?_
  rintro ⟨start, array⟩ member
  exact congrArg (array.name, ·)
    (scalarLabels_embedded embeds repeats (Model.moved_scalar scalars records built member))

/-- Moved record arrays show what they did. -/
theorem records_moved (built : part.model.BuiltFrom puzzle)
    (embeds : Model.Embeds (part.model.moved scalars records) own part.model whole.model)
    (repeats : Model.Repeats (part.model.moved scalars records) part.model part.assignment
      whole.assignment) :
    (part.model.numberedRecords.map (Model.later records)).map
        (fun entry => (entry.2.name, whole.recordLabels entry.1 entry.2)) =
      part.model.numberedRecords.map
        (fun entry => (entry.2.name, part.recordLabels entry.1 entry.2)) := by
  rw [List.map_map]
  refine List.map_congr_left ?_
  rintro ⟨start, array⟩ member
  exact congrArg (array.name, ·)
    (recordLabels_embedded embeds repeats (Model.moved_record scalars records built member))

end Search

end LogicPuzzle
