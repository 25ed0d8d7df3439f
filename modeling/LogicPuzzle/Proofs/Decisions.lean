import LogicPuzzle.Proofs.Resolution

/-!
# Tests that can be made

A rule can be tested when its left sides name cells and its right sides can be
read, wherever the test comes to.  Neither depends on an assignment, so a check
of rules that can be tested gives a result for every one.
-/

namespace LogicPuzzle

namespace Model

def Resolves (model : Model) (binding : Option Binding) (reference : Reference) : Prop :=
  ∃ cell, model.resolve binding reference = .ok cell

instance (model : Model) (binding : Option Binding) (reference : Reference) :
    Decidable (model.Resolves binding reference) :=
  match resolved : model.resolve binding reference with
  | .ok cell => isTrue ⟨cell, resolved⟩
  | .error _ => isFalse fun ⟨_, other⟩ => nomatch resolved.symm.trans other

/-- The left sides of a rule name cells wherever the rule is tested. -/
def LeftResolves (model : Model) (rule : Rule) : Prop :=
  match model.quantifiedArray? rule with
  | none => model.Resolves none rule.guard.left
  | some array => ∀ index < array.size, ∀ comparison ∈ rule.guard :: rule.consequents,
      model.Resolves (some ⟨rule.guard.left.name, (index : Nat)⟩) comparison.left

/-- A reference can be read: it names a cell, or its fault can be told and it is read as a label. -/
def Readable (model : Model) (binding : Option Binding) (reference : Reference) : Prop :=
  ∀ unresolved, model.resolve binding reference = .error unresolved →
    ∃ diagnostic, unresolved = .fault diagnostic

/-- The comparisons that the test of a rule can come to, with the element that they are about: the
guard alone, or all of them for every element of the array over which the rule is quantified. -/
inductive Tested (model : Model) (rule : Rule) : Option Binding → Comparison → Prop where
  | alone (unquantified : model.quantifiedArray? rule = none) : Tested model rule none rule.guard
  | element {array : RecordArray} {index : Nat} {comparison : Comparison}
      (quantified : model.quantifiedArray? rule = some array) (inside : index < array.size)
      (member : comparison ∈ rule.guard :: rule.consequents) :
      Tested model rule (some ⟨rule.guard.left.name, (index : Nat)⟩) comparison

/-- The test of a rule can be made wherever it comes to: left sides name cells, and right sides can
be read. -/
structure Decides (model : Model) (rule : Rule) : Prop where
  left : model.LeftResolves rule
  right : ∀ binding comparison, model.Tested rule binding comparison →
    model.Readable binding comparison.right

variable {model : Model} {binding : Option Binding} {reference : Reference}
  {comparison : Comparison} {rule : Rule}

theorem LeftResolves.resolves (resolves : model.LeftResolves rule)
    (tested : model.Tested rule binding comparison) :
    model.Resolves binding comparison.left := by
  rw [LeftResolves] at resolves
  cases tested with
  | alone unquantified =>
      rw [unquantified] at resolves
      exact resolves
  | element quantified inside member =>
      rw [quantified] at resolves
      exact resolves _ inside comparison member

theorem Tested.comparison_mem (tested : model.Tested rule binding comparison) :
    comparison ∈ rule.guard :: rule.consequents := by
  cases tested with
  | alone => exact List.mem_cons_self
  | element _ _ member => exact member

/-- The array over which a rule is quantified has the name on the left of the guard. -/
theorem exists_record_of_quantified {array : RecordArray}
    (quantified : model.quantifiedArray? rule = some array) :
    ∃ start, model.record? rule.guard.left.name = some (start, array) := by
  rw [quantifiedArray?, Option.ite_none_right_eq_some] at quantified
  obtain ⟨⟨start, _⟩, found, rfl⟩ := Option.map_eq_some_iff.mp quantified.2
  exact ⟨start, found⟩

/-- The element that a tested comparison is about is inside of its array. -/
theorem Tested.not_exceeds {index : Int} (tested : model.Tested rule binding comparison)
    (ungiven : reference.index? = none) : ¬ model.Exceeds binding reference index := by
  intro exceeds
  cases exceeds with
  | element _ _ given _ => cases ungiven.symm.trans given
  | field found selected outside =>
      unfold elementIndex? at selected
      rw [ungiven] at selected
      cases tested with
      | alone => cases selected
      | element quantified inside _ =>
          obtain ⟨bound, same⟩ := Option.ite_none_right_eq_some.mp selected
          obtain ⟨start, named⟩ := exists_record_of_quantified quantified
          change rule.guard.left.name = reference.name at bound
          rw [← bound, named] at found
          cases found
          cases same
          rcases outside with below | beyond
          · exact absurd below (Int.not_lt.mpr (Int.natCast_nonneg _))
          · exact absurd inside (Nat.not_lt.mpr (Int.ofNat_le.mp beyond))

/-- What does not count from the end of an array can be read, unless its index is outside of the
array and has too many digits to be told. -/
theorem readable_iff (nonnegative : reference.Nonnegative) :
    model.Readable binding reference ↔
      ∀ index, model.Exceeds binding reference index → Numeral.tooLong index = false := by
  constructor
  · intro readable index exceeds
    by_contra long
    obtain ⟨fault, same, resolved⟩ := exceeds.resolve
    rw [unresolved_of_long (same.trans (eq_true_of_ne_false long))] at resolved
    obtain ⟨_, impossible⟩ := readable _ resolved
    cases impossible
  · intro short unresolved failed
    cases unresolved with
    | fault diagnostic => exact ⟨diagnostic, rfl⟩
    | outOfRange => exact absurd failed (resolve_ne_outOfRange nonnegative)
    | numeral =>
        obtain ⟨index, exceeds, long⟩ := exceeds_of_numeral failed
        exact absurd long (Bool.eq_false_iff.mp (short index exceeds))

/-- A right side can be read if its index is one that a text can give. -/
theorem Tested.readable (tested : model.Tested rule binding comparison)
    (spellable : reference.Spellable) : model.Readable binding reference := by
  rw [readable_iff spellable.nonnegative]
  intro index exceeds
  cases given : reference.index? with
  | none => exact absurd exceeds (tested.not_exceeds given)
  | some other =>
      have same : other = index := by
        cases exceeds with
        | element _ _ also _ => exact Option.some.inj (given.symm.trans also)
        | field _ selected _ =>
            unfold elementIndex? at selected
            rw [given] at selected
            exact Option.some.inj selected
      exact same ▸ (isWritableNumber_iff.mp (spellable other given)).2

theorem decides_of_spellable (spellable : rule.Spellable) (resolves : model.LeftResolves rule) :
    model.Decides rule where
  left := resolves
  right _ comparison tested := tested.readable (spellable comparison tested.comparison_mem).2

/-! ## Results of tests -/

/-- A right side that can be read stands for a place. -/
theorem rightPlace_ok (readable : model.Readable binding reference) (assignment : Assignment)
    (left : Nat) : ∃ place, model.rightPlace assignment binding left reference = .ok place := by
  rw [rightPlace]
  cases resolved : model.resolve binding reference with
  | ok cell => exact ⟨_, rfl⟩
  | error unresolved =>
      obtain ⟨diagnostic, rfl⟩ := readable unresolved resolved
      exact ⟨_, rfl⟩

/-- A comparison of a rule that can be tested gives a result. -/
theorem Decides.evaluate_ok (decides : model.Decides rule)
    (tested : model.Tested rule binding comparison) (assignment : Assignment) :
    ∃ result, model.evaluate assignment binding comparison = .ok result := by
  obtain ⟨left, resolved⟩ := decides.left.resolves tested
  obtain ⟨place, read⟩ : ∃ place, model.rightPlace assignment binding left comparison.right = _ :=
    rightPlace_ok (decides.right _ _ tested) assignment left
  refine ⟨(assignment.placeOf left == place) != comparison.negated, ?_⟩
  rw [evaluate, resolved]
  change (model.rightPlace assignment binding left comparison.right >>= _) = _
  rw [read]
  rfl

theorem allM_ok {ε α : Type} {test : α → Except ε Bool} {elements : List α}
    (tests : ∀ element ∈ elements, ∃ result, test element = .ok result) :
    ∃ result, elements.allM test = .ok result := by
  induction elements with
  | nil => exact ⟨true, rfl⟩
  | cons first rest ih =>
      obtain ⟨⟨passed, tested⟩, others⟩ := List.forall_mem_cons.mp tests
      rw [List.allM_cons, tested]
      cases passed with
      | true => exact ih others
      | false => exact ⟨false, rfl⟩

theorem Decides.holdsAt_ok (decides : model.Decides rule) {array : RecordArray} {index : Nat}
    (quantified : model.quantifiedArray? rule = some array) (inside : index < array.size)
    (assignment : Assignment) :
    ∃ result, model.holdsAt assignment rule ⟨rule.guard.left.name, index⟩ = .ok result := by
  have tests : ∀ comparison ∈ rule.guard :: rule.consequents, ∃ result,
      model.evaluate assignment (some ⟨rule.guard.left.name, index⟩) comparison = .ok result :=
    fun _ member => decides.evaluate_ok (.element quantified inside member) assignment
  obtain ⟨⟨passed, tested⟩, otherTests⟩ := List.forall_mem_cons.mp tests
  rw [holdsAt, tested]
  cases passed with
  | true => exact allM_ok otherTests
  | false => exact ⟨true, rfl⟩

/-- The test of a rule that can be made gives a result. -/
theorem Decides.checkRule_ok (decides : model.Decides rule) (assignment : Assignment) :
    ∃ result, model.checkRule assignment rule = .ok result := by
  rw [checkRule]
  cases quantified : model.quantifiedArray? rule with
  | none => exact decides.evaluate_ok (.alone quantified) assignment
  | some array =>
      apply allM_ok
      intro index inside
      exact decides.holdsAt_ok quantified (List.mem_range.mp inside) assignment

/-- The check of rules that can be tested gives a result. -/
theorem check_ok_of_decides (decides : ∀ rule ∈ model.rules, model.Decides rule)
    (assignment : Assignment) : ∃ result, model.check assignment = .ok result := by
  rw [check]
  split
  · apply allM_ok
    intro rule member
    exact (decides rule member).checkRule_ok assignment
  · exact ⟨false, rfl⟩

end Model

end LogicPuzzle
