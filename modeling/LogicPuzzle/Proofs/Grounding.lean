import LogicPuzzle.Proofs.Satisfaction
import Mathlib.Data.List.Forall2

/-!
# Grounded rules

To test a comparison for an element of a record array is to test it with the
number of the element written behind every reference to the array that selects
none: both say the same, and both cannot be made for the same reason.  A
quantified rule is therefore the conjunction of its grounded implications, one
for each element in their order, which ends at the first that fails or cannot
be tested.
-/

namespace LogicPuzzle

namespace Reference

/-- The reference with the number of an element behind it, if it names the array of the element
and selects none itself. -/
def grounded (array : String) (index : Int) (reference : Reference) : Reference :=
  if reference.name = array ∧ reference.index? = none then
    { reference with selectors := reference.selectors ++ [.index index] }
  else reference

variable {reference : Reference} {array : String} {index : Int}

theorem grounded_of_ne (other : reference.name ≠ array) :
    reference.grounded array index = reference :=
  if_neg fun grounds => other grounds.1

theorem name_grounded : (reference.grounded array index).name = reference.name := by
  rw [grounded]
  split <;> rfl

theorem position_grounded : (reference.grounded array index).position = reference.position := by
  rw [grounded]
  split <;> rfl

/-- The number behind a reference is not a field. -/
theorem field?_grounded : (reference.grounded array index).field? = reference.field? := by
  rw [grounded]
  split
  · rw [field?, field?, List.filterMap_append]
    exact congrArg List.getLast? (List.append_nil _)
  · rfl

theorem index?_grounded (same : reference.name = array) :
    (reference.grounded array index).index? = some (reference.index?.getD index) := by
  rw [grounded]
  cases selected : reference.index? with
  | none =>
      rw [if_pos ⟨same, rfl⟩, index?, List.filterMap_append]
      exact List.getLast?_concat
  | some number => rwa [if_neg fun grounds => nomatch grounds.2]

end Reference

namespace Comparison

def grounded (array : String) (index : Int) (comparison : Comparison) : Comparison where
  left := comparison.left.grounded array index
  negated := comparison.negated
  right := comparison.right.grounded array index

end Comparison

namespace Model

variable {model : Model} {assignment : Assignment} {name : String} {start : Nat}
  {array : RecordArray} {index : Int}

/-! ## References -/

/-- The element of the bound array that a reference selects is the one it selects when grounded. -/
theorem elementIndex?_grounded {reference : Reference} (same : reference.name = name) :
    elementIndex? none (reference.grounded name index) =
      elementIndex? (some ⟨name, index⟩) reference := by
  unfold elementIndex?
  rw [Reference.index?_grounded same]
  cases reference.index? with
  | none => exact (if_pos same.symm).symm
  | some number => rfl

/-- No element of another array is bound. -/
theorem elementIndex?_of_ne {reference : Reference} (other : reference.name ≠ name) :
    elementIndex? (some ⟨name, index⟩) reference = elementIndex? none reference := by
  unfold elementIndex?
  cases reference.index? with
  | none => exact if_neg (Ne.symm other)
  | some number => rfl

theorem resolve_of_ne {reference : Reference} (other : reference.name ≠ name) :
    model.resolve (some ⟨name, index⟩) reference = model.resolve none reference := by
  simp only [resolve, resolveRecord, elementIndex?_of_ne other]

/-- A grounded reference resolves as the reference does for the element, or is at fault as it is. -/
theorem resolve_grounded (found : model.record? name = some (start, array))
    (reference : Reference) :
    model.resolve none (reference.grounded name index) =
      model.resolve (some ⟨name, index⟩) reference := by
  by_cases same : reference.name = name
  · have bound : model.record? reference.name = some (start, array) := same ▸ found
    have grounds : model.record? (reference.grounded name index).name = some (start, array) := by
      rwa [Reference.name_grounded]
    rw [resolve_of_record bound, resolve_of_record grounds, resolveRecord, resolveRecord,
      elementIndex?_grounded same, Reference.field?_grounded]
    simp only [unresolved, Reference.name_grounded, Reference.position_grounded]
  · rw [Reference.grounded_of_ne same, resolve_of_ne same]

/-! ## Comparisons -/

theorem rightPlace_grounded (found : model.record? name = some (start, array)) (left : Nat)
    (reference : Reference) :
    model.rightPlace assignment none left (reference.grounded name index) =
      model.rightPlace assignment (some ⟨name, index⟩) left reference := by
  -- A side that is at fault is read as a label, and grounding does not change its name.
  rw [rightPlace, rightPlace, resolve_grounded found, Reference.name_grounded]

theorem evaluate_grounded (found : model.record? name = some (start, array))
    (comparison : Comparison) :
    model.evaluate assignment none (comparison.grounded name index) =
      model.evaluate assignment (some ⟨name, index⟩) comparison := by
  simp only [evaluate, Comparison.grounded, resolve_grounded found, rightPlace_grounded found]

end Model

/-! ## Tests one after the other -/

section Tests

variable {ε α : Type} {guard result : Except ε Bool} {tests : List (Except ε Bool)}

/-- What tests say that are made one after the other: yes if each of them passes, and otherwise
what the first says that does not pass. -/
inductive Conjoined : List (Except ε Bool) → Except ε Bool → Prop where
  | passed {tests : List (Except ε Bool)} (every : ∀ test ∈ tests, test = .ok true) :
      Conjoined tests (.ok true)
  | ended (before : List (Except ε Bool)) {after : List (Except ε Bool)} {result : Except ε Bool}
      (every : ∀ test ∈ before, test = .ok true) (ends : result ≠ .ok true) :
      Conjoined (before ++ result :: after) result

/-- What an implication says: yes if its guard fails, and otherwise what its consequents say
together, provided that its guard can be tested. -/
inductive Implied (guard : Except ε Bool) (consequents : List (Except ε Bool)) :
    Except ε Bool → Prop where
  | untested {unresolved : ε} (raises : guard = .error unresolved) :
      Implied guard consequents (.error unresolved)
  | vacuous (fails : guard = .ok false) : Implied guard consequents (.ok true)
  | applied {result : Except ε Bool} (holds : guard = .ok true)
      (conjoined : Conjoined consequents result) : Implied guard consequents result

theorem Conjoined.behind (conjoined : Conjoined tests result) :
    Conjoined (.ok true :: tests) result := by
  cases conjoined with
  | passed every => exact .passed (List.forall_mem_cons.mpr ⟨rfl, every⟩)
  | ended before every ends =>
      exact .ended (.ok true :: before) (List.forall_mem_cons.mpr ⟨rfl, every⟩) ends

theorem allM_map (test : α → Except ε Bool) (elements : List α) :
    (elements.map test).allM id = elements.allM test := by
  induction elements with
  | nil => rfl
  | cons element rest ih => rw [List.map_cons, List.allM_cons, List.allM_cons, ih, id]

theorem Conjoined.allM_eq (conjoined : Conjoined tests result) : tests.allM id = result := by
  cases conjoined with
  | passed every => exact (Model.allM_eq_true_iff id tests).mpr every
  | ended before every ends =>
      rw [Model.allM_append, (Model.allM_eq_true_iff id before).mpr every, List.allM_cons, id]
      cases result with
      | error unresolved => rfl
      | ok passed =>
          cases passed with
          | true => exact absurd rfl ends
          | false => rfl

theorem conjoined_allM (tests : List (Except ε Bool)) : Conjoined tests (tests.allM id) := by
  induction tests with
  | nil => exact .passed (List.forall_mem_nil _)
  | cons test rest ih =>
      rw [List.allM_cons, id]
      cases test with
      | error unresolved => exact .ended [] (List.forall_mem_nil _) nofun
      | ok passed =>
          cases passed with
          | true => exact ih.behind
          | false => exact .ended [] (List.forall_mem_nil _) nofun

/-- Made from left to right, tests say what they say one after the other. -/
theorem conjoined_iff {test : α → Except ε Bool} {elements : List α} :
    Conjoined (elements.map test) result ↔ elements.allM test = result := by
  rw [← allM_map]
  constructor
  · exact Conjoined.allM_eq
  · rintro rfl
    exact conjoined_allM _

/-- A guard is tested before its consequents, and they only if it holds. -/
theorem implied_iff {test : α → Except ε Bool} {elements : List α} :
    Implied guard (elements.map test) result ↔
      (do if ← guard then elements.allM test else return true) = result := by
  constructor
  · intro implied
    cases implied with
    | untested raises =>
        rw [raises]
        rfl
    | vacuous fails =>
        rw [fails]
        rfl
    | applied holds conjoined =>
        rw [holds]
        exact conjoined_iff.mp conjoined
  · rintro rfl
    cases guard with
    | error unresolved => exact .untested rfl
    | ok holds =>
        cases holds with
        | true => exact .applied rfl (conjoined_iff.mpr rfl)
        | false => exact .vacuous rfl

end Tests

namespace Model

variable {model : Model} {assignment : Assignment} {rule : Rule} {name : String} {start : Nat}
  {array : RecordArray}

def ImpliedAt (model : Model) (assignment : Assignment) (rule : Rule) (array : String)
    (index : Nat) (result : Except Unresolved Bool) : Prop :=
  Implied (model.evaluate assignment none (rule.guard.grounded array index))
    (rule.consequents.map fun consequent =>
      model.evaluate assignment none (consequent.grounded array index)) result

/-- To hold for an element is what the grounded implication says. -/
theorem impliedAt_iff (found : model.record? name = some (start, array)) {index : Nat}
    {result : Except Unresolved Bool} :
    model.ImpliedAt assignment rule name index result ↔
      model.holdsAt assignment rule ⟨name, index⟩ = result := by
  rw [ImpliedAt, implied_iff, holdsAt]
  simp only [evaluate_grounded found]

theorem checkRule_of_record (found : model.record? name = some (start, array))
    (consequents : rule.consequents ≠ []) (quantifies : rule.guard.left.name = name) :
    model.checkRule assignment rule =
      (List.range array.size).allM fun index : Nat =>
        model.holdsAt assignment rule ⟨name, index⟩ := by
  rw [checkRule, quantifiedArray?_of_consequents consequents, quantifies, found]
  rfl

theorem forall₂_impliedAt_iff (found : model.record? name = some (start, array))
    {indices : List Nat} {implications : List (Except Unresolved Bool)} :
    List.Forall₂ (model.ImpliedAt assignment rule name) indices implications ↔
      indices.map (fun index : Nat => model.holdsAt assignment rule ⟨name, index⟩) =
        implications := by
  rw [← List.forall₂_eq_eq_eq, List.forall₂_map_left_iff]
  exact ⟨.imp fun _ _ => (impliedAt_iff found).mp, .imp fun _ _ => (impliedAt_iff found).mpr⟩

/-- A comparison that is tested for an element says what it says when it is grounded in it.  A rule
that is quantified over an array says what its grounded implications say, made one after the other
from the first element to the last. -/
theorem binding_grounds (found : model.record? name = some (start, array)) :
    (∀ index < array.size, ∀ assignment comparison,
      model.evaluate assignment (some ⟨name, (index : Nat)⟩) comparison =
        model.evaluate assignment none (comparison.grounded name (index : Nat))) ∧
      ∀ assignment rule, rule.consequents ≠ [] → rule.guard.left.name = name → ∀ result,
        model.checkRule assignment rule = result ↔
          ∃ implications, List.Forall₂ (model.ImpliedAt assignment rule name)
            (List.range array.size) implications ∧ Conjoined implications result := by
  refine ⟨fun index _ assignment comparison => (evaluate_grounded found comparison).symm, ?_⟩
  intro assignment rule consequents quantifies result
  rw [checkRule_of_record found consequents quantifies, ← conjoined_iff]
  constructor
  · intro conjoined
    exact ⟨_, (forall₂_impliedAt_iff found).mpr rfl, conjoined⟩
  · rintro ⟨implications, grounded, conjoined⟩
    rwa [(forall₂_impliedAt_iff found).mp grounded]

/-- For every record that is not red, the last record has no label that is called like another
array, and then the record has the second color, and then a test follows that cannot be made, since
the other array is named without an element. -/
def strayRule : Rule where
  guard := ⟨⟨"P", [.field "a"], ⟨8, 1⟩⟩, true, ⟨"red", [], ⟨8, 8⟩⟩⟩
  consequents :=
    [⟨⟨"P", [.index 1, .field "b"], ⟨9, 5⟩⟩, true, ⟨"Q", [.field "a"], ⟨9, 15⟩⟩⟩,
     ⟨⟨"P", [.field "b"], ⟨10, 5⟩⟩, false, ⟨"S", [.index 1], ⟨10, 11⟩⟩⟩,
     ⟨⟨"Q", [.field "b"], ⟨11, 5⟩⟩, false, ⟨"P", [.field "a"], ⟨11, 11⟩⟩⟩]

def strayPuzzle : Puzzle where
  file := none
  domains := [⟨"Color", ["red", "blue"]⟩]
  schemas := [⟨"Pair", [⟨"Color", "a", false⟩, ⟨"Color", "b", false⟩]⟩]
  declarations := [⟨"P", "Pair", some 2, ⟨5, 1⟩⟩, ⟨"Q", "Pair", some 1, ⟨6, 1⟩⟩,
    ⟨"S", "Color", some 2, ⟨7, 1⟩⟩]
  rules := [strayRule]

def pairArray (name : String) (size : Nat) : RecordArray where
  name := name
  schema := ⟨"Pair", [⟨"Color", "a", false⟩, ⟨"Color", "b", false⟩]⟩
  fields := [("a", ⟨"Color", ⟨"Color", ["red", "blue"]⟩⟩),
    ("b", ⟨"Color", ⟨"Color", ["red", "blue"]⟩⟩)]
  size := size

def strayModel : Model where
  file := none
  domains := strayPuzzle.domains
  schemas := strayPuzzle.schemas
  scalars := [⟨"S", ⟨"Color", ⟨"Color", ["red", "blue"]⟩⟩, 2⟩]
  records := [pairArray "P" 2, pairArray "Q" 1]
  rules := strayPuzzle.rules
  cells := List.replicate 8 ⟨"Color", ⟨"Color", ["red", "blue"]⟩⟩
  peers := List.replicate 8 []

/-- The first record is red, the guard holds for the second one, and so do the first two
consequents; the test of the last one is at fault. -/
theorem strayRule_grounds :
    build strayPuzzle = .ok strayModel ∧ strayModel.record? "P" = some (2, pairArray "P" 2) ∧
      strayModel.evaluate [0, 1, 0, 0, 1, 1, 0, 0] (some ⟨"P", 1⟩) strayRule.guard =
        strayModel.evaluate [0, 1, 0, 0, 1, 1, 0, 0] none
          ⟨⟨"P", [.field "a", .index 1], ⟨8, 1⟩⟩, true, ⟨"red", [], ⟨8, 8⟩⟩⟩ ∧
      ∃ implications, List.Forall₂
          (strayModel.ImpliedAt [0, 1, 0, 0, 1, 1, 0, 0] strayRule "P") (List.range 2)
          implications ∧
        Conjoined implications (.error (.fault ⟨.missingElement "Q", none⟩)) := by
  have found : strayModel.record? "P" = some (2, pairArray "P" 2) := by rfl
  obtain ⟨comparisons, rules⟩ := binding_grounds found
  exact ⟨by rfl, found, comparisons 1 (by decide) _ _, (rules _ strayRule nofun rfl _).mp (by rfl)⟩

end Model

end LogicPuzzle
