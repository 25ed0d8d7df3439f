import LogicPuzzle.Judgement

/-!
# What a puzzle demands

A puzzle read as a whole is a demand on the places that its slots hold: unique
fields differ between the elements of an array, and every rule holds.  The
demand is stated on the puzzle alone, without numbered cells, peers or an order
of tests.
-/

namespace LogicPuzzle

/-- What holds a place: an element of a scalar array, or a field of an element of
a record array. -/
inductive Slot where
  | element (array : String) (index : Nat)
  | field (array : String) (index : Nat) (name : String)
  deriving DecidableEq, Repr

abbrev Valuation := Slot → Int

/-- The entry that gives a field its domain: the last one of that name. -/
def Schema.entry? (schema : Schema) (name : String) : Option Entry :=
  schema.entries.reverse.find? fun entry => entry.name == name

theorem Schema.exists_entry? {schema : Schema} {name : String} (named : name ∈ schema.fieldNames) :
    ∃ entry, schema.entry? name = some entry := by
  obtain ⟨entry, member, rfl⟩ := List.mem_map.mp named
  apply Option.isSome_iff_exists.mp
  rw [Schema.entry?, List.find?_isSome]
  exact ⟨entry, List.mem_reverse.mpr member, beq_self_eq_true _⟩

namespace Reference

/-- The element that a reference selects: the one it gives the index of, or the bound one. -/
inductive Selects (binding : Option Binding) (reference : Reference) (index : Nat) : Prop where
  | explicit (given : reference.index? = some (index : Int))
  | bound (ungiven : reference.index? = none) (bound : binding = some ⟨reference.name, index⟩)

/-- A reference does not count from the end of an array. -/
def Nonnegative (reference : Reference) : Prop :=
  ∀ index ∈ reference.index?, 0 ≤ index

instance (reference : Reference) : Decidable reference.Nonnegative :=
  inferInstanceAs (Decidable (∀ index ∈ reference.index?, 0 ≤ index))

/-- A reference gives no index that a text cannot give. -/
def Spellable (reference : Reference) : Prop :=
  ∀ index ∈ reference.index?, isWritableNumber index = true

instance (reference : Reference) : Decidable reference.Spellable :=
  inferInstanceAs (Decidable (∀ index ∈ reference.index?, isWritableNumber index = true))

theorem Spellable.nonnegative {reference : Reference} (spellable : reference.Spellable) :
    reference.Nonnegative :=
  fun index given => (isWritableNumber_iff.mp (spellable index given)).1

end Reference

def Rule.Nonnegative (rule : Rule) : Prop :=
  ∀ comparison ∈ rule.guard :: rule.consequents,
    comparison.left.Nonnegative ∧ comparison.right.Nonnegative

instance (rule : Rule) : Decidable rule.Nonnegative :=
  inferInstanceAs (Decidable (∀ comparison ∈ rule.guard :: rule.consequents,
    comparison.left.Nonnegative ∧ comparison.right.Nonnegative))

def Rule.Spellable (rule : Rule) : Prop :=
  ∀ comparison ∈ rule.guard :: rule.consequents,
    comparison.left.Spellable ∧ comparison.right.Spellable

instance (rule : Rule) : Decidable rule.Spellable :=
  inferInstanceAs (Decidable (∀ comparison ∈ rule.guard :: rule.consequents,
    comparison.left.Spellable ∧ comparison.right.Spellable))

theorem Rule.Spellable.nonnegative {rule : Rule} (spellable : rule.Spellable) :
    rule.Nonnegative :=
  fun comparison member => (spellable comparison member).imp
    Reference.Spellable.nonnegative Reference.Spellable.nonnegative

namespace Puzzle

def DeclaresScalars (puzzle : Puzzle) (name : String) (domain : Domain) (size : Nat) : Prop :=
  ∃ declaration ∈ puzzle.declarations, declaration.name = name ∧ declaration.length = size ∧
    domain ∈ puzzle.domains ∧ domain.name = declaration.type

def DeclaresRecords (puzzle : Puzzle) (name : String) (schema : Schema) (size : Nat) : Prop :=
  ∃ declaration ∈ puzzle.declarations, declaration.name = name ∧ declaration.length = size ∧
    schema ∈ puzzle.schemas ∧ schema.name = declaration.type

/-- The slot that a reference stands for, with the domain of the slot. -/
inductive Denotes (puzzle : Puzzle) (binding : Option Binding) (reference : Reference) :
    Slot → Domain → Prop where
  | element {domain : Domain} {size index : Nat}
      (declared : puzzle.DeclaresScalars reference.name domain size)
      (given : reference.index? = some (index : Int)) (inside : index < size) :
      Denotes puzzle binding reference (.element reference.name index) domain
  | field {schema : Schema} {size index : Nat} {name : String} {entry : Entry} {domain : Domain}
      (declared : puzzle.DeclaresRecords reference.name schema size)
      (selects : reference.Selects binding index) (inside : index < size)
      (named : reference.field? = some name) (entered : schema.entry? name = some entry)
      (member : domain ∈ puzzle.domains) (typed : domain.name = entry.type) :
      Denotes puzzle binding reference (.field reference.name index name) domain

/-- The two sides of a comparison agree.  A right side that stands for no slot is a label of
the domain of the left side. -/
inductive Agrees (puzzle : Puzzle) (value : Valuation) (binding : Option Binding)
    (comparison : Comparison) : Prop where
  | slots {left right : Slot} {leftDomain rightDomain : Domain}
      (leftDenotes : puzzle.Denotes binding comparison.left left leftDomain)
      (rightDenotes : puzzle.Denotes binding comparison.right right rightDomain)
      (equal : value left = value right)
  | label {left : Slot} {domain : Domain} {place : Nat}
      (leftDenotes : puzzle.Denotes binding comparison.left left domain)
      (unnamed : ∀ right rightDomain, ¬ puzzle.Denotes binding comparison.right right rightDomain)
      (placed : domain.labels.idxOf? comparison.right.name = some place)
      (equal : value left = place)

/-- A comparison holds: its sides agree, or do not when it is negated. -/
def Holds (puzzle : Puzzle) (value : Valuation) (binding : Option Binding)
    (comparison : Comparison) : Prop :=
  if comparison.negated then ¬ puzzle.Agrees value binding comparison
  else puzzle.Agrees value binding comparison

/-- A rule holds: its guard does, or, when it has consequents and its guard names a record
array, every element for which its guard holds has all its consequents. -/
structure RuleHolds (puzzle : Puzzle) (value : Valuation) (rule : Rule) : Prop where
  plain : rule.consequents = [] → puzzle.Holds value none rule.guard
  quantified : rule.consequents ≠ [] →
    ∀ schema size, puzzle.DeclaresRecords rule.guard.left.name schema size →
      ∀ index < size, puzzle.Holds value (some ⟨rule.guard.left.name, (index : Nat)⟩) rule.guard →
        ∀ consequent ∈ rule.consequents,
          puzzle.Holds value (some ⟨rule.guard.left.name, (index : Nat)⟩) consequent
  unquantified : rule.consequents ≠ [] →
    (∀ schema size, ¬ puzzle.DeclaresRecords rule.guard.left.name schema size) →
      puzzle.Holds value none rule.guard

/-- No two elements of a record array hold the same place in a unique field. -/
def Unrepeated (puzzle : Puzzle) (value : Valuation) : Prop :=
  ∀ name schema size, puzzle.DeclaresRecords name schema size →
    ∀ entry ∈ schema.entries, entry.unique = true →
      ∀ first second, first < second → second < size →
        value (.field name first entry.name) ≠ value (.field name second entry.name)

structure Satisfied (puzzle : Puzzle) (value : Valuation) : Prop where
  unique : puzzle.Unrepeated value
  rules : ∀ rule ∈ puzzle.rules, puzzle.RuleHolds value rule

end Puzzle

end LogicPuzzle
