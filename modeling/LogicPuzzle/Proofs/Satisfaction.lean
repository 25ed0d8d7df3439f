import LogicPuzzle.Proofs.Decisions
import LogicPuzzle.Proofs.Odometer

/-!
# The check of an assignment

An assignment gives every slot of a puzzle a place.  The main statement is that
the check of an assignment accepts it exactly when these places meet the demand
of the puzzle, as long as every rule can be tested.
-/

namespace LogicPuzzle

def RecordArray.Differs (array : RecordArray) (held : Nat → Int) : Prop :=
  ∀ field ∈ array.uniquePlaces, ∀ first < array.size, ∀ second < array.size, first ≠ second →
    held (array.cellNumber first field) ≠ held (array.cellNumber second field)

namespace Model

def valuation (model : Model) (assignment : Assignment) : Valuation := fun slot =>
  match model.number? slot with
  | some cell => assignment.placeOf cell
  | none => -1

variable {model : Model} {puzzle : Puzzle} {binding : Option Binding} {reference : Reference}
  {assignment : Assignment} {comparison : Comparison} {rule : Rule}

/-! ## Comparisons -/

theorem valuation_of_number {slot : Slot} {cell : Nat} (numbered : model.number? slot = some cell) :
    model.valuation assignment slot = assignment.placeOf cell := by
  rw [valuation, numbered]

theorem BuiltFrom.rightPlace_of_denotes (built : model.BuiltFrom puzzle) {slot : Slot}
    {domain : Domain} (denotes : puzzle.Denotes binding reference slot domain) (left : Nat) :
    model.rightPlace assignment binding left reference =
      .ok (model.valuation assignment slot) := by
  obtain ⟨cell, resolved, numbered, _⟩ := built.resolve_of_denotes denotes
  rw [rightPlace, resolved, valuation_of_number numbered]

theorem BuiltFrom.rightPlace_of_unnamed (built : model.BuiltFrom puzzle)
    (nonnegative : reference.Nonnegative) (readable : model.Readable binding reference)
    (unnamed : ∀ slot domain, ¬ puzzle.Denotes binding reference slot domain) (left : Nat) :
    model.rightPlace assignment binding left reference =
      .ok (model.labelPlace left reference.name) := by
  rw [rightPlace]
  cases resolved : model.resolve binding reference with
  | ok cell =>
      obtain ⟨slot, domain, denotes⟩ := built.denotes_of_resolve nonnegative resolved
      exact absurd denotes (unnamed slot domain)
  | error unresolved =>
      obtain ⟨diagnostic, rfl⟩ := readable unresolved resolved
      rfl

/-- Any slot that a reference stands for is the one of the cell that it resolves to. -/
theorem BuiltFrom.valuation_of_resolve (built : model.BuiltFrom puzzle) {cell : Nat} {slot : Slot}
    {domain : Domain} (resolved : model.resolve binding reference = .ok cell)
    (denotes : puzzle.Denotes binding reference slot domain) :
    model.valuation assignment slot = assignment.placeOf cell ∧
      ∃ type, model.cells[cell]? = some ⟨type, domain⟩ := by
  obtain ⟨otherCell, otherResolved, numbered, found⟩ := built.resolve_of_denotes denotes
  rw [resolved] at otherResolved
  cases otherResolved
  exact ⟨valuation_of_number numbered, found⟩

section Sides

variable {cell : Nat} {slot : Slot} {domain : Domain}

/-- When the right side stands for a slot, the sides agree if the cells hold the same place. -/
theorem BuiltFrom.agrees_iff_of_denotes (built : model.BuiltFrom puzzle)
    (resolved : model.resolve binding comparison.left = .ok cell)
    (denotes : puzzle.Denotes binding comparison.left slot domain)
    {right : Slot} {rightDomain : Domain}
    (rightDenotes : puzzle.Denotes binding comparison.right right rightDomain) :
    puzzle.Agrees (model.valuation assignment) binding comparison ↔
      assignment.placeOf cell = model.valuation assignment right := by
  constructor
  · rintro (⟨leftDenotes, otherDenotes, equal⟩ | ⟨_, unnamed, _, _⟩)
    · have read : model.rightPlace assignment binding cell comparison.right = .ok _ :=
        built.rightPlace_of_denotes otherDenotes cell
      rw [built.rightPlace_of_denotes rightDenotes cell] at read
      rw [← (built.valuation_of_resolve resolved leftDenotes).1, equal, Except.ok.inj read]
    · exact absurd rightDenotes (unnamed right rightDomain)
  · intro equal
    exact .slots denotes rightDenotes ((built.valuation_of_resolve resolved denotes).1.trans equal)

/-- When the right side stands for no slot, the sides agree if the left cell holds its label. -/
theorem BuiltFrom.agrees_iff_of_unnamed (built : model.BuiltFrom puzzle)
    (inRange : assignment.InRange model.cells)
    (resolved : model.resolve binding comparison.left = .ok cell)
    (denotes : puzzle.Denotes binding comparison.left slot domain)
    (unnamed : ∀ right rightDomain, ¬ puzzle.Denotes binding comparison.right right rightDomain) :
    puzzle.Agrees (model.valuation assignment) binding comparison ↔
      assignment.placeOf cell = model.labelPlace cell comparison.right.name := by
  have left : model.valuation assignment slot = assignment.placeOf cell ∧ _ :=
    built.valuation_of_resolve resolved denotes
  rcases left with ⟨held, type, found⟩
  have lower := (inRange.placeOf_bounds found).1
  rw [labelPlace, found, ← held]
  simp only [Domain.indexOf]
  constructor
  · rintro (⟨_, rightDenotes, _⟩ | ⟨leftDenotes, _, placed, equal⟩)
    · exact absurd rightDenotes (unnamed _ _)
    · obtain ⟨otherHeld, otherType, otherFound⟩ :=
        built.valuation_of_resolve resolved leftDenotes
      rw [found] at otherFound
      cases otherFound
      rw [placed, held, ← otherHeld, equal]
  · intro equal
    split at equal
    · next place placed => exact .label denotes unnamed placed equal
    · -- No cell holds the place of a label that is missing.
      omega

/-- Whatever the right side stands for, the sides agree when the left cell holds its place. -/
theorem BuiltFrom.agrees_iff (built : model.BuiltFrom puzzle)
    (inRange : assignment.InRange model.cells) (nonnegative : comparison.right.Nonnegative)
    (readable : model.Readable binding comparison.right)
    (resolved : model.resolve binding comparison.left = .ok cell)
    (denotes : puzzle.Denotes binding comparison.left slot domain) :
    ∃ right, model.rightPlace assignment binding cell comparison.right = .ok right ∧
      (puzzle.Agrees (model.valuation assignment) binding comparison ↔
        assignment.placeOf cell = right) := by
  by_cases named : ∃ right rightDomain, puzzle.Denotes binding comparison.right right rightDomain
  · rcases named with ⟨right, rightDomain, rightDenotes⟩
    exact ⟨_, built.rightPlace_of_denotes rightDenotes cell,
      built.agrees_iff_of_denotes resolved denotes rightDenotes⟩
  · have unnamed : ∀ right rightDomain,
        ¬ puzzle.Denotes binding comparison.right right rightDomain :=
      fun right rightDomain rightDenotes => named ⟨right, rightDomain, rightDenotes⟩
    exact ⟨_, built.rightPlace_of_unnamed nonnegative readable unnamed cell,
      built.agrees_iff_of_unnamed inRange resolved denotes unnamed⟩

end Sides

/-- A comparison of a rule that can be tested is true when it holds. -/
theorem BuiltFrom.evaluate_eq (built : model.BuiltFrom puzzle)
    (inRange : assignment.InRange model.cells) (nonnegative : rule.Nonnegative)
    (decides : model.Decides rule) (tested : model.Tested rule binding comparison) :
    ∃ result, model.evaluate assignment binding comparison = .ok result ∧
      (result = true ↔ puzzle.Holds (model.valuation assignment) binding comparison) := by
  obtain ⟨leftNonnegative, rightNonnegative⟩ := nonnegative comparison tested.comparison_mem
  obtain ⟨cell, resolved⟩ := decides.left.resolves tested
  obtain ⟨slot, domain, denotes⟩ := built.denotes_of_resolve leftNonnegative resolved
  obtain ⟨right, read, agrees⟩ := built.agrees_iff inRange rightNonnegative
    (decides.right _ _ tested) resolved denotes
  refine ⟨(assignment.placeOf cell == right) != comparison.negated, ?_, ?_⟩
  · rw [evaluate, resolved]
    change (model.rightPlace assignment binding cell comparison.right >>= _) = _
    rw [read]
    rfl
  · rw [Puzzle.Holds, agrees]
    cases comparison.negated <;> simp

theorem BuiltFrom.evaluate_true_iff (built : model.BuiltFrom puzzle)
    (inRange : assignment.InRange model.cells) (nonnegative : rule.Nonnegative)
    (decides : model.Decides rule) (tested : model.Tested rule binding comparison) :
    model.evaluate assignment binding comparison = .ok true ↔
      puzzle.Holds (model.valuation assignment) binding comparison := by
  obtain ⟨result, evaluated, holds⟩ := built.evaluate_eq inRange nonnegative decides tested
  rw [evaluated, ← holds, Except.ok.injEq]

/-! ## Rules -/

theorem allM_eq_true_iff {ε α : Type} (test : α → Except ε Bool) (elements : List α) :
    elements.allM test = .ok true ↔ ∀ element ∈ elements, test element = .ok true := by
  induction elements with
  | nil => simp [pure, Except.pure]
  | cons first rest ih =>
      rw [List.allM_cons, List.forall_mem_cons, ← ih]
      cases result : test first with
      | error fault => simp [bind, Except.bind]
      | ok passed => cases passed <;> simp [bind, Except.bind, pure, Except.pure]

/-- Tests behind others are made when those all pass. -/
theorem allM_append {ε α : Type} (test : α → Except ε Bool) (elements more : List α) :
    (elements ++ more).allM test =
      (do if ← elements.allM test then more.allM test else return false) := by
  induction elements with
  | nil => rfl
  | cons element rest ih =>
      rw [List.cons_append, List.allM_cons, List.allM_cons, ih]
      cases test element with
      | error unresolved => rfl
      | ok passed =>
          cases passed with
          | true => rfl
          | false => rfl

theorem BuiltFrom.holdsAt_true_iff (built : model.BuiltFrom puzzle)
    (inRange : assignment.InRange model.cells) (nonnegative : rule.Nonnegative)
    (decides : model.Decides rule) {array : RecordArray} {index : Nat}
    (quantified : model.quantifiedArray? rule = some array) (inside : index < array.size) :
    model.holdsAt assignment rule ⟨rule.guard.left.name, index⟩ = .ok true ↔
      (puzzle.Holds (model.valuation assignment) (some ⟨rule.guard.left.name, (index : Nat)⟩)
          rule.guard →
        ∀ consequent ∈ rule.consequents, puzzle.Holds (model.valuation assignment)
          (some ⟨rule.guard.left.name, (index : Nat)⟩) consequent) := by
  obtain ⟨result, evaluated, guardHolds⟩ :=
    built.evaluate_eq inRange nonnegative decides (.element quantified inside List.mem_cons_self)
  have others : (rule.consequents.allM
        (model.evaluate assignment (some ⟨rule.guard.left.name, (index : Nat)⟩))) = .ok true ↔
      ∀ consequent ∈ rule.consequents, puzzle.Holds (model.valuation assignment)
        (some ⟨rule.guard.left.name, (index : Nat)⟩) consequent := by
    rw [allM_eq_true_iff]
    refine forall₂_congr fun consequent member => ?_
    exact built.evaluate_true_iff inRange nonnegative decides
      (.element quantified inside (List.mem_cons_of_mem _ member))
  rw [← guardHolds, ← others, holdsAt, evaluated]
  cases result <;> simp [bind, Except.bind, pure, Except.pure]

theorem quantifiedArray?_of_plain (plain : rule.consequents = []) :
    model.quantifiedArray? rule = none := by
  rw [quantifiedArray?, Rule.quantified, plain]
  rfl

theorem quantifiedArray?_of_consequents (consequents : rule.consequents ≠ []) :
    model.quantifiedArray? rule = (model.record? rule.guard.left.name).map (·.2) := by
  rw [quantifiedArray?, Rule.quantified]
  cases listed : rule.consequents with
  | nil => exact absurd listed consequents
  | cons first rest => rfl

/-- A rule that is tested for no element holds if its guard does. -/
theorem BuiltFrom.checkRule_unquantified_iff (built : model.BuiltFrom puzzle)
    (inRange : assignment.InRange model.cells) (nonnegative : rule.Nonnegative)
    (decides : model.Decides rule) (unquantified : model.quantifiedArray? rule = none) :
    model.checkRule assignment rule = .ok true ↔
      puzzle.Holds (model.valuation assignment) none rule.guard := by
  rw [checkRule, unquantified]
  exact built.evaluate_true_iff inRange nonnegative decides (.alone unquantified)

/-- A rule that is tested for every element of an array holds if it does for every one. -/
theorem BuiltFrom.checkRule_quantified_iff (built : model.BuiltFrom puzzle)
    (inRange : assignment.InRange model.cells) (nonnegative : rule.Nonnegative)
    (decides : model.Decides rule) {array : RecordArray}
    (quantified : model.quantifiedArray? rule = some array) :
    model.checkRule assignment rule = .ok true ↔
      ∀ index < array.size,
        puzzle.Holds (model.valuation assignment) (some ⟨rule.guard.left.name, (index : Nat)⟩)
            rule.guard →
          ∀ consequent ∈ rule.consequents,
            puzzle.Holds (model.valuation assignment)
              (some ⟨rule.guard.left.name, (index : Nat)⟩) consequent := by
  rw [checkRule, quantified]
  simp only [allM_eq_true_iff, List.mem_range]
  refine forall₂_congr fun index inside => ?_
  exact built.holdsAt_true_iff inRange nonnegative decides quantified inside

/-- A rule without consequents holds when its guard does. -/
theorem ruleHolds_iff_of_plain {value : Valuation} (plain : rule.consequents = []) :
    puzzle.RuleHolds value rule ↔ puzzle.Holds value none rule.guard := by
  constructor
  · intro holds
    exact holds.plain plain
  · intro holds
    exact ⟨fun _ => holds, fun consequents => absurd plain consequents,
      fun consequents => absurd plain consequents⟩

/-- So does a rule with consequents whose guard names no record array. -/
theorem ruleHolds_iff_of_undeclared {value : Valuation} (consequents : rule.consequents ≠ [])
    (undeclared : ∀ schema size, ¬ puzzle.DeclaresRecords rule.guard.left.name schema size) :
    puzzle.RuleHolds value rule ↔ puzzle.Holds value none rule.guard := by
  constructor
  · intro holds
    exact holds.unquantified consequents undeclared
  · intro holds
    exact ⟨fun plain => absurd plain consequents,
      fun _ schema size declared => absurd declared (undeclared schema size), fun _ _ => holds⟩

/-- A rule with consequents holds for the elements of the one array that its guard names. -/
theorem BuiltFrom.ruleHolds_iff_of_record (built : model.BuiltFrom puzzle) {value : Valuation}
    (consequents : rule.consequents ≠ []) {start : Nat} {array : RecordArray}
    (found : model.record? rule.guard.left.name = some (start, array)) :
    puzzle.RuleHolds value rule ↔
      ∀ index < array.size,
        puzzle.Holds value (some ⟨rule.guard.left.name, (index : Nat)⟩) rule.guard →
          ∀ consequent ∈ rule.consequents,
            puzzle.Holds value (some ⟨rule.guard.left.name, (index : Nat)⟩) consequent := by
  have declared := built.declaresRecords_iff.mpr ⟨start, array, found, rfl, rfl⟩
  constructor
  · intro holds
    exact holds.quantified consequents array.schema array.size declared
  · intro holds
    refine ⟨fun plain => absurd plain consequents, ?_,
      fun _ undeclared => absurd declared (undeclared _ _)⟩
    intro _ schema size otherDeclared
    obtain ⟨_, other, otherFound, rfl, rfl⟩ := built.declaresRecords_iff.mp otherDeclared
    rw [found] at otherFound
    cases otherFound
    exact holds

/-- The test of a rule accepts an assignment when the rule holds. -/
theorem BuiltFrom.checkRule_true_iff (built : model.BuiltFrom puzzle)
    (inRange : assignment.InRange model.cells) (nonnegative : rule.Nonnegative)
    (decides : model.Decides rule) :
    model.checkRule assignment rule = .ok true ↔
      puzzle.RuleHolds (model.valuation assignment) rule := by
  by_cases plain : rule.consequents = []
  · rw [ruleHolds_iff_of_plain plain]
    exact built.checkRule_unquantified_iff inRange nonnegative decides
      (quantifiedArray?_of_plain plain)
  · have quantified : model.quantifiedArray? rule = _ := quantifiedArray?_of_consequents plain
    cases found : model.record? rule.guard.left.name with
    | none =>
        rw [found, Option.map_none] at quantified
        have undeclared : ∀ schema size,
            ¬ puzzle.DeclaresRecords rule.guard.left.name schema size := by
          intro schema size declared
          obtain ⟨start, array, other, _⟩ := built.declaresRecords_iff.mp declared
          rw [found] at other
          cases other
        rw [ruleHolds_iff_of_undeclared plain undeclared]
        exact built.checkRule_unquantified_iff inRange nonnegative decides quantified
    | some entry =>
        rcases entry with ⟨start, array⟩
        rw [found, Option.map_some] at quantified
        rw [built.ruleHolds_iff_of_record plain found]
        exact built.checkRule_quantified_iff inRange nonnegative decides quantified

/-! ## Uniqueness -/

/-- A test of all cells refuses an assignment that gives two peers the same place. -/
theorem checkUniqueness_true_iff :
    model.checkUniqueness assignment = true ↔
      ∀ holder < model.cells.length, ∀ member ∈ model.peers.of holder,
        assignment.placeOf member ≠ assignment.placeOf holder := by
  rw [checkUniqueness, List.all_eq_true]
  refine forall_congr' fun holder => ?_
  rw [List.mem_range, Bool.not_eq_true', Peers.conflict, List.any_eq_false]
  simp only [beq_iff_eq, Assignment.placeOf, ne_eq]

/-- An accepted assignment has no conflicts. -/
theorem checkUniqueness_of_check (accepted : model.check assignment = .ok true) :
    model.checkUniqueness assignment = true := by
  by_contra conflicting
  rw [check, if_neg conflicting] at accepted
  cases accepted

theorem valuation_field {name field : String} {start place index : Nat} {array : RecordArray}
    (found : model.record? name = some (start, array)) (inside : index < array.size)
    (placed : array.fieldPlace? field = some place) :
    model.valuation assignment (.field name index field) =
      assignment.placeOf (start + array.cellNumber index place) :=
  valuation_of_number (number?_field found inside placed)

/-- The place of a unique field is one in which the elements must differ. -/
theorem BuiltFrom.exists_uniquePlace (built : model.BuiltFrom puzzle) {start : Nat}
    {array : RecordArray} {entry : Entry} (numbered : (start, array) ∈ model.numberedRecords)
    (member : entry ∈ array.schema.entries) (unique : entry.unique = true) :
    ∃ place ∈ array.uniquePlaces, array.fieldPlace? entry.name = some place := by
  obtain ⟨last, found⟩ := Schema.exists_entry? (List.mem_map_of_mem member)
  obtain ⟨place, placed⟩ := built.exists_fieldPlace? numbered found
  exact ⟨place, List.mem_filterMap.mpr
    ⟨entry, List.mem_filter.mpr ⟨member, unique⟩, placed⟩, placed⟩

/-- The test of all cells accepts an assignment when it gives the elements of every record array
different places in each unique field. -/
theorem BuiltFrom.checkUniqueness_iff_differs (built : model.BuiltFrom puzzle) :
    model.checkUniqueness assignment = true ↔
      ∀ entry ∈ model.numberedRecords,
        entry.2.Differs fun offset => assignment.placeOf (entry.1 + offset) := by
  rw [checkUniqueness_true_iff]
  constructor
  · rintro different ⟨start, array⟩ numbered field unique first firstBelow second secondBelow apart
    have inside : start + array.cellNumber second field < model.cells.length := by
      rw [built.length_cells]
      exact (number_bounds_of_record numbered
        (RecordArray.cellNumber_lt secondBelow (RecordArray.lt_of_mem_uniquePlaces unique))).2
    exact different _ inside _ (built.mem_peers_iff.mpr ⟨start, array, numbered, field, unique,
      second, first, secondBelow, firstBelow, apart.symm, rfl, rfl⟩)
  · intro differs holder _ member joined
    obtain ⟨start, array, numbered, field, unique, first, second, firstBelow, secondBelow, apart,
      rfl, rfl⟩ := built.mem_peers_iff.mp joined
    exact differs _ numbered field unique second secondBelow first firstBelow apart.symm

/-- The test of all cells accepts an assignment when unique fields differ between elements. -/
theorem BuiltFrom.checkUniqueness_iff (built : model.BuiltFrom puzzle) :
    model.checkUniqueness assignment = true ↔
      puzzle.Unrepeated (model.valuation assignment) := by
  rw [built.checkUniqueness_iff_differs]
  constructor
  · intro different name schema size declared entry member unique first second order below
    obtain ⟨start, array, found, rfl, rfl⟩ := built.declaresRecords_iff.mp declared
    obtain ⟨numbered, _⟩ := built.record?_eq_some_iff.mp found
    obtain ⟨place, uniquePlace, placed⟩ := built.exists_uniquePlace numbered member unique
    have firstBelow := Nat.lt_trans order below
    rw [valuation_field found firstBelow placed, valuation_field found below placed]
    exact different _ numbered place uniquePlace first firstBelow second below
      (Nat.ne_of_lt order)
  · rintro different ⟨start, array⟩ numbered place uniquePlace first firstBelow second secondBelow
      apart
    obtain ⟨entry, inUnique, placed⟩ := List.mem_filterMap.mp uniquePlace
    obtain ⟨inEntries, unique⟩ := List.mem_filter.mp inUnique
    have found := built.record?_eq_some_iff.mpr ⟨numbered, rfl⟩
    have declared := built.declaresRecords_iff.mpr ⟨start, array, found, rfl, rfl⟩
    simp only [← valuation_field found firstBelow placed,
      ← valuation_field found secondBelow placed]
    rcases Nat.lt_or_gt_of_ne apart with order | order
    · exact different _ _ _ declared entry inEntries unique _ _ order secondBelow
    · exact (different _ _ _ declared entry inEntries unique _ _ order firstBelow).symm

/-! ## The whole check -/

theorem BuiltFrom.check_true_iff (built : model.BuiltFrom puzzle)
    (inRange : assignment.InRange model.cells)
    (nonnegative : ∀ rule ∈ puzzle.rules, rule.Nonnegative)
    (decides : ∀ rule ∈ puzzle.rules, model.Decides rule) :
    model.check assignment = .ok true ↔ puzzle.Satisfied (model.valuation assignment) := by
  have unique : model.checkUniqueness assignment = true ↔ _ := built.checkUniqueness_iff
  have rules : model.checkRules assignment = .ok true ↔
      ∀ rule ∈ puzzle.rules, puzzle.RuleHolds (model.valuation assignment) rule := by
    rw [checkRules, allM_eq_true_iff, built.rules]
    refine forall₂_congr fun rule member => ?_
    exact built.checkRule_true_iff inRange (nonnegative rule member) (decides rule member)
  rw [check]
  constructor
  · intro accepted
    split at accepted
    · next passed => exact ⟨unique.mp passed, rules.mp accepted⟩
    · cases accepted
  · intro satisfied
    rw [if_pos (unique.mpr satisfied.unique)]
    exact rules.mpr satisfied.rules

/-- The check of an assignment gives an answer, and accepts exactly when the places that the slots
hold meet every demand of the puzzle.  Every rule can be tested: its left sides name cells, and no
right side ends the test as an index does that is out of range and has too many digits to be told. -/
theorem check_true_iff_satisfied (done : build puzzle = .ok model)
    (inRange : assignment.InRange model.cells)
    (nonnegative : ∀ rule ∈ puzzle.rules, rule.Nonnegative)
    (decides : ∀ rule ∈ puzzle.rules, model.Decides rule) :
    ∃ accepted, model.check assignment = .ok accepted ∧
      (accepted = true ↔ puzzle.Satisfied (model.valuation assignment)) := by
  have built := builtFrom_of_build done
  obtain ⟨accepted, checked⟩ := check_ok_of_decides (built.rules ▸ decides) assignment
  refine ⟨accepted, checked, ?_⟩
  rw [← built.check_true_iff inRange nonnegative decides, checked, Except.ok.injEq]

/-- Two records that must differ in one color.  A record that is red in it repeats, in the other
one, the color of the last record. -/
def echoPuzzle : Puzzle where
  file := none
  domains := [⟨"Color", ["red", "blue"]⟩]
  schemas := [⟨"Pair", [⟨"Color", "a", true⟩, ⟨"Color", "b", false⟩]⟩]
  declarations := [⟨"P", "Pair", some 2, ⟨0, 0⟩⟩]
  rules := [⟨⟨⟨"P", [.field "a"], ⟨0, 0⟩⟩, false, ⟨"red", [], ⟨0, 0⟩⟩⟩,
    [⟨⟨"P", [.field "b"], ⟨0, 0⟩⟩, false, ⟨"P", [.index 1, .field "a"], ⟨0, 0⟩⟩⟩]⟩]

def echoArray : RecordArray where
  name := "P"
  schema := ⟨"Pair", [⟨"Color", "a", true⟩, ⟨"Color", "b", false⟩]⟩
  fields := [("a", ⟨"Color", ⟨"Color", ["red", "blue"]⟩⟩),
    ("b", ⟨"Color", ⟨"Color", ["red", "blue"]⟩⟩)]
  size := 2

def echoModel : Model where
  file := none
  domains := echoPuzzle.domains
  schemas := echoPuzzle.schemas
  scalars := []
  records := [echoArray]
  rules := echoPuzzle.rules
  cells := echoArray.cells
  peers := echoArray.peers

theorem satisfied_echoPuzzle :
    build echoPuzzle = .ok echoModel ∧
      (∀ rule ∈ echoPuzzle.rules, rule.Nonnegative ∧ echoModel.Decides rule) ∧
      Assignment.InRange echoModel.cells [0, 1, 1, 0] ∧
      echoPuzzle.Satisfied (echoModel.valuation [0, 1, 1, 0]) := by
  have done : build echoPuzzle = .ok echoModel := by rfl
  have spellable : ∀ rule ∈ echoPuzzle.rules, rule.Spellable := by decide
  have decides : ∀ rule ∈ echoPuzzle.rules, echoModel.Decides rule := by
    intro rule member
    refine decides_of_spellable (spellable rule member) ?_
    rw [List.mem_singleton.mp member]
    change ∀ index < 2, ∀ comparison ∈ _, echoModel.Resolves (some ⟨"P", (index : Nat)⟩) _
    decide
  have inRange : Assignment.InRange echoModel.cells [0, 1, 1, 0] := by
    unfold Assignment.InRange
    decide
  have accepted : echoModel.check [0, 1, 1, 0] = .ok true := by rfl
  have nonnegative : ∀ rule ∈ echoPuzzle.rules, rule.Nonnegative :=
    fun rule member => (spellable rule member).nonnegative
  obtain ⟨also, checked, satisfied⟩ := check_true_iff_satisfied done inRange nonnegative decides
  rw [accepted] at checked
  exact ⟨done, fun rule member => ⟨nonnegative rule member, decides rule member⟩, inRange,
    satisfied.mp (Except.ok.inj checked).symm⟩

end Model

end LogicPuzzle
