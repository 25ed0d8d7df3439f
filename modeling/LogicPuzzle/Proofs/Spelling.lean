import LogicPuzzle.Proofs.Lexemes
import LogicPuzzle.Proofs.StatementReading

/-!
# Lexemes that spell a puzzle

Tokens that have the lexemes of a phrase spell the phrase, up to the places at
which it stands.
-/

namespace LogicPuzzle

open Grammar

variable {tokens : List Token}

theorem lexeme_eq_iff {token : Token} {kind : Kind} {text : String} :
    token.lexeme = ⟨kind, text⟩ ↔ token.kind = kind ∧ token.text = text := by
  rw [Token.lexeme, Lexeme.mk.injEq]

theorem map_lexeme_singleton {kind : Kind} {text : String}
    (same : tokens.map Token.lexeme = [⟨kind, text⟩]) :
    ∃ token : Token, tokens = [token] ∧ token.kind = kind ∧ token.text = text := by
  obtain ⟨token, others, rfl, first, none⟩ := List.map_eq_cons_iff.mp same
  rw [List.map_eq_nil_iff.mp none]
  exact ⟨token, rfl, lexeme_eq_iff.mp first⟩

/-! ## Numbers -/

/-- A written number can be read, and its token denotes it. -/
theorem value_of_written {token : Token} {n : Int} (writable : isWritableNumber n = true)
    (written : token.text = toString n) : token.value = n ∧ NumbersRead [token] := by
  obtain ⟨natural, rfl, digits, short⟩ := isWritableNumber_toDigits writable
  have read : Numeral.read? token.text.toList = some (natural : Int) := by
    rw [written, digits, Numeral.read?_toDigits short]
  refine ⟨?_, ?_⟩
  · rw [Token.value, read, Option.getD_some]
  · intro member inside _
    rw [List.mem_singleton.mp inside, read]
    rfl

/-- The three tokens of a number between brackets. -/
theorem brackets_of_lexemes {n : Int} (writable : isWritableNumber n = true)
    (same : tokens.map Token.lexeme =
      [⟨.openBracket, "["⟩, ⟨.number, toString n⟩, ⟨.closeBracket, "]"⟩]) :
    ∃ opening number closing : Token, tokens = [opening, number, closing] ∧
      opening.kind = .openBracket ∧ number.kind = .number ∧ closing.kind = .closeBracket ∧
        number.value = n ∧ NumbersRead tokens := by
  obtain ⟨opening, _, rfl, first, rest⟩ := List.map_eq_cons_iff.mp same
  obtain ⟨number, _, rfl, second, rest⟩ := List.map_eq_cons_iff.mp rest
  obtain ⟨closing, rfl, closes, _⟩ := map_lexeme_singleton rest
  obtain ⟨opens, _⟩ := lexeme_eq_iff.mp first
  obtain ⟨counts, written⟩ := lexeme_eq_iff.mp second
  obtain ⟨value, read⟩ := value_of_written writable written
  refine ⟨opening, number, closing, rfl, opens, counts, closes, value, ?_⟩
  rw [numbersRead_cons_of_ne (by simp [opens]), numbersRead_cons]
  exact ⟨read, (numbersRead_cons_of_ne (by simp [closes])).mpr numbersRead_nil⟩

/-! ## References and comparisons -/

theorem selector_of_lexemes {selector : Selector} (writable : selector.writable = true)
    (same : tokens.map Token.lexeme = selector.lexemes) :
    selector.SpelledBy tokens ∧ NumbersRead tokens := by
  cases selector with
  | index n =>
      obtain ⟨opening, number, closing, rfl, opens, counts, closes, rfl, read⟩ :=
        brackets_of_lexemes writable same
      exact ⟨.index opens counts closes, read⟩
  | field name =>
      obtain ⟨dot, _, rfl, first, rest⟩ := List.map_eq_cons_iff.mp same
      obtain ⟨token, rfl, names, rfl⟩ := map_lexeme_singleton rest
      obtain ⟨selects, _⟩ := lexeme_eq_iff.mp first
      refine ⟨.field selects names, ?_⟩
      rw [numbersRead_cons_of_ne (by simp [selects]), numbersRead_cons_of_ne (by simp [names])]
      exact numbersRead_nil

theorem selectors_of_lexemes {selectors : List Selector}
    (writable : ∀ selector ∈ selectors, selector.writable = true)
    (same : tokens.map Token.lexeme = selectors.flatMap Selector.lexemes) :
    Sequence Selector.SpelledBy selectors tokens ∧ NumbersRead tokens := by
  induction selectors generalizing tokens with
  | nil =>
      rw [List.map_eq_nil_iff.mp same]
      exact ⟨.nil, numbersRead_nil⟩
  | cons selector selectors ih =>
      obtain ⟨firstWritable, othersWritable⟩ := List.forall_mem_cons.mp writable
      obtain ⟨used, others, rfl, first, rest⟩ := List.map_eq_append_iff.mp same
      obtain ⟨spelled, read⟩ := selector_of_lexemes firstWritable first
      obtain ⟨sequence, othersRead⟩ := ih othersWritable rest
      exact ⟨.cons spelled sequence, numbersRead_append.mpr ⟨read, othersRead⟩⟩

theorem reference_of_lexemes {reference : Reference} (writable : reference.writable = true)
    (same : tokens.map Token.lexeme = reference.lexemes) :
    ∃ result : Reference, result.SpelledBy tokens ∧ result.unplaced = reference.unplaced ∧
      NumbersRead tokens := by
  simp only [Reference.writable, Bool.and_eq_true, List.all_eq_true] at writable
  obtain ⟨name, others, rfl, first, rest⟩ := List.map_eq_cons_iff.mp same
  obtain ⟨names, text⟩ := lexeme_eq_iff.mp first
  obtain ⟨selects, read⟩ := selectors_of_lexemes writable.2 rest
  refine ⟨_, .intro names selects, ?_, (numbersRead_cons_of_ne (by simp [names])).mpr read⟩
  rw [Reference.unplaced, Reference.unplaced, text]

theorem comparison_of_lexemes {comparison : Comparison} (writable : comparison.writable = true)
    (same : tokens.map Token.lexeme = comparison.lexemes) :
    ∃ result : Comparison, result.SpelledBy tokens ∧ result.unplaced = comparison.unplaced ∧
      NumbersRead tokens := by
  rw [Comparison.writable, Bool.and_eq_true] at writable
  obtain ⟨leftUsed, _, rfl, leftSame, rest⟩ := List.map_eq_append_iff.mp same
  obtain ⟨operator, rightUsed, rfl, middle, rightSame⟩ := List.map_eq_cons_iff.mp rest
  obtain ⟨left, leftSpelled, leftUnplaced, leftRead⟩ := reference_of_lexemes writable.1 leftSame
  obtain ⟨right, rightSpelled, rightUnplaced, rightRead⟩ :=
    reference_of_lexemes writable.2 rightSame
  obtain ⟨compares, _⟩ := lexeme_eq_iff.mp middle
  refine ⟨⟨left, comparison.negated, right⟩, .intro leftSpelled compares rightSpelled, ?_, ?_⟩
  · rw [Comparison.unplaced, Comparison.unplaced, leftUnplaced, rightUnplaced]
  · rw [numbersRead_append,
      numbersRead_cons_of_ne (by rw [compares]; cases comparison.negated <;> simp)]
    exact ⟨leftRead, rightRead⟩

/-- A comparison that does not look like a definition does not start like one. -/
theorem startsDefinition_of_lexemes {comparison : Comparison}
    (undefining : comparison.looksDefining = false)
    (same : tokens.map Token.lexeme = comparison.lexemes) :
    Reading.startsDefinition tokens = false := by
  obtain ⟨name, rest, rfl, _, after⟩ := List.map_eq_cons_iff.mp same
  cases selectors : comparison.left.selectors with
  | nil =>
      have negated : comparison.negated = true := by
        simpa [Comparison.looksDefining, selectors] using undefining
      rw [selectors] at after
      obtain ⟨operator, others, rfl, middle, _⟩ := List.map_eq_cons_iff.mp after
      rw [negated] at middle
      simp [Reading.startsDefinition, (lexeme_eq_iff.mp middle).1]
  | cons selector others =>
      rw [selectors] at after
      cases selector with
      | index n =>
          obtain ⟨opening, others, rfl, middle, _⟩ := List.map_eq_cons_iff.mp after
          simp [Reading.startsDefinition, (lexeme_eq_iff.mp middle).1]
      | field name =>
          obtain ⟨dot, others, rfl, middle, _⟩ := List.map_eq_cons_iff.mp after
          simp [Reading.startsDefinition, (lexeme_eq_iff.mp middle).1]

/-! ## Lists with commas -/

theorem separated_of_lexemes {α β : Type} {item : β → List Token → Prop} {view : β → α}
    {lexemesOf : α → List Lexeme} {values : List α} (nonempty : values ≠ [])
    (each : ∀ value ∈ values, ∀ tokens, tokens.map Token.lexeme = lexemesOf value →
      ∃ result, item result tokens ∧ view result = value)
    (same : tokens.map Token.lexeme = commas (values.map lexemesOf)) :
    ∃ results, Separated Comma item results tokens ∧ results.map view = values := by
  induction values generalizing tokens with
  | nil => exact absurd rfl nonempty
  | cons value values ih =>
      obtain ⟨firstEach, othersEach⟩ := List.forall_mem_cons.mp each
      cases values with
      | nil =>
          rw [List.map_cons, List.map_nil, commas, List.intercalate_singleton] at same
          obtain ⟨result, spelled, rfl⟩ := firstEach tokens same
          exact ⟨[result], .one spelled, rfl⟩
      | cons second values =>
          rw [List.map_cons, List.map_cons, commas, List.intercalate_cons_cons,
            List.append_assoc] at same
          obtain ⟨used, _, rfl, first, rest⟩ := List.map_eq_append_iff.mp same
          obtain ⟨between, others, rfl, separates, more⟩ := List.map_eq_append_iff.mp rest
          obtain ⟨comma, rfl, isComma, _⟩ := map_lexeme_singleton separates
          obtain ⟨result, spelled, rfl⟩ := firstEach used first
          obtain ⟨results, separated, others⟩ := ih (List.cons_ne_nil _ _) othersEach more
          refine ⟨result :: results, .cons spelled ⟨comma, isComma, rfl⟩ separated, ?_⟩
          rw [List.map_cons, others]

theorem label_of_lexemes {label : String}
    (same : tokens.map Token.lexeme = [⟨.identifier, label⟩]) :
    ∃ token, Identifier token tokens ∧ token.text = label := by
  obtain ⟨token, rfl, names, text⟩ := map_lexeme_singleton same
  exact ⟨token, ⟨names, rfl⟩, text⟩

theorem entry_of_lexemes {entry : Entry} (same : tokens.map Token.lexeme = entry.lexemes) :
    ∃ result : Entry, result.SpelledBy tokens ∧ id result = entry := by
  rcases entry with ⟨type, name, unique⟩
  cases unique with
  | false =>
      obtain ⟨typeToken, _, rfl, first, rest⟩ := List.map_eq_cons_iff.mp same
      obtain ⟨nameToken, rfl, names, rfl⟩ := map_lexeme_singleton rest
      obtain ⟨types, rfl⟩ := lexeme_eq_iff.mp first
      exact ⟨_, .plain types names, rfl⟩
  | true =>
      obtain ⟨keyword, _, rfl, zeroth, rest⟩ := List.map_eq_cons_iff.mp same
      obtain ⟨typeToken, _, rfl, first, rest⟩ := List.map_eq_cons_iff.mp rest
      obtain ⟨nameToken, rfl, names, rfl⟩ := map_lexeme_singleton rest
      obtain ⟨types, rfl⟩ := lexeme_eq_iff.mp first
      exact ⟨_, .unique (lexeme_eq_iff.mp zeroth).1 types names, rfl⟩

end LogicPuzzle
