import LogicPuzzle.Proofs.Readings

/-!
# Reading phrases

A phrase is read exactly when its tokens come first, its numbers can be read,
and what follows does not prolong it.
-/

namespace LogicPuzzle

variable {tokens rest : List Token}

@[simp] theorem numbersRead_nil : NumbersRead [] :=
  fun _ member => absurd member List.not_mem_nil

theorem numbersRead_append {first second : List Token} :
    NumbersRead (first ++ second) ↔ NumbersRead first ∧ NumbersRead second :=
  List.forall_mem_append

theorem numbersRead_cons {token : Token} :
    NumbersRead (token :: rest) ↔ NumbersRead [token] ∧ NumbersRead rest := by
  rw [← numbersRead_append, List.singleton_append]

/-- A token that is no number does not count. -/
theorem numbersRead_cons_of_ne {token : Token} (other : token.kind ≠ .number) :
    NumbersRead (token :: rest) ↔ NumbersRead rest := by
  rw [numbersRead_cons]
  constructor
  · exact And.right
  · intro others
    refine ⟨?_, others⟩
    intro member inside isNumber
    rw [List.mem_singleton.mp inside] at isNumber
    exact absurd isNumber other

namespace Reading

open Grammar

variable {α ω : Type}

/-! ## Repetitions -/

variable {round : Reading (Round α ω)} {item : α → List Token → Prop}

/-- A round that gives an item when the tokens of one come first. -/
def ReadsItem (round : Reading (Round α ω)) (item : α → List Token → Prop) : Prop :=
  ∀ tokens value rest, round tokens = .ok (.again value) rest ↔
    ∃ used, tokens = used ++ rest ∧ item value used

theorem progressive_of_readsItem (reads : ReadsItem round item)
    (nonempty : ∀ value used, item value used → used ≠ []) : Progressive round := by
  intro tokens value rest more
  obtain ⟨used, rfl, spelled⟩ := (reads tokens value rest).mp more
  have positive := List.length_pos_iff.mpr (nonempty value used spelled)
  rw [List.length_append]
  omega

theorem repeats_iff_sequence (reads : ReadsItem round item) {items : List α} {last : ω} :
    Repeats round tokens items last rest ↔
      ∃ used between, tokens = used ++ between ∧ Sequence item items used ∧
        round between = .ok (.done last) rest := by
  constructor
  · intro repeats
    induction repeats with
    | done ended => exact ⟨[], _, rfl, .nil, ended⟩
    | again more others ih =>
        obtain ⟨used, rfl, spelled⟩ := (reads _ _ _).mp more
        rcases ih with ⟨othersUsed, between, rfl, sequence, ended⟩
        exact ⟨used ++ othersUsed, between, (List.append_assoc _ _ _).symm,
          .cons spelled sequence, ended⟩
  · rintro ⟨used, between, rfl, sequence, ended⟩
    induction sequence with
    | nil => exact .done ended
    | cons spelled others ih =>
        exact .again ((reads _ _ _).mpr ⟨_, List.append_assoc _ _ _, spelled⟩) ih

/-- A sequence of items whose numbers can be read is one whose numbers can be read. -/
theorem sequence_and_numbersRead {items : List α} {used : List Token} :
    Sequence (fun value used => item value used ∧ NumbersRead used) items used ↔
      Sequence item items used ∧ NumbersRead used := by
  constructor
  · intro sequence
    induction sequence with
    | nil => exact ⟨.nil, numbersRead_nil⟩
    | cons first _ ih =>
        exact ⟨.cons first.1 ih.1, numbersRead_append.mpr ⟨first.2, ih.2⟩⟩
  · rintro ⟨sequence, read⟩
    induction sequence with
    | nil => exact .nil
    | cons first _ ih =>
        obtain ⟨firstRead, othersRead⟩ := numbersRead_append.mp read
        exact .cons ⟨first, firstRead⟩ (ih othersRead)

/-! ## References and comparisons -/

theorem number_ok_iff {n : Int} :
    number tokens = .ok n rest ↔
      ∃ token : Token, tokens = token :: rest ∧ token.kind = .number ∧ NumbersRead [token] ∧
        n = token.value := by
  rw [number, bind_ok_iff]
  constructor
  · rintro ⟨token, between, expected, done⟩
    obtain ⟨rfl, isNumber⟩ := expect_ok_iff.mp expected
    cases found : Numeral.read? token.text.toList with
    | none =>
        simp only [found] at done
        cases done
    | some value =>
        simp only [found] at done
        obtain ⟨rfl, rfl⟩ := pure_ok_iff.mp done
        refine ⟨token, rfl, isNumber, ?_, ?_⟩
        · intro member inside _
          rw [List.mem_singleton.mp inside, found]
          rfl
        · rw [Token.value, found, Option.getD_some]
  · rintro ⟨token, rfl, isNumber, read, rfl⟩
    refine ⟨token, rest, expect_ok_iff.mpr ⟨rfl, isNumber⟩, ?_⟩
    have found := read token List.mem_cons_self isNumber
    obtain ⟨value, found⟩ := Option.isSome_iff_exists.mp found
    simp only [found, Token.value, Option.getD_some]
    rfl

def startsSelector (tokens : List Token) : Bool :=
  startsWith .openBracket tokens || startsWith .dot tokens

theorem selectorRound_readsItem :
    ReadsItem selectorRound fun selector used => selector.SpelledBy used ∧ NumbersRead used := by
  intro tokens selector rest
  rw [selectorRound, accept_bind_ok_iff]
  simp only [if_true, Bool.false_eq_true, if_false, accept_bind_ok_iff]
  simp only [bind_ok_iff, number_ok_iff, expect_ok_iff, pure_ok_iff]
  constructor
  · rintro (⟨opening, _, rfl, opens, _, _, ⟨number, rfl, counts, read, rfl⟩, closing, _,
      ⟨rfl, closes⟩, same, rfl⟩ | ⟨_, ⟨dot, _, rfl, selects, name, _, ⟨rfl, names⟩, same, rfl⟩ |
      ⟨_, impossible, _⟩⟩)
    · cases same
      refine ⟨[opening, number, closing], rfl, .index opens counts closes, ?_⟩
      rw [numbersRead_cons_of_ne (by simp [opens]), numbersRead_cons]
      exact ⟨read, (numbersRead_cons_of_ne (by simp [closes])).mpr numbersRead_nil⟩
    · cases same
      refine ⟨[dot, name], rfl, .field selects names, ?_⟩
      rw [numbersRead_cons_of_ne (by simp [selects]), numbersRead_cons_of_ne (by simp [names])]
      exact numbersRead_nil
    · cases impossible
  · rintro ⟨used, rfl, spelled, read⟩
    cases spelled with
    | @index opening number closing opens counts closes =>
        left
        rw [numbersRead_cons_of_ne (by simp [opens]), numbersRead_cons] at read
        exact ⟨opening, _, rfl, opens, _, _, ⟨number, rfl, counts, read.1, rfl⟩, closing, _,
          ⟨rfl, closes⟩, rfl, rfl⟩
    | @field dot name selects names =>
        right
        refine ⟨startsWith_cons (by simp [selects]), .inl ?_⟩
        exact ⟨dot, _, rfl, selects, name, _, ⟨rfl, names⟩, rfl, rfl⟩

theorem selectorRound_done_iff {last : Unit} :
    selectorRound tokens = .ok (.done last) rest ↔
      tokens = rest ∧ startsSelector rest = false := by
  rw [selectorRound, accept_bind_ok_iff]
  simp only [if_true, Bool.false_eq_true, if_false, accept_bind_ok_iff]
  simp only [bind_ok_iff, number_ok_iff, expect_ok_iff, pure_ok_iff]
  constructor
  · rintro (⟨_, _, _, _, _, _, _, _, _, _, impossible, _⟩ |
      ⟨noBracket, ⟨_, _, _, _, _, _, _, impossible, _⟩ | ⟨noDot, _, rfl⟩⟩)
    · cases impossible
    · cases impossible
    · exact ⟨rfl, by rw [startsSelector, noBracket, noDot, Bool.false_or]⟩
  · rintro ⟨rfl, none⟩
    obtain ⟨noBracket, noDot⟩ := Bool.or_eq_false_iff.mp none
    exact .inr ⟨noBracket, .inr ⟨noDot, trivial, rfl⟩⟩

theorem selector_ne_nil {selector : Selector} {used : List Token}
    (spelled : selector.SpelledBy used) : used ≠ [] := by
  cases spelled <;> exact List.cons_ne_nil _ _

theorem selectorRound_progressive : Progressive selectorRound :=
  progressive_of_readsItem selectorRound_readsItem fun _ _ spelled => selector_ne_nil spelled.1

/-- A reference is read up to the last of its selectors. -/
theorem reference_ok_iff {result : Reference} :
    reference tokens = .ok result rest ↔
      ∃ used, tokens = used ++ rest ∧ result.SpelledBy used ∧ NumbersRead used ∧
        startsSelector rest = false := by
  simp only [reference, bind_ok_iff, expect_ok_iff, pure_ok_iff, Prod.exists,
    collect_ok_iff selectorRound_progressive, repeats_iff_sequence selectorRound_readsItem,
    sequence_and_numbersRead, selectorRound_done_iff]
  constructor
  · rintro ⟨name, _, ⟨rfl, names⟩, selectors, _, _, ⟨used, _, rfl, ⟨selects, read⟩, rfl, ends⟩,
      rfl, rfl⟩
    refine ⟨name :: used, rfl, .intro names selects, ?_, ends⟩
    rwa [numbersRead_cons_of_ne (by simp [names])]
  · rintro ⟨_, rfl, @⟨name, selectors, used, names, selects⟩, read, ends⟩
    rw [numbersRead_cons_of_ne (by simp [names])] at read
    exact ⟨name, _, ⟨rfl, names⟩, selectors, (), _,
      ⟨used, _, rfl, ⟨selects, read⟩, rfl, ends⟩, rfl, rfl⟩

theorem comparisonOperator_ok_iff {negated : Bool} :
    comparisonOperator tokens = .ok negated rest ↔
      ∃ operator : Token, tokens = operator :: rest ∧
        operator.kind = if negated then .differs else .equals := by
  rw [comparisonOperator, accept_bind_ok_iff]
  simp only [if_true, Bool.false_eq_true, if_false, accept_bind_ok_iff, pure_ok_iff, fail_ne_ok,
    and_false, or_false]
  constructor
  · rintro (⟨operator, _, rfl, same, rfl, rfl⟩ | ⟨_, operator, _, rfl, same, rfl, rfl⟩)
    · exact ⟨operator, rfl, same⟩
    · exact ⟨operator, rfl, same⟩
  · rintro ⟨operator, rfl, same⟩
    cases negated with
    | false => exact .inl ⟨operator, _, rfl, same, rfl, rfl⟩
    | true =>
        simp only [if_true] at same
        exact .inr ⟨startsWith_cons (by simp [same]), operator, _, rfl, same, rfl, rfl⟩

theorem startsSelector_cons {token : Token} (noBracket : token.kind ≠ .openBracket)
    (noDot : token.kind ≠ .dot) : startsSelector (token :: rest) = false := by
  rw [startsSelector, startsWith_cons noBracket, startsWith_cons noDot, Bool.false_or]

/-- A comparison is read up to the last selector of its right side. -/
theorem comparison_ok_iff {result : Comparison} :
    comparison tokens = .ok result rest ↔
      ∃ used, tokens = used ++ rest ∧ result.SpelledBy used ∧ NumbersRead used ∧
        startsSelector rest = false := by
  simp only [comparison, bind_ok_iff, pure_ok_iff, reference_ok_iff, comparisonOperator_ok_iff]
  constructor
  · rintro ⟨left, _, ⟨leftUsed, rfl, leftSpelled, leftRead, _⟩, negated, _,
      ⟨operator, rfl, compares⟩, right, _, ⟨rightUsed, rfl, rightSpelled, rightRead, ends⟩,
      rfl, rfl⟩
    refine ⟨leftUsed ++ operator :: rightUsed, ?_, .intro leftSpelled compares rightSpelled, ?_,
      ends⟩
    · rw [List.append_assoc, List.cons_append]
    · rw [numbersRead_append, numbersRead_cons_of_ne (by rw [compares]; cases negated <;> simp)]
      exact ⟨leftRead, rightRead⟩
  · rintro ⟨_, rfl, @⟨left, right, negated, operator, leftUsed, rightUsed, leftSpelled, compares,
      rightSpelled⟩, read, ends⟩
    rw [numbersRead_append,
      numbersRead_cons_of_ne (by rw [compares]; cases negated <;> simp)] at read
    have leftEnds : startsSelector (operator :: (rightUsed ++ rest)) = false := by
      apply startsSelector_cons <;> rw [compares] <;> cases negated <;> simp
    refine ⟨left, operator :: (rightUsed ++ rest), ⟨leftUsed, ?_, leftSpelled, read.1, leftEnds⟩,
      negated, _, ⟨operator, rfl, compares⟩, right, _,
      ⟨rightUsed, rfl, rightSpelled, read.2, ends⟩, rfl, rfl⟩
    rw [List.append_assoc, List.cons_append]

end Reading

end LogicPuzzle
