import LogicPuzzle.Proofs.StatementReading

/-!
# Reading rules

The guard of a rule ends with its line, or with an arrow before a block.  The
consequents of a block stand on lines of their own; the last one may be followed
by the end of the block instead of the end of its line.
-/

namespace LogicPuzzle

namespace Reading

open Grammar

variable {tokens rest : List Token}

/-! ## What a comparison starts with -/

theorem startsWith_unique {kind other : Kind} (different : kind ≠ other)
    (starts : startsWith kind tokens = true) : startsWith other tokens = false := by
  obtain ⟨token, between, rfl, same⟩ := startsWith_iff.mp starts
  exact startsWith_cons (same ▸ different)

theorem reference_cons {result : Reference} {used : List Token}
    (spelled : result.SpelledBy used) :
    ∃ name others, used = name :: others ∧ name.kind = .identifier := by
  cases spelled with
  | intro names _ => exact ⟨_, _, rfl, names⟩

theorem startsWith_comparison {result : Comparison} {used : List Token}
    (spelled : result.SpelledBy used) (rest : List Token) :
    startsWith .identifier (used ++ rest) = true := by
  cases spelled with
  | intro left _ _ =>
      obtain ⟨name, others, rfl, names⟩ := reference_cons left
      exact startsWith_iff.mpr ⟨name, _, rfl, names⟩

theorem comparison_ne_nil {result : Comparison} {used : List Token}
    (spelled : result.SpelledBy used) : used ≠ [] := by
  cases spelled with
  | intro left _ _ =>
      obtain ⟨name, others, rfl, _⟩ := reference_cons left
      exact List.cons_ne_nil _ _

theorem startsWith_comparisons {separator : List Token → Prop} {results : List Comparison}
    {used : List Token} (spelled : Separated separator Comparison.SpelledBy results used)
    (rest : List Token) : startsWith .identifier (used ++ rest) = true := by
  cases spelled with
  | one only => exact startsWith_comparison only rest
  | cons first _ _ =>
      rw [List.append_assoc]
      exact startsWith_comparison first _

/-- The two tokens that make a definition belong to the comparison. -/
theorem startsDefinition_comparison {result : Comparison} {used : List Token}
    (spelled : result.SpelledBy used) :
    startsDefinition (used ++ rest) = startsDefinition used := by
  cases spelled with
  | intro left _ _ =>
      obtain ⟨name, others, rfl, _⟩ := reference_cons left
      cases others <;> rfl

theorem startsSelector_of_startsWith {kind : Kind} (noBracket : kind ≠ .openBracket)
    (noDot : kind ≠ .dot) (starts : startsWith kind tokens = true) :
    startsSelector tokens = false := by
  rw [startsSelector, startsWith_unique noBracket starts, startsWith_unique noDot starts,
    Bool.false_or]

theorem startsSelector_lineEnd {lines : List Token} (ends : LineEnd lines)
    (rest : List Token) : startsSelector (lines ++ rest) = false := by
  rw [startsSelector, startsWith_lineEnd (by decide) ends, startsWith_lineEnd (by decide) ends,
    Bool.false_or]

theorem afterNewlines_of_startsWith {kind : Kind} (other : kind ≠ .newline)
    (starts : startsWith kind tokens = true) : afterNewlines tokens = tokens :=
  afterNewlines_eq_self (startsWith_unique other starts)

/-! ## Consequents -/

inductive EndsConsequent : List Token → List Token → Prop where
  | block {tokens : List Token} (ends : startsWith .dedent tokens = true) :
      EndsConsequent tokens tokens
  | line {lines after : List Token} (ends : LineEnd lines) :
      EndsConsequent (lines ++ after) (afterNewlines after)

/-- A consequent that a round read is spelled by tokens behind empty lines. -/
theorem spelled_of_consequentRound {result : Comparison}
    (again : consequentRound tokens = .ok (.again result) rest) :
    ∃ gap used after, Gap gap ∧ tokens = gap ++ (used ++ after) ∧ result.SpelledBy used ∧
      NumbersRead used ∧ EndsConsequent after rest := by
  rw [consequentRound, skipNewlines_bind_ok_iff, sees_bind_ok_iff] at again
  split at again
  · obtain ⟨impossible, _⟩ := pure_ok_iff.mp again
    cases impossible
  · obtain ⟨comparison, between, read, done⟩ := bind_ok_iff.mp again
    obtain ⟨used, same, spelled, numbers, _⟩ := comparison_ok_iff.mp read
    obtain ⟨gap, blank, split⟩ := exists_gap tokens
    rw [same] at split
    rw [sees_bind_ok_iff] at done
    split at done
    · next ends =>
        obtain ⟨equal, rfl⟩ := pure_ok_iff.mp done
        cases equal
        exact ⟨gap, used, between, blank, split, spelled, numbers, .block ends⟩
    · obtain ⟨_, _, ended, returned⟩ := bind_ok_iff.mp done
      obtain ⟨lines, after, ends, rfl, rfl⟩ := endLine_ok_iff.mp ended
      obtain ⟨equal, rfl⟩ := pure_ok_iff.mp returned
      cases equal
      exact ⟨gap, used, _, blank, split, spelled, numbers, .line ends⟩

/-- A round reads a consequent whose tokens come first behind empty lines. -/
theorem consequentRound_of_spelled {result : Comparison} {gap used after : List Token}
    (blank : Gap gap) (spelled : result.SpelledBy used) (numbers : NumbersRead used)
    (ends : EndsConsequent after rest) :
    consequentRound (gap ++ (used ++ after)) = .ok (.again result) rest := by
  have starts := startsWith_comparison spelled after
  rw [consequentRound, skipNewlines_bind_ok_iff, sees_bind_ok_iff, afterNewlines_gap blank,
    afterNewlines_of_startsWith (by decide) starts, startsWith_unique (by decide) starts]
  simp only [Bool.false_eq_true, if_false, bind_ok_iff]
  cases ends with
  | block dedents =>
      have noSelector := startsSelector_of_startsWith (by decide) (by decide) dedents
      refine ⟨result, rest, comparison_ok_iff.mpr ⟨used, rfl, spelled, numbers, noSelector⟩, ?_⟩
      refine ⟨_, _, rfl, ?_⟩
      rw [dedents, if_pos rfl]
      rfl
  | @line lines after lineEnds =>
      have noSelector := startsSelector_lineEnd lineEnds after
      refine ⟨result, _, comparison_ok_iff.mpr ⟨used, rfl, spelled, numbers, noSelector⟩, ?_⟩
      refine ⟨_, _, rfl, ?_⟩
      rw [startsWith_lineEnd (by decide) lineEnds, if_neg (by decide), bind_ok_iff]
      exact ⟨(), _, endLine_ok_iff.mpr ⟨lines, after, lineEnds, rfl, rfl⟩, rfl⟩

theorem consequentRound_done_iff {last : Unit} :
    consequentRound tokens = .ok (.done last) rest ↔
      rest = afterNewlines tokens ∧ startsWith .dedent rest = true := by
  rw [consequentRound, skipNewlines_bind_ok_iff, sees_bind_ok_iff]
  constructor
  · intro done
    split at done
    · next ends =>
        obtain ⟨_, rfl⟩ := pure_ok_iff.mp done
        exact ⟨rfl, ends⟩
    · obtain ⟨_, _, _, done⟩ := bind_ok_iff.mp done
      rw [sees_bind_ok_iff] at done
      split at done
      · obtain ⟨impossible, _⟩ := pure_ok_iff.mp done
        cases impossible
      · obtain ⟨_, _, _, done⟩ := bind_ok_iff.mp done
        obtain ⟨impossible, _⟩ := pure_ok_iff.mp done
        cases impossible
  · rintro ⟨rfl, ends⟩
    rw [ends, if_pos rfl]
    rfl

theorem consequentRound_progressive : Progressive consequentRound := by
  intro tokens result rest again
  obtain ⟨gap, used, after, _, rfl, spelled, _, ends⟩ := spelled_of_consequentRound again
  have positive := List.length_pos_iff.mpr (comparison_ne_nil spelled)
  have shorter : rest.length ≤ after.length := by
    cases ends with
    | block _ => exact Nat.le_refl _
    | @line lines after _ =>
        rw [List.length_append]
        exact Nat.le_trans (List.length_dropWhile_le _ _) (Nat.le_add_left _ _)
  simp only [List.length_append]
  omega

def ConsequentsBefore (results : List Comparison) (tokens rest : List Token) : Prop :=
  ∃ before used after, Gap before ∧ tokens = before ++ (used ++ (after ++ rest)) ∧
    Separated LineEnd Comparison.SpelledBy results used ∧ NumbersRead used ∧ Gap after

theorem gap_append {first second : List Token} : Gap (first ++ second) ↔ Gap first ∧ Gap second :=
  List.forall_mem_append

theorem lineEnd_append {lines gap : List Token} (ends : LineEnd lines) (blank : Gap gap) :
    LineEnd (lines ++ gap) :=
  ⟨List.append_ne_nil_of_left_ne_nil ends.1 _, gap_append.mpr ⟨ends.2, blank⟩⟩

theorem startsWith_dedent_separated {results : List Comparison} {gap used : List Token}
    (blank : Gap gap) (spelled : Separated LineEnd Comparison.SpelledBy results used) :
    startsWith .dedent (gap ++ (used ++ rest)) = false := by
  cases gap with
  | nil => exact startsWith_unique (by decide) (startsWith_comparisons spelled rest)
  | cons newline gap =>
      apply startsWith_cons
      rw [blank newline List.mem_cons_self]
      decide

theorem consequentsBefore_of_repeats {results : List Comparison} {last : Unit}
    (repeats : Repeats consequentRound tokens results last rest) (nonempty : results ≠ []) :
    ConsequentsBefore results tokens rest := by
  induction repeats with
  | done _ => exact absurd rfl nonempty
  | @again tokens between rest result results last more others ih =>
      obtain ⟨before, used, after, blank, rfl, spelled, read, ends⟩ :=
        spelled_of_consequentRound more
      cases others with
      | done ended =>
          obtain ⟨rfl, dedents⟩ := consequentRound_done_iff.mp ended
          cases ends with
          | block ends =>
              refine ⟨before, used, [], blank, ?_, .one spelled, read, nofun⟩
              rw [afterNewlines_of_startsWith (by decide) ends, List.nil_append]
          | @line lines after ends =>
              obtain ⟨gap, gapBlank, split⟩ := exists_gap after
              refine ⟨before, used, lines ++ gap, blank, ?_, .one spelled, read,
                (lineEnd_append ends gapBlank).2⟩
              rw [afterNewlines_eq_self startsWith_afterNewlines, List.append_assoc, ← split]
      | again next following =>
          obtain ⟨othersBefore, othersUsed, othersAfter, othersBlank, same, othersSpelled,
            othersRead, othersEnd⟩ := ih (List.cons_ne_nil _ _)
          cases ends with
          | block ends =>
              -- The block would end where another consequent starts.
              rw [same, startsWith_dedent_separated othersBlank othersSpelled] at ends
              cases ends
          | @line lines after ends =>
              obtain ⟨gap, gapBlank, split⟩ := exists_gap after
              have separates := lineEnd_append ends
                (gap_append.mpr ⟨gapBlank, othersBlank⟩)
              refine ⟨before, used ++ ((lines ++ (gap ++ othersBefore)) ++ othersUsed), othersAfter,
                blank, ?_, .cons spelled separates othersSpelled, ?_, othersEnd⟩
              · rw [split, same]
                simp only [List.append_assoc]
              · rw [numbersRead_append, numbersRead_append]
                exact ⟨read, numbersRead_of_gap separates.2, othersRead⟩

theorem repeats_of_separated {results : List Comparison} {used after : List Token} {last : Unit}
    (separated : Separated LineEnd Comparison.SpelledBy results used) (read : NumbersRead used)
    (blank : Gap after) (dedents : startsWith .dedent rest = true)
    (same : afterNewlines tokens = used ++ (after ++ rest)) :
    Repeats consequentRound tokens results last rest := by
  have restNewlines := afterNewlines_of_startsWith (by decide) dedents
  induction separated generalizing tokens with
  | @one result used only =>
      obtain ⟨gap, gapBlank, split⟩ := exists_gap tokens
      rw [same] at split
      have ends : EndsConsequent (after ++ rest) rest := by
        by_cases empty : after = []
        · rw [empty, List.nil_append]
          exact .block dedents
        · have line : EndsConsequent (after ++ rest) (afterNewlines rest) := .line ⟨empty, blank⟩
          rwa [restNewlines] at line
      rw [split]
      refine .again (consequentRound_of_spelled gapBlank only read ends) (.done ?_)
      exact consequentRound_done_iff.mpr ⟨restNewlines.symm, dedents⟩
  | @cons result results used between others first separates following ih =>
      obtain ⟨gap, gapBlank, split⟩ := exists_gap tokens
      rw [numbersRead_append, numbersRead_append] at read
      simp only [same, List.append_assoc] at split
      rw [split]
      refine .again (consequentRound_of_spelled gapBlank first read.1 (.line separates))
        (ih read.2.2 ?_)
      rw [afterNewlines_eq_self startsWith_afterNewlines]
      exact afterNewlines_of_startsWith (by decide) (startsWith_comparisons following _)

/-! ## Blocks and heads -/

theorem numbersRead_of_block {lines before used after : List Token} {indent dedent : Token}
    (ends : LineEnd lines) (indents : indent.kind = .indent) (blankBefore : Gap before)
    (blankAfter : Gap after) (dedents : dedent.kind = .dedent) :
    NumbersRead (lines ++ indent :: (before ++ (used ++ (after ++ [dedent])))) ↔
      NumbersRead used := by
  rw [numbersRead_append, numbersRead_cons_of_ne (by simp [indents]), numbersRead_append,
    numbersRead_append, numbersRead_append, numbersRead_cons_of_ne (by simp [dedents])]
  constructor
  · rintro ⟨_, _, read, _⟩
    exact read
  · intro read
    exact ⟨numbersRead_of_gap ends.2, numbersRead_of_gap blankBefore, read,
      numbersRead_of_gap blankAfter, numbersRead_nil⟩

/-- A block is read when its tokens come first and the numbers in it can be read. -/
theorem ruleBlock_ok_iff {guard : Comparison} {rule : Rule} :
    ruleBlock guard tokens = .ok rule rest ↔
      ∃ consequents used, tokens = used ++ rest ∧ Block consequents used ∧ NumbersRead used ∧
        rule = ⟨guard, consequents⟩ := by
  simp only [ruleBlock, bind_ok_iff, endLine_ok_iff, expect_ok_iff, Prod.exists,
    collect_ok_iff consequentRound_progressive]
  constructor
  · rintro ⟨_, _, ⟨lines, others, ends, rfl, rfl⟩, indent, _, ⟨split, indents⟩, consequents, last,
      _, repeats, done⟩
    cases consequents with
    | nil => exact absurd done fail_ne_ok
    | cons first more =>
        obtain ⟨dedent, _, expected, returned⟩ := bind_ok_iff.mp done
        obtain ⟨rfl, dedents⟩ := expect_ok_iff.mp expected
        obtain ⟨rfl, rfl⟩ := pure_ok_iff.mp returned
        obtain ⟨before, used, after, blankBefore, rfl, spelled, read, blankAfter⟩ :=
          consequentsBefore_of_repeats repeats (List.cons_ne_nil _ _)
        obtain ⟨gap, blank, same⟩ := exists_gap others
        have lineEnds := lineEnd_append ends blank
        refine ⟨first :: more, _, ?_,
          Block.intro lineEnds indents blankBefore spelled blankAfter dedents,
          (numbersRead_of_block lineEnds indents blankBefore blankAfter dedents).mpr read, rfl⟩
        rw [same, split]
        simp only [List.append_assoc, List.cons_append, List.nil_append]
  · rintro ⟨consequents, _, rfl, @⟨indent, dedent, lines, before, used, after, ends, indents,
      blankBefore, spelled, blankAfter, dedents⟩, numbers, rfl⟩
    have read := (numbersRead_of_block ends indents blankBefore blankAfter dedents).mp numbers
    have starts : startsWith .dedent (dedent :: rest) = true :=
      startsWith_iff.mpr ⟨dedent, rest, rfl, dedents⟩
    have repeats : Repeats consequentRound (before ++ (used ++ (after ++ dedent :: rest)))
        consequents () (dedent :: rest) := by
      apply repeats_of_separated spelled read blankAfter starts
      rw [afterNewlines_gap blankBefore]
      exact afterNewlines_of_startsWith (by decide) (startsWith_comparisons spelled _)
    refine ⟨(), _, ⟨lines, _, ends, List.append_assoc _ _ _, rfl⟩, indent,
      before ++ (used ++ (after ++ dedent :: rest)), ⟨?_, indents⟩, consequents, (), _, repeats, ?_⟩
    · rw [List.cons_append,
        afterNewlines_of_startsWith (by decide) (startsWith_iff.mpr ⟨indent, _, rfl, indents⟩)]
      simp only [List.append_assoc, List.cons_append, List.nil_append]
    · cases spelled <;> exact bind_ok_iff.mpr ⟨dedent, rest, expect_ok_iff.mpr ⟨rfl, dedents⟩, rfl⟩

/-- The head of a rule without consequents ends with its line. -/
theorem ruleHead_plain_iff {guard : Comparison} :
    ruleHead tokens = .ok (guard, false) rest ↔
      ∃ used lines after, tokens = used ++ (lines ++ after) ∧ guard.SpelledBy used ∧
        NumbersRead used ∧ LineEnd lines ∧ rest = afterNewlines after := by
  rw [ruleHead, bind_ok_iff]
  simp only [accept_bind_ok_iff, if_true, Bool.false_eq_true, if_false]
  simp only [comparison_ok_iff, bind_ok_iff, endLine_ok_iff, pure_ok_iff, Prod.mk.injEq]
  constructor
  · rintro ⟨guard, _, ⟨used, rfl, spelled, read, _⟩, ⟨_, _, _, _, ⟨_, impossible⟩, _⟩ |
      ⟨_, _, _, ⟨lines, after, ends, rfl, rfl⟩, ⟨rfl, _⟩, rfl⟩⟩
    · cases impossible
    · exact ⟨used, lines, after, rfl, spelled, read, ends, rfl⟩
  · rintro ⟨used, lines, after, rfl, spelled, read, ends, rfl⟩
    exact ⟨guard, _, ⟨used, rfl, spelled, read, startsSelector_lineEnd ends after⟩,
      .inr ⟨startsWith_lineEnd (by decide) ends, (), _, ⟨lines, after, ends, rfl, rfl⟩,
        ⟨rfl, trivial⟩, rfl⟩⟩

/-- The head of a rule with consequents ends with an arrow. -/
theorem ruleHead_block_iff {guard : Comparison} :
    ruleHead tokens = .ok (guard, true) rest ↔
      ∃ used arrow, tokens = used ++ arrow :: rest ∧ guard.SpelledBy used ∧ NumbersRead used ∧
        arrow.kind = .yields := by
  rw [ruleHead, bind_ok_iff]
  simp only [accept_bind_ok_iff, if_true, Bool.false_eq_true, if_false]
  simp only [comparison_ok_iff, bind_ok_iff, endLine_ok_iff, pure_ok_iff, Prod.mk.injEq]
  constructor
  · rintro ⟨guard, _, ⟨used, rfl, spelled, read, _⟩, ⟨arrow, _, rfl, yields, ⟨rfl, _⟩, rfl⟩ |
      ⟨_, _, _, _, ⟨_, impossible⟩, _⟩⟩
    · exact ⟨used, arrow, rfl, spelled, read, yields⟩
    · cases impossible
  · rintro ⟨used, arrow, rfl, spelled, read, yields⟩
    exact ⟨guard, _, ⟨used, rfl, spelled, read,
      startsSelector_cons (by simp [yields]) (by simp [yields])⟩,
      .inl ⟨arrow, rest, rfl, yields, ⟨rfl, trivial⟩, rfl⟩⟩

end Reading

end LogicPuzzle
