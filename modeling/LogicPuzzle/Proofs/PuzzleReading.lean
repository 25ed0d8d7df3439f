import LogicPuzzle.Proofs.RuleReading
import LogicPuzzle.Reader

/-!
# Reading whole puzzles

A reader accepts a list of tokens, without a notice and without a token left
over, exactly when the tokens spell a program whose numbers can be read and
whose domains do not repeat labels.  The puzzle is then the one that the
program denotes, whichever production consumes the empty lines.
-/

namespace LogicPuzzle

namespace Reading

open Grammar

variable {tokens rest : List Token} {statement : Statement}

/-- What is left of the tokens after a statement: its empty lines are consumed with it, unless
it ends with a block. -/
def leftOver (statement : Statement) (after : List Token) : List Token :=
  match statement with
  | .rule ⟨_, _ :: _⟩ => after
  | _ => afterNewlines after

theorem afterNewlines_leftOver (statement : Statement) (after : List Token) :
    afterNewlines (leftOver statement after) = afterNewlines after := by
  unfold leftOver
  split
  · rfl
  · exact afterNewlines_eq_self startsWith_afterNewlines

/-- What is left over follows some empty lines. -/
theorem exists_gap_leftOver (statement : Statement) (after : List Token) :
    ∃ gap, Gap gap ∧ after = gap ++ leftOver statement after := by
  unfold leftOver
  split
  · exact ⟨[], nofun, rfl⟩
  · exact exists_gap after

/-! ## One statement -/

theorem block_cons {consequents : List Comparison} {used : List Token}
    (follows : Block consequents used) : ∃ first others, consequents = first :: others := by
  cases follows with
  | intro _ _ _ spelled _ _ => cases spelled <;> exact ⟨_, _, rfl⟩

/-- A rule that was read is spelled by the tokens that are consumed. -/
theorem spelled_of_ruleRound (undefining : startsDefinition tokens = false)
    (again : ruleRound tokens = .ok (.again statement) rest) :
    ∃ rule used after, statement = .rule rule ∧ tokens = used ++ after ∧
      statement.SpelledBy used ∧ NumbersRead used ∧ rest = leftOver statement after := by
  rw [ruleRound] at again
  split at again
  · cases again
  · cases again
  · next guard between head =>
      cases again
      obtain ⟨used, lines, after, rfl, spelled, read, ends, rfl⟩ := ruleHead_plain_iff.mp head
      rw [startsDefinition_comparison spelled] at undefining
      exact ⟨_, used ++ lines, after, rfl, (List.append_assoc _ _ _).symm,
        .plain spelled undefining ends,
        numbersRead_append.mpr ⟨read, numbersRead_of_gap ends.2⟩, rfl⟩
  · next guard between head =>
      obtain ⟨used, arrow, rfl, spelled, read, yields⟩ := ruleHead_block_iff.mp head
      rw [startsDefinition_comparison spelled] at undefining
      split at again
      · cases again
      · next rule left block =>
          cases again
          obtain ⟨consequents, others, rfl, follows, othersRead, rfl⟩ := ruleBlock_ok_iff.mp block
          obtain ⟨first, more, rfl⟩ := block_cons follows
          refine ⟨_, used ++ arrow :: others, rest, rfl, ?_,
            .block spelled undefining yields follows, ?_, rfl⟩
          · rw [List.append_assoc, List.cons_append]
          · rw [numbersRead_append, numbersRead_cons_of_ne (by simp [yields])]
            exact ⟨read, othersRead⟩

/-- A rule is read when its tokens come first. -/
theorem ruleRound_of_spelled {rule : Rule} {used : List Token}
    (spelled : (Statement.rule rule).SpelledBy used) (read : NumbersRead used)
    (after : List Token) :
    ruleRound (used ++ after) = .ok (.again (.rule rule)) (leftOver (.rule rule) after) := by
  rw [ruleRound]
  cases spelled with
  | @plain guard used lines spelled _ ends =>
      have head : ruleHead (used ++ lines ++ after) = .ok (guard, false) (afterNewlines after) :=
        ruleHead_plain_iff.mpr ⟨used, lines, after, List.append_assoc _ _ _, spelled,
          (numbersRead_append.mp read).1, ends, rfl⟩
      rw [head]
      rfl
  | @block guard consequents arrow used others spelled _ yields follows =>
      rw [numbersRead_append, numbersRead_cons_of_ne (by simp [yields])] at read
      have head : ruleHead (used ++ arrow :: others ++ after) =
          .ok (guard, true) (others ++ after) := by
        refine ruleHead_block_iff.mpr ⟨used, arrow, ?_, spelled, read.1, yields⟩
        rw [List.append_assoc, List.cons_append]
      have block : ruleBlock guard (others ++ after) = .ok ⟨guard, consequents⟩ after :=
        ruleBlock_ok_iff.mpr ⟨consequents, others, rfl, follows, read.2, rfl⟩
      obtain ⟨first, more, rfl⟩ := block_cons follows
      rw [head]
      simp only [block]
      rfl

/-- A statement starts with a name or with the keyword of a declaration. -/
theorem statement_cons {used : List Token} (spelled : statement.SpelledBy used) :
    ∃ token others, used = token :: others ∧ (token.kind = .identifier ∨ token.kind = .var) := by
  cases spelled with
  | domain names _ _ _ _ _ => exact ⟨_, _, rfl, .inl names⟩
  | schema names _ _ _ _ _ => exact ⟨_, _, rfl, .inl names⟩
  | array declares _ _ _ _ _ => exact ⟨_, _, rfl, .inr declares⟩
  | @plain guard used lines spelled _ _ =>
      obtain ⟨token, others, same, names⟩ :=
        startsWith_iff.mp (startsWith_comparison spelled lines)
      exact ⟨token, others, same, .inl names⟩
  | @block guard _ arrow used others spelled _ _ _ =>
      obtain ⟨token, others, same, names⟩ :=
        startsWith_iff.mp (startsWith_comparison spelled (arrow :: others))
      exact ⟨token, others, same, .inl names⟩

theorem startsWith_newline_statement {used : List Token} (spelled : statement.SpelledBy used)
    (after : List Token) : startsWith .newline (used ++ after) = false := by
  obtain ⟨token, others, rfl, names | declares⟩ := statement_cons spelled
  · exact startsWith_cons (by simp [names])
  · exact startsWith_cons (by simp [declares])

theorem startsDefinition_definition {result : Definition} {used : List Token}
    (spelled : (Statement.definition result).SpelledBy used) (after : List Token) :
    startsDefinition (used ++ after) = true := by
  cases spelled with
  | domain names defines _ _ _ _ => simp [startsDefinition, names, defines]
  | schema names defines _ _ _ _ => simp [startsDefinition, names, defines]

theorem startsWith_var_declaration {result : Declaration} {used : List Token}
    (spelled : (Statement.declaration result).SpelledBy used) (after : List Token) :
    startsWith .var (used ++ after) = true := by
  cases spelled with
  | array declares _ _ _ _ _ => exact startsWith_iff.mpr ⟨_, _, rfl, declares⟩

theorem startsDefinition_of_var (declares : startsWith .var tokens = true) :
    startsDefinition tokens = false := by
  obtain ⟨keyword, others, rfl, isVar⟩ := startsWith_iff.mp declares
  cases others with
  | nil => rfl
  | cons second others => simp [startsDefinition, isVar]

theorem startsWith_identifier_rule {rule : Rule} {used : List Token}
    (spelled : (Statement.rule rule).SpelledBy used) (after : List Token) :
    startsWith .identifier (used ++ after) = true := by
  cases spelled with
  | plain spelled _ _ =>
      rw [List.append_assoc]
      exact startsWith_comparison spelled _
  | block spelled _ _ _ =>
      rw [List.append_assoc]
      exact startsWith_comparison spelled _

theorem startsDefinition_rule {rule : Rule} {used : List Token}
    (spelled : (Statement.rule rule).SpelledBy used) (after : List Token) :
    startsDefinition (used ++ after) = false := by
  cases spelled with
  | plain spelled undefining _ =>
      rw [List.append_assoc, startsDefinition_comparison spelled, undefining]
  | block spelled undefining _ _ =>
      rw [List.append_assoc, startsDefinition_comparison spelled, undefining]

/-! ## One round -/

/-- Whether a statement comes next that is neither a definition nor a declaration. -/
def startsRule (tokens : List Token) : Bool :=
  !tokens.isEmpty && !startsDefinition tokens && !startsWith .var tokens

theorem start_cases (start : List Token) :
    start = [] ∨ startsDefinition start = true ∨ startsWith .var start = true ∨
      startsRule start = true := by
  cases start with
  | nil => exact .inl rfl
  | cons token others =>
      rw [startsRule]
      cases startsDefinition (token :: others) <;> cases startsWith .var (token :: others) <;> simp

theorem statementRound_of_end (ended : afterNewlines tokens = []) :
    statementRound tokens = .ok (.done none) [] := by
  change (if (afterNewlines tokens).isEmpty then _ else _ : Reading _) (afterNewlines tokens) = _
  rw [ended]
  rfl

theorem statementRound_of_definition
    (starts : startsDefinition (afterNewlines tokens) = true) :
    statementRound tokens =
      (definition >>= fun result => pure (Round.again (Statement.definition result)))
        (afterNewlines tokens) := by
  have nonempty : (afterNewlines tokens).isEmpty = false := by
    cases front : afterNewlines tokens with
    | nil =>
        rw [front] at starts
        cases starts
    | cons token others => rfl
  change (if (afterNewlines tokens).isEmpty then _ else _ : Reading _) (afterNewlines tokens) = _
  rw [nonempty, if_neg Bool.false_ne_true, if_pos starts]

theorem statementRound_of_declaration (starts : startsWith .var (afterNewlines tokens) = true) :
    statementRound tokens =
      (declaration >>= fun result => pure (Round.again (Statement.declaration result)))
        (afterNewlines tokens) := by
  have undefining := startsDefinition_of_var starts
  have nonempty : (afterNewlines tokens).isEmpty = false := by
    obtain ⟨_, _, front, _⟩ := startsWith_iff.mp starts
    rw [front]
    rfl
  change (if (afterNewlines tokens).isEmpty then _ else _ : Reading _) (afterNewlines tokens) = _
  rw [nonempty, if_neg Bool.false_ne_true, undefining, if_neg Bool.false_ne_true, if_pos starts]

theorem startsRule_iff :
    startsRule tokens = true ↔
      tokens ≠ [] ∧ startsDefinition tokens = false ∧ startsWith .var tokens = false := by
  simp only [startsRule, Bool.and_eq_true, Bool.not_eq_true', List.isEmpty_eq_false_iff, and_assoc]

theorem statementRound_of_rule (starts : startsRule (afterNewlines tokens) = true) :
    statementRound tokens = ruleRound (afterNewlines tokens) := by
  obtain ⟨nonempty, undefining, undeclaring⟩ := startsRule_iff.mp starts
  change (if (afterNewlines tokens).isEmpty then _ else _ : Reading _) (afterNewlines tokens) = _
  rw [List.isEmpty_eq_false_iff.mpr nonempty, if_neg Bool.false_ne_true, undefining,
    if_neg Bool.false_ne_true, undeclaring, if_neg Bool.false_ne_true]

/-- A statement that a round read is spelled by tokens behind empty lines. -/
theorem spelled_of_statementRound
    (again : statementRound tokens = .ok (.again statement) rest) :
    ∃ gap used after, Gap gap ∧ tokens = gap ++ (used ++ after) ∧ statement.SpelledBy used ∧
      NumbersRead used ∧ statement.LabelsDistinct ∧ rest = leftOver statement after := by
  obtain ⟨gap, blank, split⟩ := exists_gap tokens
  obtain ended | starts | starts | starts := start_cases (afterNewlines tokens)
  · rw [statementRound_of_end ended] at again
    cases again
  · rw [statementRound_of_definition starts] at again
    obtain ⟨result, between, read, done⟩ := bind_ok_iff.mp again
    obtain ⟨same, rfl⟩ := pure_ok_iff.mp done
    cases same
    obtain ⟨used, after, front, spelled, distinct, rfl⟩ := definition_ok_iff.mp read
    rw [front] at split
    exact ⟨gap, used, after, blank, split, spelled, numbersRead_of_definition spelled, distinct,
      rfl⟩
  · rw [statementRound_of_declaration starts] at again
    obtain ⟨result, between, read, done⟩ := bind_ok_iff.mp again
    obtain ⟨same, rfl⟩ := pure_ok_iff.mp done
    cases same
    obtain ⟨used, after, front, spelled, numbers, rfl⟩ := declaration_ok_iff.mp read
    rw [front] at split
    exact ⟨gap, used, after, blank, split, spelled, numbers, nofun, rfl⟩
  · rw [statementRound_of_rule starts] at again
    obtain ⟨rule, used, after, rfl, front, spelled, numbers, rfl⟩ :=
      spelled_of_ruleRound (startsRule_iff.mp starts).2.1 again
    rw [front] at split
    exact ⟨gap, used, after, blank, split, spelled, numbers, nofun, rfl⟩

/-- A round reads a statement whose tokens come first behind empty lines. -/
theorem statementRound_of_spelled {gap used : List Token} (blank : Gap gap)
    (spelled : statement.SpelledBy used) (numbers : NumbersRead used)
    (distinct : statement.LabelsDistinct) (after : List Token) :
    statementRound (gap ++ (used ++ after)) =
      .ok (.again statement) (leftOver statement after) := by
  have front : afterNewlines (gap ++ (used ++ after)) = used ++ after := by
    rw [afterNewlines_gap blank, afterNewlines_eq_self (startsWith_newline_statement spelled after)]
  cases statement with
  | definition result =>
      have starts := startsDefinition_definition spelled after
      rw [← front] at starts
      rw [statementRound_of_definition starts, front]
      exact bind_ok_iff.mpr ⟨result, _,
        definition_ok_iff.mpr ⟨used, after, rfl, spelled, distinct, rfl⟩, rfl⟩
  | declaration result =>
      have starts := startsWith_var_declaration spelled after
      rw [← front] at starts
      rw [statementRound_of_declaration starts, front]
      exact bind_ok_iff.mpr ⟨result, _,
        declaration_ok_iff.mpr ⟨used, after, rfl, spelled, numbers, rfl⟩, rfl⟩
  | rule rule =>
      have named := startsWith_identifier_rule spelled after
      have starts : startsRule (used ++ after) = true := by
        obtain ⟨_, _, same, _⟩ := startsWith_iff.mp named
        exact startsRule_iff.mpr ⟨same ▸ List.cons_ne_nil _ _, startsDefinition_rule spelled after,
          startsWith_unique (by decide) named⟩
      rw [← front] at starts
      rw [statementRound_of_rule starts, front]
      exact ruleRound_of_spelled spelled numbers after

theorem ruleRound_ne_done : ruleRound tokens ≠ .ok (.done none) rest := by
  intro done
  rw [ruleRound] at done
  split at done
  · cases done
  · cases done
  · cases done
  · split at done <;> cases done

theorem gap_iff_afterNewlines : Gap tokens ↔ afterNewlines tokens = [] := by
  rw [afterNewlines, List.dropWhile_eq_nil_iff]
  simp only [Gap, beq_iff_eq]

/-- The statements end at the end of the tokens or at a rule. -/
theorem start_of_statementRound_done {stop : Option Stop}
    (done : statementRound tokens = .ok (.done stop) rest) :
    afterNewlines tokens = [] ∨ startsRule (afterNewlines tokens) = true := by
  obtain ended | starts | starts | starts := start_cases (afterNewlines tokens)
  · exact .inl ended
  · rw [statementRound_of_definition starts] at done
    obtain ⟨_, _, _, returned⟩ := bind_ok_iff.mp done
    cases (pure_ok_iff.mp returned).1
  · rw [statementRound_of_declaration starts] at done
    obtain ⟨_, _, _, returned⟩ := bind_ok_iff.mp done
    cases (pure_ok_iff.mp returned).1
  · exact .inr starts

/-- The statements end without a fault at the end of the tokens. -/
theorem statementRound_done_iff :
    statementRound tokens = .ok (.done none) rest ↔ Gap tokens ∧ rest = [] := by
  rw [gap_iff_afterNewlines]
  constructor
  · intro done
    obtain ended | starts := start_of_statementRound_done done
    · rw [statementRound_of_end ended] at done
      cases done
      exact ⟨ended, rfl⟩
    · rw [statementRound_of_rule starts] at done
      exact absurd done ruleRound_ne_done
  · rintro ⟨ended, rfl⟩
    exact statementRound_of_end ended

/-! ## All statements -/

theorem statementRound_progressive : Progressive statementRound := by
  intro tokens statement rest again
  obtain ⟨gap, used, after, _, rfl, spelled, _, _, rfl⟩ := spelled_of_statementRound again
  obtain ⟨token, others, rfl, _⟩ := statement_cons spelled
  obtain ⟨blank, _, split⟩ := exists_gap_leftOver statement after
  have shorter : (leftOver statement after).length ≤ after.length := by
    have same := congrArg List.length split
    rw [List.length_append] at same
    omega
  simp only [List.length_append, List.length_cons]
  omega

/-- Statements that were read one after the other make up a program, up to the start of what
comes next. -/
theorem program_of_leads {statements : List Statement}
    (leads : Leads statementRound tokens statements rest) :
    ∃ used, tokens = used ++ afterNewlines rest ∧ Program statements used ∧ NumbersRead used ∧
      ∀ statement ∈ statements, statement.LabelsDistinct := by
  induction leads with
  | @here tokens =>
      obtain ⟨gap, blank, split⟩ := exists_gap tokens
      exact ⟨gap, split, ⟨gap, [], blank, .nil, (List.append_nil _).symm⟩,
        numbersRead_of_gap blank, nofun⟩
  | again more others ih =>
      obtain ⟨gap, used, after, blank, rfl, spelled, read, distinct, rfl⟩ :=
        spelled_of_statementRound more
      obtain ⟨_, same, ⟨nextGap, following, nextBlank, sequence, rfl⟩, othersRead,
        othersDistinct⟩ := ih
      obtain ⟨between, betweenBlank, split⟩ := exists_gap_leftOver _ after
      refine ⟨_, ?_, ⟨gap, _, blank, .cons ⟨used, between ++ nextGap, spelled,
        gap_append.mpr ⟨betweenBlank, nextBlank⟩, rfl⟩ sequence, rfl⟩, ?_,
        List.forall_mem_cons.mpr ⟨distinct, othersDistinct⟩⟩
      · rw [split, same]
        simp only [List.append_assoc]
      · rw [numbersRead_append] at othersRead
        simp only [numbersRead_append]
        exact ⟨numbersRead_of_gap blank, ⟨read, numbersRead_of_gap betweenBlank, othersRead.1⟩,
          othersRead.2⟩

/-- A program is read whichever production its empty lines belong to. -/
theorem leads_of_sequence {statements : List Statement} {used : List Token}
    (sequence : Sequence StatementGap statements used) (read : NumbersRead used)
    (distinct : ∀ statement ∈ statements, statement.LabelsDistinct)
    (same : afterNewlines tokens = afterNewlines (used ++ rest)) :
    ∃ between, Leads statementRound tokens statements between ∧
      afterNewlines between = afterNewlines rest := by
  induction sequence generalizing tokens with
  | nil => exact ⟨tokens, .here, same⟩
  | cons first others ih =>
      rcases first with ⟨used, gap, spelled, blank, rfl⟩
      obtain ⟨firstDistinct, othersDistinct⟩ := List.forall_mem_cons.mp distinct
      rw [numbersRead_append, numbersRead_append] at read
      rw [List.append_assoc, List.append_assoc,
        afterNewlines_eq_self (startsWith_newline_statement spelled _)] at same
      obtain ⟨before, beforeBlank, split⟩ := exists_gap tokens
      rw [same] at split
      obtain ⟨between, leads, ends⟩ := ih read.2 othersDistinct
        ((afterNewlines_leftOver _ _).trans (afterNewlines_gap blank))
      refine ⟨between, ?_, ends⟩
      rw [split]
      exact .again (statementRound_of_spelled beforeBlank spelled read.1.1 firstDistinct _) leads

/-- Exactly the programs are read to the end. -/
theorem statements_ok_iff {result : List Statement} :
    statements tokens = .ok (result, none) rest ↔
      rest = [] ∧ Program result tokens ∧ NumbersRead tokens ∧
        ∀ statement ∈ result, statement.LabelsDistinct := by
  rw [statements, collect_ok_iff statementRound_progressive, repeats_iff_leads]
  simp only [statementRound_done_iff, gap_iff_afterNewlines]
  constructor
  · rintro ⟨between, leads, blank, rfl⟩
    obtain ⟨used, same, program⟩ := program_of_leads leads
    rw [blank, List.append_nil] at same
    exact ⟨rfl, same ▸ program⟩
  · rintro ⟨rfl, ⟨gap, used, blank, sequence, rfl⟩, read, distinct⟩
    have start : afterNewlines (gap ++ used) = afterNewlines (used ++ []) := by
      rw [List.append_nil, afterNewlines_gap blank]
    obtain ⟨between, leads, ends⟩ :=
      leads_of_sequence sequence (numbersRead_append.mp read).2 distinct start
    exact ⟨between, leads, ends, rfl⟩

/-! ## One denotation -/

/-- What comes first in a list of items with commas is read in one way only. -/
theorem separated_unique {α : Type} {reading : Reading α} {item : α → List Token → Prop}
    (reads : Reads reading item) {first second : List α} {used other after otherAfter : List Token}
    (separated : Separated Comma item first used)
    (otherSeparated : Separated Comma item second other)
    (ends : startsWith .comma after = false) (otherEnds : startsWith .comma otherAfter = false)
    (same : used ++ after = other ++ otherAfter) : first = second ∧ after = otherAfter := by
  have read := (commaList_ok_iff reads).mpr ⟨used, rfl, separated, ends⟩
  have otherRead := (commaList_ok_iff reads).mpr ⟨other, same, otherSeparated, otherEnds⟩
  rw [read] at otherRead
  cases otherRead
  exact ⟨rfl, rfl⟩

theorem definition_unique {first second : Definition} {used other after otherAfter : List Token}
    (spelled : (Statement.definition first).SpelledBy used)
    (otherSpelled : (Statement.definition second).SpelledBy other)
    (same : used ++ after = other ++ otherAfter) :
    first = second ∧ afterNewlines after = afterNewlines otherAfter := by
  cases spelled with
  | domain _ _ opens lists closes ends =>
      cases otherSpelled with
      | domain _ _ _ otherLists otherCloses otherEnds =>
          simp only [List.cons_append, List.append_assoc, List.cons.injEq] at same
          rcases same with ⟨rfl, rfl, rfl, same⟩
          obtain ⟨rfl, rest⟩ := separated_unique identifier_reads lists otherLists
            (startsWith_cons (by simp [closes])) (startsWith_cons (by simp [otherCloses])) same
          have left := congrArg afterNewlines (List.cons.inj rest).2
          rw [afterNewlines_gap ends.2, afterNewlines_gap otherEnds.2] at left
          exact ⟨rfl, left⟩
      | schema _ _ otherOpens _ _ _ =>
          simp only [List.cons_append, List.cons.injEq] at same
          rw [same.2.2.1, otherOpens] at opens
          cases opens
  | schema _ _ opens lists closes ends =>
      cases otherSpelled with
      | domain _ _ otherOpens _ _ _ =>
          simp only [List.cons_append, List.cons.injEq] at same
          rw [same.2.2.1, otherOpens] at opens
          cases opens
      | schema _ _ _ otherLists otherCloses otherEnds =>
          simp only [List.cons_append, List.append_assoc, List.cons.injEq] at same
          rcases same with ⟨rfl, rfl, rfl, same⟩
          obtain ⟨rfl, rest⟩ := separated_unique entry_reads lists otherLists
            (startsWith_cons (by simp [closes])) (startsWith_cons (by simp [otherCloses])) same
          have left := congrArg afterNewlines (List.cons.inj rest).2
          rw [afterNewlines_gap ends.2, afterNewlines_gap otherEnds.2] at left
          exact ⟨rfl, left⟩

/-- Whether a statement that comes first is a definition can be seen. -/
theorem startsDefinition_statement {used : List Token} (spelled : statement.SpelledBy used)
    (after : List Token) :
    startsDefinition (used ++ after) = true ↔ ∃ result, statement = .definition result := by
  cases statement with
  | definition result =>
      exact ⟨fun _ => ⟨result, rfl⟩, fun _ => startsDefinition_definition spelled after⟩
  | declaration result =>
      rw [startsDefinition_of_var (startsWith_var_declaration spelled after)]
      exact ⟨nofun, nofun⟩
  | rule result =>
      rw [startsDefinition_rule spelled after]
      exact ⟨nofun, nofun⟩

/-- Two statements that come first are the same, up to empty lines. -/
theorem statement_unique {first second : Statement} {used other after otherAfter : List Token}
    (spelled : first.SpelledBy used) (otherSpelled : second.SpelledBy other)
    (read : NumbersRead used) (otherRead : NumbersRead other)
    (same : used ++ after = other ++ otherAfter) :
    first = second ∧ afterNewlines after = afterNewlines otherAfter := by
  by_cases defines : ∃ result, first = .definition result
  · have otherDefines := (startsDefinition_statement spelled after).mpr defines
    rw [same, startsDefinition_statement otherSpelled] at otherDefines
    rcases defines with ⟨result, rfl⟩
    rcases otherDefines with ⟨otherResult, rfl⟩
    obtain ⟨rfl, left⟩ := definition_unique spelled otherSpelled same
    exact ⟨rfl, left⟩
  · have distinct : ∀ {statement : Statement}, (¬ ∃ result, statement = .definition result) →
        statement.LabelsDistinct := by
      rintro (result | _ | _) undefining
      · exact absurd ⟨result, rfl⟩ undefining
      · nofun
      · nofun
    have otherUndefining : ¬ ∃ result, second = .definition result := by
      rw [← startsDefinition_statement otherSpelled otherAfter, ← same,
        startsDefinition_statement spelled]
      exact defines
    have nothing : Gap [] := nofun
    have round := statementRound_of_spelled nothing spelled read (distinct defines) after
    have otherRound :=
      statementRound_of_spelled nothing otherSpelled otherRead (distinct otherUndefining) otherAfter
    rw [same, otherRound] at round
    injection round with statements left
    cases statements
    have leftNewlines := congrArg afterNewlines left
    rw [afterNewlines_leftOver, afterNewlines_leftOver] at leftNewlines
    exact ⟨rfl, leftNewlines.symm⟩

theorem sequence_unique {first second : List Statement} {used other : List Token}
    (sequence : Sequence StatementGap first used)
    (otherSequence : Sequence StatementGap second other)
    (read : NumbersRead used) (otherRead : NumbersRead other)
    (same : afterNewlines used = afterNewlines other) : first = second := by
  induction sequence generalizing second other with
  | nil =>
      cases otherSequence with
      | nil => rfl
      | cons next _ =>
          rcases next with ⟨otherUsed, gap, spelled, _, rfl⟩
          obtain ⟨token, others, rfl, _⟩ := statement_cons spelled
          rw [List.append_assoc, afterNewlines_eq_self (startsWith_newline_statement spelled _)]
            at same
          cases same
  | cons first others ih =>
      rcases first with ⟨used, gap, spelled, blank, rfl⟩
      rw [List.append_assoc, afterNewlines_eq_self (startsWith_newline_statement spelled _)] at same
      cases otherSequence with
      | nil =>
          obtain ⟨token, others, rfl, _⟩ := statement_cons spelled
          cases same
      | cons next otherOthers =>
          rcases next with ⟨otherUsed, otherGap, otherSpelled, otherBlank, rfl⟩
          rw [List.append_assoc,
            afterNewlines_eq_self (startsWith_newline_statement otherSpelled _)] at same
          rw [numbersRead_append, numbersRead_append] at read otherRead
          obtain ⟨rfl, left⟩ :=
            statement_unique spelled otherSpelled read.1.1 otherRead.1.1 same
          rw [afterNewlines_gap blank, afterNewlines_gap otherBlank] at left
          rw [ih otherOthers read.2 otherRead.2 left]

/-- All derivations of a program agree on its statements. -/
theorem program_unique {first second : List Statement} (program : Program first tokens)
    (other : Program second tokens) (read : NumbersRead tokens) : first = second := by
  rcases program with ⟨gap, used, blank, sequence, rfl⟩
  rcases other with ⟨otherGap, otherUsed, otherBlank, otherSequence, same⟩
  have otherRead := read
  rw [same] at otherRead
  have left := congrArg afterNewlines same
  rw [afterNewlines_gap blank, afterNewlines_gap otherBlank] at left
  exact sequence_unique sequence otherSequence (numbersRead_append.mp read).2
    (numbersRead_append.mp otherRead).2 left

end Reading

namespace Reader

open Grammar

variable {file : Path} {source : Option String} {tokens : List Token} {puzzle : Puzzle}

/-- What a reader gives is made up of the statements that it reads. -/
theorem puzzle_ok_iff {notices : List Notice} :
    (ofTokens file source tokens).puzzle.1 = .ok (puzzle, notices) ↔
      ∃ statements stop rest, Reading.statements tokens = .ok (statements, stop) rest ∧
        puzzle = Puzzle.ofStatements (some file) statements ∧
          notices = (stop.map (ofTokens file source tokens).stopNotice).toList := by
  have unread : (ofTokens file source tokens).rest = tokens := rfl
  rw [Reader.puzzle, read, unread]
  cases Reading.statements tokens with
  | error misreading rest =>
      constructor
      · nofun
      · rintro ⟨_, _, _, impossible, _⟩
        cases impossible
  | ok result rest =>
      rcases result with ⟨statements, stop⟩
      constructor
      · intro same
        cases same
        exact ⟨statements, stop, rest, rfl, rfl, rfl⟩
      · rintro ⟨_, _, _, same, rfl, rfl⟩
        cases same
        rfl

theorem puzzle_error_iff {failure : Failure} :
    (ofTokens file source tokens).puzzle.1 = .error failure ↔
      ∃ misreading rest, Reading.statements tokens = .error misreading rest ∧
        failure = (ofTokens file source tokens).placed misreading := by
  have unread : (ofTokens file source tokens).rest = tokens := rfl
  rw [Reader.puzzle, read, unread]
  cases Reading.statements tokens with
  | error misreading rest =>
      constructor
      · intro same
        cases same
        exact ⟨misreading, rest, rfl, rfl⟩
      · rintro ⟨_, _, same, rfl⟩
        cases same
        rfl
  | ok read rest =>
      constructor
      · nofun
      · rintro ⟨_, _, impossible, _⟩
        cases impossible

/-- A reader reads a puzzle without a notice and leaves no token over. -/
def ReadsWhole (reader : Reader) (puzzle : Puzzle) : Prop :=
  reader.puzzle = (.ok (puzzle, []), { reader with rest := [] })

theorem readsWhole_iff :
    (ofTokens file source tokens).ReadsWhole puzzle ↔
      ∃ statements, Reading.statements tokens = .ok (statements, none) [] ∧
        puzzle = Puzzle.ofStatements (some file) statements := by
  have rest : (ofTokens file source tokens).rest = tokens := rfl
  rw [ReadsWhole, Reader.puzzle, read, rest]
  cases done : Reading.statements tokens with
  | error misreading others =>
      constructor
      · intro whole
        cases (Prod.mk.inj whole).1
      · rintro ⟨_, impossible, _⟩
        cases impossible
  | ok result others =>
      rcases result with ⟨statements, stop⟩
      constructor
      · intro whole
        obtain ⟨returned, consumed⟩ := Prod.mk.inj whole
        obtain ⟨same, silent⟩ := Prod.mk.inj (Except.ok.inj returned)
        obtain rfl : others = [] := congrArg Reader.rest consumed
        cases stop with
        | none => exact ⟨statements, rfl, same.symm⟩
        | some stop => cases silent
      · rintro ⟨_, same, rfl⟩
        cases same
        rfl

/-- A reader reads exactly the programs whose numbers can be read and whose domains do not
repeat labels, and every derivation of such a program denotes the puzzle that was read. -/
theorem readsWhole_iff_program (file : Path) (source : Option String) (tokens : List Token) :
    ((∃ puzzle, (ofTokens file source tokens).ReadsWhole puzzle) ↔
      ∃ statements, Program statements tokens ∧ NumbersRead tokens ∧
        ∀ statement ∈ statements, statement.LabelsDistinct) ∧
    ∀ puzzle, (ofTokens file source tokens).ReadsWhole puzzle →
      ∀ statements, Program statements tokens →
        puzzle = Puzzle.ofStatements (some file) statements := by
  constructor
  · constructor
    · rintro ⟨puzzle, whole⟩
      obtain ⟨statements, read, _⟩ := readsWhole_iff.mp whole
      exact ⟨statements, (Reading.statements_ok_iff.mp read).2⟩
    · rintro ⟨statements, program⟩
      have read := Reading.statements_ok_iff.mpr ⟨rfl, program⟩
      exact ⟨_, readsWhole_iff.mpr ⟨statements, read, rfl⟩⟩
  · intro puzzle whole statements program
    obtain ⟨others, read, rfl⟩ := readsWhole_iff.mp whole
    obtain ⟨_, otherProgram, numbers, _⟩ := Reading.statements_ok_iff.mp read
    rw [Reading.program_unique program otherProgram numbers]

def mixedTokens : List Token :=
  [(.identifier, "X"), (.openBracket, "["), (.number, "0"), (.closeBracket, "]"), (.differs, "!="),
    (.identifier, "b"), (.newline, ""),
   (.identifier, "S"), (.equals, "="), (.openBracket, "["), (.unique, "unique"),
    (.identifier, "A"), (.identifier, "f"), (.closeBracket, "]"), (.newline, ""), (.newline, ""),
   (.identifier, "P"), (.dot, "."), (.identifier, "f"), (.equals, "="), (.identifier, "a"),
    (.yields, "=>"), (.newline, ""), (.indent, ""),
    (.identifier, "P"), (.dot, "."), (.identifier, "f"), (.equals, "="), (.identifier, "X"),
    (.newline, ""), (.dedent, ""),
   (.identifier, "A"), (.equals, "="), (.openBrace, "\x7b"), (.identifier, "a"), (.comma, ","),
    (.identifier, "b"), (.closeBrace, "\x7d"), (.newline, ""),
   (.var, "var"), (.identifier, "X"), (.colon, ":"), (.identifier, "A"), (.openBracket, "["),
    (.number, "2"), (.closeBracket, "]"), (.newline, ""),
   (.var, "var"), (.identifier, "P"), (.colon, ":"), (.identifier, "S"), (.newline, "")].map
    fun token => ⟨token.1, token.2, ⟨1, 1⟩⟩

/-- The statements of each kind stand in a list of their own, in their order. -/
example : (ofTokens (Path.ofString "mixed.grid") none mixedTokens).ReadsWhole
    { file := some (Path.ofString "mixed.grid")
      domains := [⟨"A", ["a", "b"]⟩]
      schemas := [⟨"S", [⟨"A", "f", true⟩]⟩]
      declarations := [⟨"X", "A", some 2, ⟨1, 1⟩⟩, ⟨"P", "S", none, ⟨1, 1⟩⟩]
      rules :=
        [⟨⟨⟨"X", [.index 0], ⟨1, 1⟩⟩, true, ⟨"b", [], ⟨1, 1⟩⟩⟩, []⟩,
         ⟨⟨⟨"P", [.field "f"], ⟨1, 1⟩⟩, false, ⟨"a", [], ⟨1, 1⟩⟩⟩,
          [⟨⟨"P", [.field "f"], ⟨1, 1⟩⟩, false, ⟨"X", [], ⟨1, 1⟩⟩⟩]⟩] } := by
  rfl

end Reader

end LogicPuzzle
