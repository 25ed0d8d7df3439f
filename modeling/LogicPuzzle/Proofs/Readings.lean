import LogicPuzzle.Proofs.Grammar
import Mathlib.Data.List.TakeWhile

/-!
# When readings succeed

For each elementary reading, and for each way of joining readings, it is said
exactly when the result is a value and what is left over.  A repetition succeeds
when its rounds, one after the other, give the items and then the end, and it
fails when one of them does.
-/

namespace LogicPuzzle

namespace Reading

variable {α β ω : Type} {tokens rest : List Token}

theorem bind_ok_iff {first : Reading α} {next : α → Reading β} {result : β} :
    (first >>= next) tokens = .ok result rest ↔
      ∃ value between, first tokens = .ok value between ∧
        next value between = .ok result rest := by
  change EStateM.bind first next tokens = _ ↔ _
  rw [EStateM.bind]
  cases first tokens with
  | ok value between =>
      constructor
      · intro done
        exact ⟨value, between, rfl, done⟩
      · rintro ⟨_, _, same, done⟩
        cases same
        exact done
  | error misreading between =>
      constructor
      · nofun
      · rintro ⟨_, _, impossible, _⟩
        cases impossible

theorem bind_error_iff {first : Reading α} {next : α → Reading β} {misreading : Misreading} :
    (first >>= next) tokens = .error misreading rest ↔
      first tokens = .error misreading rest ∨ ∃ value between, first tokens = .ok value between ∧
        next value between = .error misreading rest := by
  change EStateM.bind first next tokens = _ ↔ _
  rw [EStateM.bind]
  cases first tokens with
  | ok value between =>
      constructor
      · intro failed
        exact .inr ⟨value, between, rfl, failed⟩
      · rintro (impossible | ⟨_, _, same, failed⟩)
        · cases impossible
        · cases same
          exact failed
  | error misreading between =>
      constructor
      · intro failed
        cases failed
        exact .inl rfl
      · rintro (same | ⟨_, _, impossible, _⟩)
        · cases same
          rfl
        · cases impossible

theorem pure_ok_iff {value result : α} :
    (pure value : Reading α) tokens = .ok result rest ↔ value = result ∧ tokens = rest := by
  change EStateM.Result.ok value tokens = _ ↔ _
  rw [EStateM.Result.ok.injEq]

theorem fail_ne_ok {cause : Fault} {result : α} : fail cause tokens ≠ .ok result rest := nofun

theorem failAt_ne_ok {token : Token} {cause : Fault} {result : α} :
    failAt token cause tokens ≠ .ok result rest := nofun

theorem startsWith_iff {kind : Kind} :
    startsWith kind tokens = true ↔ ∃ token between, tokens = token :: between ∧
      token.kind = kind := by
  cases tokens with
  | nil => simp [startsWith]
  | cons token between => simp [startsWith]

theorem startsWith_cons {kind : Kind} {token : Token} (other : token.kind ≠ kind) :
    startsWith kind (token :: rest) = false := by
  simpa [startsWith] using other

theorem expect_ok_iff {kind : Kind} {token : Token} :
    expect kind tokens = .ok token rest ↔ tokens = token :: rest ∧ token.kind = kind := by
  unfold expect
  cases tokens with
  | nil => simp
  | cons first others =>
      dsimp only
      split
      · next same =>
          simp only [EStateM.Result.ok.injEq, List.cons.injEq]
          constructor
          · rintro ⟨rfl, rfl⟩
            exact ⟨⟨rfl, rfl⟩, same⟩
          · rintro ⟨⟨rfl, rfl⟩, _⟩
            exact ⟨rfl, rfl⟩
      · next other =>
          constructor
          · nofun
          · rintro ⟨same, named⟩
            cases same
            exact absurd named other

/-- A token that is expected comes first. -/
theorem expect_bind_ok_iff {kind : Kind} {next : Token → Reading α} {result : α} :
    (expect kind >>= next) tokens = .ok result rest ↔
      ∃ token between, tokens = token :: between ∧ token.kind = kind ∧
        next token between = .ok result rest := by
  simp only [bind_ok_iff, expect_ok_iff, and_assoc]

/-- A choice on whether a token is accepted. -/
theorem accept_bind_ok_iff {kind : Kind} {next : Bool → Reading α} {result : α} :
    (accept kind >>= next) tokens = .ok result rest ↔
      (∃ token between, tokens = token :: between ∧ token.kind = kind ∧
        next true between = .ok result rest) ∨
      startsWith kind tokens = false ∧ next false tokens = .ok result rest := by
  rw [bind_ok_iff]
  simp only [accept]
  cases found : startsWith kind tokens with
  | true =>
      obtain ⟨token, between, rfl, named⟩ := startsWith_iff.mp found
      constructor
      · rintro ⟨_, _, accepted, done⟩
        cases accepted
        exact .inl ⟨token, between, rfl, named, done⟩
      · rintro (⟨_, _, same, _, done⟩ | ⟨impossible, _⟩)
        · cases same
          exact ⟨_, _, rfl, done⟩
        · cases impossible
  | false =>
      constructor
      · rintro ⟨_, _, refused, done⟩
        cases refused
        exact .inr ⟨rfl, done⟩
      · rintro (⟨token, between, rfl, named, _⟩ | ⟨_, done⟩)
        · rw [startsWith_iff.mpr ⟨token, between, rfl, named⟩] at found
          cases found
        · exact ⟨_, _, rfl, done⟩

/-- A choice on whether a token comes next. -/
theorem sees_bind_ok_iff {kind : Kind} {next : Bool → Reading α} {result : α} :
    (sees kind >>= next) tokens = .ok result rest ↔
      next (startsWith kind tokens) tokens = .ok result rest := by
  rw [bind_ok_iff]
  constructor
  · rintro ⟨_, _, seen, done⟩
    cases seen
    exact done
  · intro done
    exact ⟨_, _, rfl, done⟩

/-! ## Ends of lines -/

theorem afterNewlines_gap {gap : List Token} (blank : Grammar.Gap gap) :
    afterNewlines (gap ++ tokens) = afterNewlines tokens := by
  rw [afterNewlines, List.dropWhile_append_of_pos (by simpa [Grammar.Gap] using blank)]
  rfl

theorem afterNewlines_eq_self (other : startsWith .newline tokens = false) :
    afterNewlines tokens = tokens := by
  cases tokens with
  | nil => rfl
  | cons token others =>
      rw [afterNewlines, List.dropWhile_cons_of_neg]
      simpa [startsWith] using other

theorem startsWith_afterNewlines : startsWith .newline (afterNewlines tokens) = false := by
  have other := List.head?_dropWhile_not (fun token => token.kind == Kind.newline) tokens
  rw [startsWith, afterNewlines]
  split at other
  · next found => rw [found, Option.any_some, other]
  · next found => rw [found, Option.any_none]

theorem afterNewlines_idem (tokens : List Token) :
    afterNewlines (afterNewlines tokens) = afterNewlines tokens :=
  afterNewlines_eq_self startsWith_afterNewlines

/-- The ends of lines in front of some tokens. -/
theorem exists_gap (tokens : List Token) :
    ∃ gap, Grammar.Gap gap ∧ tokens = gap ++ afterNewlines tokens := by
  refine ⟨tokens.takeWhile fun token => token.kind == .newline, ?_,
    List.takeWhile_append_dropWhile.symm⟩
  intro token member
  have passed := List.mem_takeWhile_imp (p := fun token : Token => token.kind == .newline) member
  exact beq_iff_eq.mp passed

theorem skipNewlines_bind_ok_iff {next : Unit → Reading α} {result : α} :
    (skipNewlines >>= next) tokens = .ok result rest ↔
      next () (afterNewlines tokens) = .ok result rest := by
  rw [bind_ok_iff]
  constructor
  · rintro ⟨_, _, skipped, done⟩
    cases skipped
    exact done
  · intro done
    exact ⟨_, _, rfl, done⟩

/-- The end of a line is read with all the empty lines that follow. -/
theorem endLine_ok_iff {result : Unit} :
    endLine tokens = .ok result rest ↔
      ∃ lines after, Grammar.LineEnd lines ∧ tokens = lines ++ after ∧
        rest = afterNewlines after := by
  rw [endLine, bind_ok_iff]
  constructor
  · rintro ⟨newline, between, expected, skipped⟩
    obtain ⟨rfl, ends⟩ := expect_ok_iff.mp expected
    cases skipped
    exact ⟨[newline], between, ⟨List.cons_ne_nil _ _, List.forall_mem_singleton.mpr ends⟩, rfl,
      rfl⟩
  · rintro ⟨lines, after, ⟨nonempty, blank⟩, rfl, rfl⟩
    cases lines with
    | nil => exact absurd rfl nonempty
    | cons newline gap =>
        obtain ⟨ends, gapBlank⟩ := List.forall_mem_cons.mp blank
        refine ⟨newline, gap ++ after, expect_ok_iff.mpr ⟨rfl, ends⟩, ?_⟩
        rw [skipNewlines, afterNewlines_gap gapBlank]

/-! ## Repetitions -/

/-- Rounds, one after the other, give items and then the end. -/
inductive Repeats (round : Reading (Round α ω)) : List Token → List α → ω → List Token → Prop where
  | done {tokens rest : List Token} {last : ω} (ended : round tokens = .ok (.done last) rest) :
      Repeats round tokens [] last rest
  | again {tokens between rest : List Token} {item : α} {items : List α} {last : ω}
      (more : round tokens = .ok (.again item) between)
      (others : Repeats round between items last rest) :
      Repeats round tokens (item :: items) last rest

/-- A round that asks for another one consumes a token. -/
def Progressive (round : Reading (Round α ω)) : Prop :=
  ∀ tokens item rest, round tokens = .ok (.again item) rest → rest.length < tokens.length

variable {round : Reading (Round α ω)} {items : List α} {last : ω}

/-- Rounds, one after the other, give items and lead from some tokens to others. -/
inductive Leads (round : Reading (Round α ω)) : List Token → List α → List Token → Prop where
  | here {tokens : List Token} : Leads round tokens [] tokens
  | again {tokens between rest : List Token} {item : α} {items : List α}
      (more : round tokens = .ok (.again item) between)
      (others : Leads round between items rest) : Leads round tokens (item :: items) rest

/-- A repetition is made of the rounds that lead to its last one. -/
theorem repeats_iff_leads :
    Repeats round tokens items last rest ↔
      ∃ between, Leads round tokens items between ∧ round between = .ok (.done last) rest := by
  constructor
  · intro repeats
    induction repeats with
    | done ended => exact ⟨_, .here, ended⟩
    | again more _ ih =>
        obtain ⟨between, leads, ended⟩ := ih
        exact ⟨between, .again more leads, ended⟩
  · rintro ⟨between, leads, ended⟩
    induction leads with
    | here => exact .done ended
    | again more _ ih => exact .again more (ih ended)

theorem repeats_of_collectWithin {bound : List Token}
    (collected : collectWithin round bound tokens = .ok (items, last) rest) :
    Repeats round tokens items last rest := by
  induction bound generalizing tokens items with
  | nil =>
      simp only [collectWithin] at collected
      split at collected
      · cases collected
      · next ended =>
          cases collected
          exact .done ended
      · cases collected
  | cons _ bound ih =>
      simp only [collectWithin] at collected
      split at collected
      · cases collected
      · next ended =>
          cases collected
          exact .done ended
      · next more =>
          split at collected
          · cases collected
          · next others =>
              cases collected
              exact .again more (ih others)

theorem collectWithin_of_repeats (progressive : Progressive round)
    (repeats : Repeats round tokens items last rest) {bound : List Token}
    (enough : tokens.length ≤ bound.length) :
    collectWithin round bound tokens = .ok (items, last) rest := by
  induction repeats generalizing bound with
  | done ended =>
      cases bound <;> simp only [collectWithin, ended]
  | again more others ih =>
      have less := progressive _ _ _ more
      cases bound with
      | nil => exact absurd (Nat.lt_of_lt_of_le less enough) (Nat.not_lt_zero _)
      | cons token bound =>
          rw [List.length_cons] at enough
          simp only [collectWithin, more, ih (by omega : _ ≤ bound.length)]

/-- A repetition succeeds when its rounds do. -/
theorem collect_ok_iff (progressive : Progressive round) :
    collect round tokens = .ok (items, last) rest ↔ Repeats round tokens items last rest := by
  constructor
  · exact repeats_of_collectWithin
  · intro repeats
    exact collectWithin_of_repeats progressive repeats (Nat.le_refl _)

/-- A bound that is not shorter than the tokens does not bound a repetition. -/
theorem collectWithin_enough (progressive : Progressive round) {bound other : List Token}
    (enough : tokens.length ≤ bound.length) (otherEnough : tokens.length ≤ other.length) :
    collectWithin round bound tokens = collectWithin round other tokens := by
  induction bound generalizing tokens other with
  | nil =>
      have empty : tokens = [] := List.eq_nil_of_length_eq_zero (Nat.le_zero.mp enough)
      subst empty
      cases read : round [] with
      | error misreading rest => cases other <;> simp only [collectWithin, read]
      | ok result rest =>
          cases result with
          | done last => cases other <;> simp only [collectWithin, read]
          | again item => exact absurd (progressive _ _ _ read) (Nat.not_lt_zero _)
  | cons _ bound ih =>
      cases read : round tokens with
      | error misreading rest => cases other <;> simp only [collectWithin, read]
      | ok result rest =>
          cases result with
          | done last => cases other <;> simp only [collectWithin, read]
          | again item =>
              have less := progressive _ _ _ read
              rw [List.length_cons] at enough
              cases other with
              | nil => exact absurd (less.trans_le otherEnough) (Nat.not_lt_zero _)
              | cons _ other =>
                  rw [List.length_cons] at otherEnough
                  simp only [collectWithin, read,
                    ih (by omega : rest.length ≤ bound.length)
                      (by omega : rest.length ≤ other.length)]

/-- A repetition fails when one of its rounds does. -/
theorem collectWithin_error_iff (progressive : Progressive round) {bound : List Token}
    (enough : tokens.length ≤ bound.length) {misreading : Misreading} :
    collectWithin round bound tokens = .error misreading rest ↔
      ∃ items between, Leads round tokens items between ∧
        round between = .error misreading rest := by
  constructor
  · intro failed
    induction bound generalizing tokens with
    | nil =>
        simp only [collectWithin] at failed
        split at failed
        · next same =>
            cases failed
            exact ⟨[], tokens, .here, same⟩
        · cases failed
        · next more =>
            have less := progressive _ _ _ more
            exact absurd (Nat.lt_of_lt_of_le less enough) (Nat.not_lt_zero _)
    | cons _ bound ih =>
        simp only [collectWithin] at failed
        split at failed
        · next same =>
            cases failed
            exact ⟨[], tokens, .here, same⟩
        · cases failed
        · next more =>
            have less := progressive _ _ _ more
            rw [List.length_cons] at enough
            split at failed
            · next later =>
                cases failed
                obtain ⟨items, between, leads, same⟩ := ih (by omega) later
                exact ⟨_, between, .again more leads, same⟩
            · cases failed
  · rintro ⟨items, between, leads, failed⟩
    induction leads generalizing bound with
    | here => cases bound <;> simp only [collectWithin, failed]
    | again more others ih =>
        have less := progressive _ _ _ more
        cases bound with
        | nil => exact absurd (Nat.lt_of_lt_of_le less enough) (Nat.not_lt_zero _)
        | cons _ bound =>
            rw [List.length_cons] at enough
            simp only [collectWithin, more, ih (by omega : _ ≤ bound.length) failed]

theorem collect_error_iff (progressive : Progressive round) {misreading : Misreading} :
    collect round tokens = .error misreading rest ↔
      ∃ items between, Leads round tokens items between ∧
        round between = .error misreading rest :=
  collectWithin_error_iff progressive (Nat.le_refl _)

end Reading

end LogicPuzzle
