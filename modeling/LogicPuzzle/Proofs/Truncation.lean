import LogicPuzzle.Proofs.Lookahead
import LogicPuzzle.Proofs.PuzzleReading

/-!
# Puzzles that are cut short

A fault in the head of a rule ends a puzzle with the statements before the rule,
and no token behind the one that is refused has a say in it.  Any other fault
fails the reading: those of definitions and of declarations, and those of a rule
whose arrow has been read.
-/

namespace LogicPuzzle

namespace Reading

open Grammar

variable {tokens rest start : List Token} {result : List Statement} {misreading : Misreading}

/-! ## Where a statement fails -/

def Reaches (tokens : List Token) (result : List Statement) (start : List Token) : Prop :=
  ∃ between, Leads statementRound tokens result between ∧ afterNewlines between = start

/-- The head of a rule is refused at the first of the tokens left over, or at their end. -/
structure Refuses (start : List Token) (cause : Fault) (rest : List Token) : Prop where
  starts : startsRule start = true
  refused : ruleHead start = .error (.fault cause rest.head?) rest

/-- A statement fails in a definition, in a declaration, or behind the arrow of a rule.  A number
in the head of a rule that denotes none fails it too, but is no fault. -/
inductive Fails (start : List Token) : Misreading → List Token → Prop where
  | definition {misreading : Misreading} {rest : List Token}
      (starts : startsDefinition start = true)
      (failed : Reading.definition start = .error misreading rest) : Fails start misreading rest
  | declaration {misreading : Misreading} {rest : List Token}
      (starts : startsWith .var start = true)
      (failed : Reading.declaration start = .error misreading rest) : Fails start misreading rest
  | block {guard : Comparison} {between rest : List Token} {misreading : Misreading}
      (starts : startsRule start = true) (yields : ruleHead start = .ok (guard, true) between)
      (failed : ruleBlock guard between = .error misreading rest) : Fails start misreading rest
  | numeral {text : String} {rest : List Token} (starts : startsRule start = true)
      (unread : ruleHead start = .error (.numeral text) rest) : Fails start (.numeral text) rest

/-- A round stops without an end of the tokens where the head of a rule is refused. -/
theorem statementRound_stopped_iff {stop : Stop} :
    statementRound tokens = .ok (.done (some stop)) rest ↔
      Refuses (afterNewlines tokens) stop.1 rest ∧ stop.2 = rest.head? := by
  constructor
  · intro stopped
    obtain ended | starts := start_of_statementRound_done stopped
    · rw [statementRound_of_end ended] at stopped
      cases stopped
    · rw [statementRound_of_rule starts, ruleRound] at stopped
      split at stopped
      · next cause token left refused =>
          cases stopped
          obtain rfl := looksAhead_ruleHead.faults _ _ _ _ refused
          exact ⟨⟨starts, refused⟩, rfl⟩
      · cases stopped
      · cases stopped
      · split at stopped <;> cases stopped
  · rintro ⟨⟨starts, refused⟩, same⟩
    rw [statementRound_of_rule starts, ruleRound, refused]
    obtain ⟨cause, token⟩ := stop
    obtain rfl : token = rest.head? := same
    rfl

theorem statementRound_error_iff :
    statementRound tokens = .error misreading rest ↔
      Fails (afterNewlines tokens) misreading rest := by
  constructor
  · intro failed
    obtain ended | starts | starts | starts := start_cases (afterNewlines tokens)
    · rw [statementRound_of_end ended] at failed
      cases failed
    · rw [statementRound_of_definition starts] at failed
      obtain failed | ⟨_, _, _, impossible⟩ := bind_error_iff.mp failed
      · exact .definition starts failed
      · cases impossible
    · rw [statementRound_of_declaration starts] at failed
      obtain failed | ⟨_, _, _, impossible⟩ := bind_error_iff.mp failed
      · exact .declaration starts failed
      · cases impossible
    · rw [statementRound_of_rule starts, ruleRound] at failed
      split at failed
      · cases failed
      · next other left noFault unread =>
          cases failed
          cases misreading with
          | fault cause token => exact absurd rfl (noFault cause token)
          | numeral text => exact .numeral starts unread
      · cases failed
      · next yields =>
          split at failed
          · next failed' =>
              cases failed
              exact .block starts yields failed'
          · cases failed
  · intro fails
    cases fails with
    | definition starts failed =>
        rw [statementRound_of_definition starts]
        exact bind_error_iff.mpr (.inl failed)
    | declaration starts failed =>
        rw [statementRound_of_declaration starts]
        exact bind_error_iff.mpr (.inl failed)
    | block starts yields failed =>
        rw [statementRound_of_rule starts, ruleRound, yields]
        simp only [failed]
    | numeral starts unread => rw [statementRound_of_rule starts, ruleRound, unread]

/-! ## Where the statements end -/

/-- The statements end early where the head of a rule is refused. -/
theorem statements_stopped_iff {stop : Stop} :
    statements tokens = .ok (result, some stop) rest ↔
      ∃ start, Reaches tokens result start ∧ Refuses start stop.1 rest ∧
        stop.2 = rest.head? := by
  rw [statements, collect_ok_iff statementRound_progressive, repeats_iff_leads]
  simp only [statementRound_stopped_iff]
  constructor
  · rintro ⟨between, leads, refuses⟩
    exact ⟨_, ⟨between, leads, rfl⟩, refuses⟩
  · rintro ⟨_, ⟨between, leads, rfl⟩, refuses⟩
    exact ⟨between, leads, refuses⟩

/-- The statements cannot be read where one of them fails. -/
theorem statements_error_iff :
    statements tokens = .error misreading rest ↔
      ∃ result start, Reaches tokens result start ∧ Fails start misreading rest := by
  rw [statements, collect_error_iff statementRound_progressive]
  simp only [statementRound_error_iff]
  constructor
  · rintro ⟨result, between, leads, fails⟩
    exact ⟨result, _, ⟨between, leads, rfl⟩, fails⟩
  · rintro ⟨result, _, ⟨between, leads, rfl⟩, fails⟩
    exact ⟨result, between, leads, fails⟩

/-- The statements before the start of another one are a program of their own, and are read
whatever comes behind it. -/
theorem reaches_split (reaches : Reaches tokens result start) :
    ∃ front, tokens = front ++ start ∧ statements front = .ok (result, none) [] ∧
      ∀ other, other.head? = start.head? → Reaches (front ++ other) result other := by
  obtain ⟨between, leads, rfl⟩ := reaches
  obtain ⟨front, split, program, read, distinct⟩ := program_of_leads leads
  refine ⟨front, split, statements_ok_iff.mpr ⟨rfl, program, read, distinct⟩, ?_⟩
  intro other same
  obtain ⟨gap, used, blank, sequence, rfl⟩ := program
  have solid : startsWith .newline other = false :=
    (startsWith_congr same).trans startsWith_afterNewlines
  have start : afterNewlines (gap ++ used ++ other) = afterNewlines (used ++ other) := by
    rw [List.append_assoc, afterNewlines_gap blank]
  obtain ⟨next, leadsNext, ends⟩ :=
    leads_of_sequence sequence (numbersRead_append.mp read).2 distinct start
  rw [afterNewlines_eq_self solid] at ends
  exact ⟨next, leadsNext, ends⟩

/-! ## What comes behind a refused token -/

theorem startsDefinition_eq (tokens : List Token) :
    startsDefinition tokens =
      (startsWith .identifier tokens && startsWith .equals tokens.tail) := by
  cases tokens with
  | nil => rfl
  | cons first others =>
      cases others with
      | nil => simp [startsDefinition, startsWith]
      | cons second others => rfl

theorem ruleHead_single {name : Token} (names : name.kind = .identifier) :
    ruleHead [name] = .error (.fault .missingComparison none) [] := by
  obtain ⟨kind, text, position⟩ := name
  cases names
  rfl

/-- A name is never refused at the start of a rule. -/
theorem not_identifier_of_refused {cause : Fault}
    (refused : ruleHead tokens = .error (.fault cause tokens.head?) tokens) :
    startsWith .identifier tokens = false := by
  cases starts : startsWith .identifier tokens with
  | false => rfl
  | true =>
      obtain ⟨name, others, rfl, names⟩ := startsWith_iff.mp starts
      -- The name alone would be refused at the same place, but it is read.
      obtain ⟨used, split, stays⟩ := looksAhead_ruleHead.sees (name :: others)
      rw [refused] at split stays
      obtain rfl : used = [] := List.append_left_eq_self.mp split.symm
      have alone := stays [name] rfl
      rw [List.nil_append, ruleHead_single names] at alone
      cases alone

theorem startsRule_congr {used other : List Token} (same : other.head? = rest.head?)
    (named : used = [] → startsWith .identifier rest = false) :
    startsRule (used ++ other) = startsRule (used ++ rest) := by
  have ahead := head?_append_congr used same
  have empty : (used ++ other).isEmpty = (used ++ rest).isEmpty := by
    have isEmpty_eq (tokens : List Token) : tokens.isEmpty = tokens.head?.isNone := by
      cases tokens <;> rfl
    rw [isEmpty_eq, isEmpty_eq, ahead]
  have defines : startsDefinition (used ++ other) = startsDefinition (used ++ rest) := by
    rw [startsDefinition_eq, startsDefinition_eq, startsWith_congr ahead]
    cases used with
    | nil => rw [List.nil_append, named rfl, Bool.false_and, Bool.false_and]
    | cons token used =>
        exact congrArg _ (startsWith_congr (head?_append_congr used same))
  rw [startsRule, startsRule, empty, defines, startsWith_congr ahead]

/-- The head of a rule is refused whatever comes behind the refused token. -/
theorem Refuses.lookahead {cause : Fault} (refuses : Refuses start cause rest) :
    ∃ used, start = used ++ rest ∧
      ∀ other, other.head? = rest.head? → Refuses (used ++ other) cause other := by
  obtain ⟨starts, refused⟩ := refuses
  obtain ⟨used, split, stays⟩ := looksAhead_ruleHead.sees start
  rw [refused] at split stays
  obtain rfl : start = used ++ rest := split
  refine ⟨used, rfl, fun other same => ⟨?_, ?_⟩⟩
  · rw [startsRule_congr same]
    · exact starts
    · rintro rfl
      exact not_identifier_of_refused refused
  · rw [stays other same, same]
    rfl

end Reading

namespace Reader

open Reading

variable {file : Path} {source otherSource : Option String} {tokens rest start other : List Token}
  {result : List Statement} {misreading : Misreading}

/-! ## Puzzles that are cut short -/

/-- A notice names the line of the token that is refused, or of the last one. -/
theorem stopNotice_congr {cause : Fault} {used : List Token} (same : other.head? = rest.head?) :
    (ofTokens file otherSource (used ++ other)).stopNotice (cause, other.head?) =
      (ofTokens file source (used ++ rest)).stopNotice (cause, rest.head?) := by
  rw [stopNotice, stopNotice, siteOf, siteOf, same]
  cases refused : rest.head? with
  | some token => rfl
  | none =>
      rw [refused] at same
      rw [List.head?_eq_none_iff.mp refused, List.head?_eq_none_iff.mp same]
      rfl

/-- A puzzle ends with the statements before a rule whose head is refused. -/
theorem puzzle_of_refused {cause : Fault} (reaches : Reaches tokens result start)
    (refuses : Refuses start cause rest) :
    (ofTokens file source tokens).puzzle.1 = .ok (Puzzle.ofStatements (some file) result,
      [(ofTokens file source tokens).stopNotice (cause, rest.head?)]) := by
  have read : statements tokens = .ok (result, some (cause, rest.head?)) rest :=
    statements_stopped_iff.mpr ⟨start, reaches, refuses, rfl⟩
  exact puzzle_ok_iff.mpr ⟨result, _, rest, read, rfl, rfl⟩

/-- A puzzle is read with a notice exactly where the head of a rule is refused. -/
theorem puzzle_cut_short_iff {puzzle : Puzzle} {notices : List Notice} :
    (ofTokens file source tokens).puzzle.1 = .ok (puzzle, notices) ∧ notices ≠ [] ↔
      ∃ result start cause rest, Reaches tokens result start ∧ Refuses start cause rest ∧
        puzzle = Puzzle.ofStatements (some file) result ∧
        notices = [(ofTokens file source tokens).stopNotice (cause, rest.head?)] := by
  constructor
  · rintro ⟨returned, noticed⟩
    obtain ⟨result, stop, rest, read, rfl, rfl⟩ := puzzle_ok_iff.mp returned
    cases stop with
    | none => exact absurd rfl noticed
    | some stop =>
        obtain ⟨cause, token⟩ := stop
        obtain ⟨start, reaches, refuses, same⟩ := statements_stopped_iff.mp read
        obtain rfl : token = rest.head? := same
        exact ⟨result, start, cause, rest, reaches, refuses, rfl, rfl⟩
  · rintro ⟨result, start, cause, rest, reaches, refuses, rfl, rfl⟩
    exact ⟨puzzle_of_refused reaches refuses, List.cons_ne_nil _ _⟩

/-- The tokens before a statement are read whole. -/
theorem readsWhole_before (reaches : Reaches tokens result start) :
    (ofTokens file source (tokens.take (tokens.length - start.length))).ReadsWhole
      (Puzzle.ofStatements (some file) result) := by
  obtain ⟨front, rfl, whole, _⟩ := reaches_split reaches
  have before : (front ++ start).take ((front ++ start).length - start.length) = front := by
    rw [List.length_append, Nat.add_sub_cancel, List.take_left]
  rw [before]
  exact readsWhole_iff.mpr ⟨result, whole, rfl⟩

theorem exists_append_of_take {α : Type} {used rest other : List α}
    (same : other.take (used.length + 1) = (used ++ rest).take (used.length + 1)) :
    ∃ more, other = used ++ more ∧ more.head? = rest.head? := by
  induction used generalizing other with
  | nil =>
      refine ⟨other, rfl, ?_⟩
      have first := congrArg List.head? same
      simpa [List.head?_take] using first
  | cons element used ih =>
      cases other with
      | nil => cases same
      | cons first other =>
          obtain ⟨rfl, others⟩ := List.cons.inj same
          obtain ⟨more, rfl, ahead⟩ := ih others
          exact ⟨more, rfl, ahead⟩

/-- Nothing behind the refused token makes a difference to what is read, or to the notice. -/
theorem cut_short_alike {cause : Fault} (reaches : Reaches tokens result start)
    (refuses : Refuses start cause rest)
    (agree : other.take (tokens.length - rest.length + 1) =
      tokens.take (tokens.length - rest.length + 1)) :
    (ofTokens file otherSource other).puzzle.1 = (ofTokens file source tokens).puzzle.1 := by
  obtain ⟨front, rfl, _, reachesAlso⟩ := reaches_split reaches
  obtain ⟨used, rfl, refusesAlso⟩ := refuses.lookahead
  have consumed : (front ++ (used ++ rest)).length - rest.length = (front ++ used).length := by
    simp only [List.length_append]
    omega
  rw [consumed, ← List.append_assoc] at agree
  obtain ⟨more, rfl, ahead⟩ := exists_append_of_take agree
  have reachesMore := reachesAlso (used ++ more) (head?_append_congr used ahead)
  rw [List.append_assoc, puzzle_of_refused reaches refuses,
    puzzle_of_refused reachesMore (refusesAlso more ahead), ← List.append_assoc,
    ← List.append_assoc, stopNotice_congr ahead]

/-- A puzzle is read with a notice exactly when the head of a rule is refused.  It then consists
of the statements before the rule, which are read whole when nothing follows them, and it is the
same whatever follows the refused token.  The reading fails exactly with the fault of a definition,
of a declaration or of a rule behind its arrow, or at a number that cannot be read. -/
theorem cut_short_at_refused_head (file : Path) (source : Option String) (tokens : List Token) :
    (∀ puzzle notices,
      (ofTokens file source tokens).puzzle.1 = .ok (puzzle, notices) ∧ notices ≠ [] ↔
        ∃ result start cause rest, Reaches tokens result start ∧ Refuses start cause rest ∧
          puzzle = Puzzle.ofStatements (some file) result ∧
          notices = [(ofTokens file source tokens).stopNotice (cause, rest.head?)]) ∧
    (∀ result start cause rest, Reaches tokens result start → Refuses start cause rest →
      (∀ otherSource,
        (ofTokens file otherSource (tokens.take (tokens.length - start.length))).ReadsWhole
          (Puzzle.ofStatements (some file) result)) ∧
      ∀ otherSource other, other.take (tokens.length - rest.length + 1) =
          tokens.take (tokens.length - rest.length + 1) →
        (ofTokens file otherSource other).puzzle.1 = (ofTokens file source tokens).puzzle.1) ∧
    ∀ failure, (ofTokens file source tokens).puzzle.1 = .error failure ↔
      ∃ result start misreading rest, Reaches tokens result start ∧
        Fails start misreading rest ∧
        failure = (ofTokens file source tokens).placed misreading := by
  refine ⟨fun puzzle notices => puzzle_cut_short_iff, ?_, fun failure => ?_⟩
  · intro result start cause rest reaches refuses
    exact ⟨fun _ => readsWhole_before reaches, fun _ _ => cut_short_alike reaches refuses⟩
  · rw [puzzle_error_iff]
    simp only [statements_error_iff]
    constructor
    · rintro ⟨misreading, rest, ⟨result, start, reaches, fails⟩, rfl⟩
      exact ⟨result, start, misreading, rest, reaches, fails, rfl⟩
    · rintro ⟨result, start, misreading, rest, reaches, fails, rfl⟩
      exact ⟨misreading, rest, ⟨result, start, reaches, fails⟩, rfl⟩

/-- A declaration, a line `hello world`, and another declaration. -/
def strayTokens : List Token :=
  [⟨.var, "var", ⟨1, 1⟩⟩, ⟨.identifier, "X", ⟨1, 5⟩⟩, ⟨.colon, ":", ⟨1, 7⟩⟩,
    ⟨.identifier, "Y", ⟨1, 9⟩⟩, .newline 1 10, ⟨.identifier, "hello", ⟨2, 1⟩⟩,
    ⟨.identifier, "world", ⟨2, 7⟩⟩, .newline 2 12, ⟨.var, "var", ⟨3, 1⟩⟩,
    ⟨.identifier, "Z", ⟨3, 5⟩⟩, ⟨.colon, ":", ⟨3, 7⟩⟩, ⟨.identifier, "Y", ⟨3, 9⟩⟩, .newline 3 10]

/-- Only the declaration before `hello world` is read, whatever follows `world`. -/
theorem cut_short_strayTokens :
    Reaches strayTokens [.declaration ⟨"X", "Y", none, ⟨1, 1⟩⟩] (strayTokens.drop 5) ∧
      Refuses (strayTokens.drop 5) .missingComparison (strayTokens.drop 6) ∧
      ∀ other, other.take 7 = strayTokens.take 7 →
        (ofTokens (.ofString "stray.grid") none other).puzzle.1 =
          .ok (⟨some (.ofString "stray.grid"), [], [], [⟨"X", "Y", none, ⟨1, 1⟩⟩], []⟩,
            [.stopped (.ofString "stray.grid") 2 "Expected '=' or '!='"]) := by
  have reaches : Reaches strayTokens [.declaration ⟨"X", "Y", none, ⟨1, 1⟩⟩]
      (strayTokens.drop 5) := ⟨strayTokens.drop 5, .again rfl .here, rfl⟩
  have refuses : Refuses (strayTokens.drop 5) .missingComparison (strayTokens.drop 6) :=
    ⟨rfl, rfl⟩
  refine ⟨reaches, refuses, fun other agree => ?_⟩
  obtain ⟨_, same, _⟩ := cut_short_at_refused_head (.ofString "stray.grid") none strayTokens
  exact ((same _ _ _ _ reaches refuses).2 none other agree).trans rfl

end Reader

end LogicPuzzle
