import LogicPuzzle.Proofs.Building
import LogicPuzzle.Proofs.Demand
import LogicPuzzle.Proofs.Numerals
import LogicPuzzle.Proofs.PuzzleReading

/-!
# Puzzles read from texts

A puzzle can hold more than a text can say.  The numbers of a text are runs of
digits, and of no more than a numeral may have, so no size and no index of a
puzzle that was read from a text is negative or too long to be written; and
reading refuses a domain that repeats a label.
-/

namespace LogicPuzzle

/-! ## Numbers of a text -/

namespace Numeral

theorem mem_of_mem_trim {c : Char} {text : List Char} (member : c ∈ trim text) : c ∈ text := by
  have inFront := List.dropWhile_subset _ (List.mem_reverse.mp member)
  exact List.dropWhile_subset _ (List.mem_reverse.mp inFront)

theorem nonneg_of_readNat? {text : List Char} {n : Int}
    (read : (do let value ← readNat? text; pure (value : Int)) = some n) : 0 ≤ n := by
  obtain ⟨value, _, same⟩ := Option.bind_eq_some_iff.mp read
  rw [← Option.some.inj same]
  exact Int.natCast_nonneg value

/-- A numeral without a minus sign is not negative. -/
theorem nonneg_of_read? {text : List Char} {n : Int} (unsigned : '-' ∉ text)
    (read : read? text = some n) : 0 ≤ n := by
  rw [read?] at read
  split at read
  · next rest signed =>
      exact absurd (mem_of_mem_trim (signed ▸ List.mem_cons_self)) unsigned
  · obtain ⟨value, unsignedRead, rfl⟩ := Option.map_eq_some_iff.mp read
    exact nonneg_of_readNat? unsignedRead
  · obtain ⟨value, unsignedRead, rfl⟩ := Option.map_eq_some_iff.mp read
    exact nonneg_of_readNat? unsignedRead

end Numeral

def NumbersWritable (tokens : List Token) : Prop :=
  ∀ token ∈ tokens, token.kind = .number → isWritableNumber token.value = true

theorem numbersWritable_append {first second : List Token} :
    NumbersWritable (first ++ second) ↔ NumbersWritable first ∧ NumbersWritable second :=
  List.forall_mem_append

theorem numbersWritable_cons_of_ne {token : Token} {tokens : List Token}
    (other : token.kind ≠ .number) :
    NumbersWritable (token :: tokens) ↔ NumbersWritable tokens := by
  rw [NumbersWritable, List.forall_mem_cons]
  exact and_iff_right fun number => absurd number other

theorem Token.isWritableNumber_value {token : Token}
    (digits : ∀ c ∈ token.text.toList, Text.isDigit c = true) :
    isWritableNumber token.value = true := by
  have unsigned : '-' ∉ token.text.toList := fun member => absurd (digits '-' member) (by decide)
  rw [value]
  cases read : Numeral.read? token.text.toList with
  | none => rfl
  | some n =>
      exact isWritableNumber_iff.mpr
        ⟨Numeral.nonneg_of_read? unsigned read, Numeral.not_tooLong_of_read? read⟩

/-! ## Tokens of a text -/

theorem markKind?_ne_number (c : Char) : markKind? c ≠ some .number := by
  unfold markKind?
  split <;> nofun

theorem Kind.ofWord_ne_number (word : List Char) : Kind.ofWord word ≠ .number := by
  unfold Kind.ofWord
  split
  · nofun
  · split <;> nofun

namespace Piece

/-- A number is a run of digits. -/
theorem digits_of_number {c : Char} {cs : List Char} {piece : Piece}
    (found : startingWith? c cs = some piece) (number : piece.kind = some .number) :
    ∀ d ∈ piece.text, Text.isDigit d = true := by
  unfold startingWith? at found
  split at found
  · cases found
    cases number
  · split at found
    · next kind marked =>
        cases found
        cases number
        exact absurd marked (markKind?_ne_number c)
    · split at found
      · cases found
        exact absurd (Option.some.inj number) (Kind.ofWord_ne_number _)
      · split at found
        · next digit =>
            cases found
            rintro d (_ | ⟨_, member⟩)
            · exact digit
            · exact List.mem_takeWhile_imp member
        · cases found

theorem digits_of_first? {cs : List Char} {piece : Piece} (found : first? cs = some piece)
    (number : piece.kind = some .number) : ∀ d ∈ piece.text, Text.isDigit d = true := by
  unfold first? at found
  split at found
  · cases found
  · cases found
    cases number
  · cases found
    cases number
  · exact digits_of_number found number

end Piece

theorem Words.digits_of_mem_read {line column : Nat} {cs : List Char} {token : Token}
    (member : token ∈ (read line column cs).tokens) (number : token.kind = .number) :
    token.text.toList ≠ [] ∧ ∀ c ∈ token.text.toList, Text.isDigit c = true := by
  fun_induction read line column cs with
  | case1 => cases member
  | case2 _ _ _ _ _ _ ih => exact ih member
  | case3 column cs piece found later kind same ih =>
      rcases List.mem_cons.mp member with rfl | further
      · rw [String.toList_ofList]
        refine ⟨(Piece.first?_text_append_rest found).2, ?_⟩
        exact Piece.digits_of_first? found (same.trans (congrArg some number))
      · exact ih further

/-- A token that a scan can find: a word of a line, or one that stands for layout. -/
inductive Token.IsFound : Token → Prop where
  | word {line column : Nat} {cs : List Char} {token : Token}
      (member : token ∈ (Words.read line column cs).tokens) : IsFound token
  | newline (line column : Nat) : IsFound (newline line column)
  | indent (line : Nat) : IsFound (indent line)
  | dedent (line : Nat) : IsFound (dedent line)

/-- A number of a text is a run of digits. -/
theorem Token.IsFound.digits {token : Token} (found : token.IsFound)
    (number : token.kind = .number) :
    token.text.toList ≠ [] ∧ ∀ c ∈ token.text.toList, Text.isDigit c = true := by
  cases found with
  | word member => exact Words.digits_of_mem_read member number
  | _ => cases number

namespace Scan

variable {levels : List Nat} {line column last : Nat} {here next : List Char} {token : Token}

theorem isFound_nextLine (member : token ∈ (Words.read line column here).tokens ++
    Token.newline line last :: (lineShift (line + 1) levels next).tokens) : token.IsFound := by
  rcases List.mem_append.mp member with word | layout
  · exact .word word
  · rcases List.mem_cons.mp layout with rfl | shift
    · exact .newline line last
    · rcases mem_lineShift shift with rfl | rfl
      · exact .indent (line + 1)
      · exact .dedent (line + 1)

theorem isFound_run {below : List (List Char)}
    (member : token ∈ (run levels line column here below).tokens) : token.IsFound := by
  fun_induction run levels line column here below with
  | case1 => exact .word member
  | case2 => exact .word member
  | case3 => exact isFound_nextLine member
  | case4 _ _ _ _ _ _ _ _ _ _ _ _ _ _ ih =>
      rcases List.mem_append.mp member with here | further
      · exact isFound_nextLine here
      · exact ih further

theorem isFound_ending (member : token ∈ ending levels line column) : token.IsFound := by
  rcases List.mem_append.mp member with dedent | newline
  · obtain ⟨_, _, rfl⟩ := List.mem_map.mp dedent
    exact .dedent line
  · rw [List.mem_singleton.mp newline]
    exact .newline line column

end Scan

theorem isFound_of_tokenize {file : Path} {text : String} {tokens : List Token}
    (scanned : tokenize file text = .ok tokens) : ∀ token ∈ tokens, token.IsFound := by
  rw [tokenize, Scanner.tokenize] at scanned
  split at scanned
  · cases scanned
  · cases scanned
    exact List.forall_mem_append.mpr
      ⟨fun token => Scan.isFound_run, fun token => Scan.isFound_ending⟩

/-- The numbers of a text can be written. -/
theorem numbersWritable_of_tokenize {file : Path} {text : String} {tokens : List Token}
    (scanned : tokenize file text = .ok tokens) : NumbersWritable tokens := by
  intro token member number
  exact Token.isWritableNumber_value ((isFound_of_tokenize scanned token member).digits number).2

/-! ## Statements of a text -/

def Statement.Spellable : Statement → Prop
  | .definition _ => True
  | .declaration found => 0 ≤ found.effectiveSize
  | .rule found => found.Spellable

theorem NumbersWritable.mono {used tokens : List Token} (writable : NumbersWritable tokens)
    (inside : used ⊆ tokens) : NumbersWritable used :=
  fun token member => writable token (inside member)

section Spelled

open Grammar Reading

variable {used tokens rest : List Token}

theorem index_writable_of_spelled {selectors : List Selector}
    (spelled : Sequence Selector.SpelledBy selectors used) (writable : NumbersWritable used) :
    ∀ n, .index n ∈ selectors → isWritableNumber n = true := by
  induction spelled with
  | nil => exact nofun
  | cons first _ ih =>
      obtain ⟨firstWritable, othersWritable⟩ := numbersWritable_append.mp writable
      rintro n (_ | ⟨_, member⟩)
      · cases first with
        | index _ counts _ => exact firstWritable _ (by simp) counts
      · exact ih othersWritable n member

theorem Reference.SpelledBy.spellable {reference : Reference}
    (spelled : reference.SpelledBy used) (writable : NumbersWritable used) :
    reference.Spellable := by
  cases spelled with
  | @intro name selectors used names selects =>
      rw [numbersWritable_cons_of_ne (by simp [names])] at writable
      intro n last
      obtain ⟨selector, member, index⟩ := List.mem_filterMap.mp (List.mem_of_getLast? last)
      cases selector with
      | index =>
          cases index
          exact index_writable_of_spelled selects writable n member
      | field => cases index

theorem Comparison.SpelledBy.spellable {comparison : Comparison}
    (spelled : comparison.SpelledBy used) (writable : NumbersWritable used) :
    comparison.left.Spellable ∧ comparison.right.Spellable := by
  cases spelled with
  | intro left compares right =>
      have other : ∀ negated : Bool, (if negated then Kind.differs else .equals) ≠ .number := by
        decide
      rw [numbersWritable_append, numbersWritable_cons_of_ne (compares ▸ other _)] at writable
      exact ⟨left.spellable writable.1, right.spellable writable.2⟩

theorem spellable_of_separated {separator : List Token → Prop} {comparisons : List Comparison}
    (spelled : Separated separator Comparison.SpelledBy comparisons used)
    (writable : NumbersWritable used) :
    ∀ comparison ∈ comparisons,
      comparison.left.Spellable ∧ comparison.right.Spellable := by
  induction spelled with
  | one only => exact List.forall_mem_singleton.mpr (only.spellable writable)
  | cons first _ _ ih =>
      rw [numbersWritable_append, numbersWritable_append] at writable
      exact List.forall_mem_cons.mpr
        ⟨first.spellable writable.1, ih writable.2.2⟩

theorem size_nonneg_of_spelled {size : Option Int} (sized : Grammar.Size size used)
    (writable : NumbersWritable used) : 0 ≤ size.getD 1 := by
  cases sized with
  | absent => exact Int.one_nonneg
  | given _ counts _ => exact (isWritableNumber_iff.mp (writable _ (by simp) counts)).1

theorem Statement.SpelledBy.spellable {statement : Statement} (spelled : statement.SpelledBy used)
    (writable : NumbersWritable used) : statement.Spellable := by
  cases spelled with
  | domain => trivial
  | schema => trivial
  | @array keyword name colon type size used lines _ _ _ _ sized _ =>
      have inside : used ⊆ keyword :: name :: colon :: type :: (used ++ lines) := by
        intro token member
        simp [member]
      exact size_nonneg_of_spelled sized (writable.mono inside)
  | plain spelled _ _ =>
      exact List.forall_mem_singleton.mpr
        (spelled.spellable (numbersWritable_append.mp writable).1)
  | @block guard consequents arrow _ _ spelled _ _ follows =>
      obtain ⟨guardWritable, blockWritable⟩ := numbersWritable_append.mp writable
      cases follows with
      | @intro indent dedent lines before used after _ _ _ others _ _ =>
          have inside :
              used ⊆ arrow :: (lines ++ indent :: (before ++ (used ++ (after ++ [dedent])))) := by
            intro token member
            simp [member]
          exact List.forall_mem_cons.mpr ⟨spelled.spellable guardWritable,
            spellable_of_separated others (blockWritable.mono inside)⟩

/-- Every statement that was read is spelled by some of the tokens, however reading ended. -/
theorem spelled_of_repeats {statements : List Statement} {stop : Option Stop}
    (repeats : Repeats statementRound tokens statements stop rest) :
    ∀ statement ∈ statements, statement.LabelsDistinct ∧
      ∃ used, statement.SpelledBy used ∧ used ⊆ tokens := by
  induction repeats with
  | done => exact nofun
  | @again tokens between rest statement statements stop more _ ih =>
      obtain ⟨gap, used, after, _, rfl, spelled, _, distinct, rfl⟩ :=
        spelled_of_statementRound more
      obtain ⟨between, _, split⟩ := exists_gap_leftOver statement after
      rintro other (_ | ⟨_, member⟩)
      · exact ⟨distinct, used, spelled, by
          intro token inside
          simp [inside]⟩
      · obtain ⟨otherDistinct, otherUsed, otherSpelled, inside⟩ := ih other member
        refine ⟨otherDistinct, otherUsed, otherSpelled, ?_⟩
        intro token inOther
        rw [split]
        simp [inside inOther]

end Spelled

/-! ## Puzzles of a text -/

/-- What a text cannot say otherwise: labels are distinct, no size is negative, and indices can be
written. -/
structure Puzzle.Textual (puzzle : Puzzle) : Prop where
  labels_distinct : ∀ domain ∈ puzzle.domains, domain.labels.Nodup
  sizes_nonneg : ∀ declaration ∈ puzzle.declarations, 0 ≤ declaration.effectiveSize
  references_spellable : ∀ rule ∈ puzzle.rules, rule.Spellable

theorem Puzzle.textual_ofStatements {file : Option Path} {statements : List Statement}
    (distinct : ∀ statement ∈ statements, statement.LabelsDistinct)
    (spellable : ∀ statement ∈ statements, statement.Spellable) :
    (Puzzle.ofStatements file statements).Textual where
  labels_distinct := by
    intro domain member
    obtain ⟨statement, inStatements, defined⟩ := List.mem_filterMap.mp member
    exact distinct statement inStatements domain defined
  sizes_nonneg := by
    intro declaration member
    obtain ⟨statement, inStatements, declared⟩ := List.mem_filterMap.mp member
    cases statement with
    | declaration found =>
        cases declared
        exact spellable _ inStatements
    | definition => cases declared
    | rule => cases declared
  references_spellable := by
    intro rule member
    obtain ⟨statement, inStatements, stated⟩ := List.mem_filterMap.mp member
    cases statement with
    | rule found =>
        cases stated
        exact spellable _ inStatements
    | definition => cases stated
    | declaration => cases stated

/-- A text is read without a notice exactly when its tokens spell a program whose numbers can be
read and whose domains do not repeat labels. -/
theorem readPuzzle_ok_iff {file : Path} {text : String} {puzzle : Puzzle} :
    readPuzzle file text = .ok (puzzle, []) ↔
      ∃ tokens statements, tokenize file text = .ok tokens ∧ Grammar.Program statements tokens ∧
        NumbersRead tokens ∧ (∀ statement ∈ statements, statement.LabelsDistinct) ∧
        puzzle = Puzzle.ofStatements (some file) statements := by
  constructor
  · intro read
    obtain ⟨tokens, scanned, read⟩ := ok_of_bind read
    obtain ⟨statements, stop, rest, collected, rfl, silent⟩ := Reader.puzzle_ok_iff.mp read
    cases stop with
    | some stop => cases silent
    | none =>
        obtain ⟨_, program, numbers, distinct⟩ := Reading.statements_ok_iff.mp collected
        exact ⟨tokens, statements, scanned, program, numbers, distinct, rfl⟩
  · rintro ⟨tokens, statements, scanned, program, numbers, distinct, rfl⟩
    have whole : (Reader.ofTokens file (some text) tokens).ReadsWhole
        (Puzzle.ofStatements (some file) statements) :=
      Reader.readsWhole_iff.mpr
        ⟨statements, Reading.statements_ok_iff.mpr ⟨rfl, program, numbers, distinct⟩, rfl⟩
    rw [readPuzzle, scanned]
    exact congrArg Prod.fst whole

/-- A puzzle that was read from a text, to its end or up to a fault, is textual. -/
theorem textual_of_readPuzzle {file : Path} {text : String} {puzzle : Puzzle}
    {notices : List Notice} (read : readPuzzle file text = .ok (puzzle, notices)) :
    puzzle.Textual := by
  obtain ⟨tokens, scanned, read⟩ := ok_of_bind read
  obtain ⟨statements, stop, rest, collected, rfl, _⟩ := Reader.puzzle_ok_iff.mp read
  have repeats := (Reading.collect_ok_iff Reading.statementRound_progressive).mp collected
  have spelled := spelled_of_repeats repeats
  apply Puzzle.textual_ofStatements
  · intro statement member
    exact (spelled statement member).1
  · intro statement member
    obtain ⟨_, used, saysUsed, inside⟩ := spelled statement member
    exact saysUsed.spellable ((numbersWritable_of_tokenize scanned).mono inside)

end LogicPuzzle
