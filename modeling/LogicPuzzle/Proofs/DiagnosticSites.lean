import LogicPuzzle.Proofs.AlikeTexts
import LogicPuzzle.Proofs.JoinedScans
import LogicPuzzle.Proofs.Pieces

/-!
# Sites of diagnostics

Every token of a text stands at a character of the text or at the end of one of
its lines, and so does the place at which a scan fails.  A reading blames no
place but those of the tokens it is given.  So the site of every diagnostic is
found in the text, and its snippet is the line that it names.
-/

namespace LogicPuzzle

/-! ## Places in lines -/

/-- A position in some lines: one of their characters stands there, or one of them ends there. -/
def Position.IsIn (lines : List (List Char)) (position : Position) : Prop :=
  ∃ (above : Nat) (line : List Char), lines[above]? = some line ∧ position.line = above + 1 ∧
    1 ≤ position.column ∧ position.column ≤ line.length + 1

/-- A site that is found in a text and shows the line it names, without the carriage returns at
its end. -/
def Site.PointsInto (text : String) (site : Site) : Prop :=
  ∃ (above : Nat) (line : List Char), (Text.lines text.toList)[above]? = some line ∧
    site.position.line = above + 1 ∧ 1 ≤ site.position.column ∧
    site.position.column ≤ line.length + 1 ∧
    site.snippet = some (String.ofList (Text.trimReturns line))

theorem Position.IsIn.pointsInto {text : String} {position : Position}
    (inside : position.IsIn (Text.lines text.toList)) (file : Path) :
    (⟨file, position, Scanner.lineOf? text.toList position.line⟩ : Site).PointsInto text := by
  obtain ⟨above, line, found, named, columnPos, columnLe⟩ := inside
  refine ⟨above, line, found, named, columnPos, columnLe, ?_⟩
  have place : (position.line - 1).toNat = above := by omega
  change Scanner.lineOf? _ _ = _
  rw [Scanner.lineOf?, if_pos (by omega), place, found]
  rfl

theorem Position.IsIn.line_bounds {lines : List (List Char)} {position : Position}
    (inside : position.IsIn lines) : 1 ≤ position.line ∧ position.line ≤ lines.length := by
  obtain ⟨above, line, found, named, _⟩ := inside
  have fewer := (List.getElem?_eq_some_iff.mp found).1
  omega

/-! ## Places of tokens -/

structure Words.Spans (words : Words) (column length : Nat) : Prop where
  column_le : column ≤ words.column
  unread : words.column + words.rest.length = column + length
  tokens : ∀ token ∈ words.tokens,
    column ≤ token.position.column ∧ token.position.column ≤ column + length

theorem Words.spans_read (line column : Nat) (cs : List Char) :
    (read line column cs).Spans column cs.length := by
  fun_induction read line column cs with
  | case1 => exact ⟨Nat.le_refl _, rfl, List.forall_mem_nil _⟩
  | case2 column cs piece found later gap ih =>
      have length := congrArg List.length (Piece.first?_text_append_rest found).1
      rw [List.length_append] at length
      obtain ⟨columnLe, unread, tokens⟩ := ih
      refine ⟨?_, ?_, fun token member => ?_⟩
      · exact (Nat.le_add_right _ _).trans columnLe
      · exact unread.trans (by omega)
      · have bounds := tokens token member
        omega
  | case3 column cs piece found later kind word ih =>
      have length := congrArg List.length (Piece.first?_text_append_rest found).1
      rw [List.length_append] at length
      obtain ⟨columnLe, unread, tokens⟩ := ih
      refine ⟨?_, ?_, List.forall_mem_cons.mpr ⟨⟨Int.le_refl _, ?_⟩, fun token member => ?_⟩⟩
      · exact (Nat.le_add_right _ _).trans columnLe
      · exact unread.trans (by omega)
      · exact Int.ofNat_le.mpr (Nat.le_add_right _ _)
      · have bounds := tokens token member
        omega

namespace Scan

variable {lines : List (List Char)} {levels : List Nat} {line column : Nat}
  {here next : List Char} {below : List (List Char)}

/-- A scan stands in some lines: behind a column of one of them there are certain characters, and
below it certain lines. -/
def Stands (lines : List (List Char)) (line column : Nat) (here : List Char)
    (below : List (List Char)) : Prop :=
  ∃ above whole, lines = above ++ whole :: below ∧ line = above.length + 1 ∧ 1 ≤ column ∧
    column + here.length = whole.length + 1

/-- The places of the line in which a scan stands. -/
theorem Stands.isIn (stands : Stands lines line column here below) {position : Position}
    (named : position.line = line) (pos : 1 ≤ position.column)
    (le : position.column ≤ column + here.length) : position.IsIn lines := by
  obtain ⟨above, whole, rfl, rfl, _, length⟩ := stands
  refine ⟨above.length, whole, ?_, named, pos, by omega⟩
  rw [List.getElem?_append_right (Nat.le_refl _), Nat.sub_self, List.getElem?_cons_zero]

theorem Stands.column_pos (stands : Stands lines line column here below) : 1 ≤ column := by
  obtain ⟨_, _, _, _, pos, _⟩ := stands
  exact pos

theorem Stands.isIn_start (stands : Stands lines line column here below) :
    (⟨line, 1⟩ : Position).IsIn lines := by
  have pos := stands.column_pos
  exact stands.isIn rfl (Int.le_refl 1) (by change (1 : Int) ≤ _; omega)

theorem Stands.isIn_words (stands : Stands lines line column here below) :
    ∀ token ∈ (Words.read line column here).tokens, token.position.IsIn lines := by
  intro token member
  have pos := stands.column_pos
  obtain ⟨lower, upper⟩ := (Words.spans_read line column here).tokens token member
  exact stands.isIn (Words.line_read _ _ _ token member) (by omega) upper

/-- The place behind the last word. -/
theorem Stands.isIn_behind (stands : Stands lines line column here below) :
    (⟨line, (Words.read line column here).column⟩ : Position).IsIn lines := by
  have pos := stands.column_pos
  obtain ⟨lower, unread, _⟩ := Words.spans_read line column here
  refine stands.isIn rfl ?_ ?_
  · exact Int.ofNat_le.mpr (pos.trans lower)
  · exact Int.ofNat_le.mpr ((Nat.le_add_right _ _).trans unread.le)

/-- A scan goes on behind the indentation of the next line. -/
theorem Stands.following (stands : Stands lines line column here (next :: below)) :
    Stands lines (line + 1) (1 + (next.takeWhile isIndentation).length)
      (next.dropWhile isIndentation) below := by
  obtain ⟨above, whole, rfl, rfl, _, _⟩ := stands
  refine ⟨above ++ [whole], next, ?_, ?_, Nat.le_add_right _ _, ?_⟩
  · rw [List.append_assoc, List.singleton_append]
  · rw [List.length_append, List.length_singleton]
  · have width := congrArg List.length
      (List.takeWhile_append_dropWhile (p := isIndentation) (l := next))
    rw [List.length_append] at width
    omega

/-- What a scan finds is in some lines, and so is the place it gets to. -/
structure Finds (lines : List (List Char)) (scan : Scan) : Prop where
  tokens : ∀ token ∈ scan.tokens, token.position.IsIn lines
  start : (⟨scan.line, 1⟩ : Position).IsIn lines
  place : (⟨scan.line, scan.column⟩ : Position).IsIn lines

theorem Finds.behind {scan : Scan} (finds : Finds lines scan) {tokens : List Token}
    (inside : ∀ token ∈ tokens, token.position.IsIn lines) :
    Finds lines { scan with tokens := tokens ++ scan.tokens } :=
  ⟨List.forall_mem_append.mpr ⟨inside, finds.tokens⟩, finds.start, finds.place⟩

theorem isIn_lineShift (start : (⟨line, 1⟩ : Position).IsIn lines) :
    ∀ token ∈ (lineShift line levels next).tokens, token.position.IsIn lines := by
  intro token member
  rcases mem_lineShift member with rfl | rfl <;> exact start

/-- The indentation of a line fails behind its blanks, or the line is scanned. -/
theorem entered_finds (stands : Stands lines line (1 + (next.takeWhile isIndentation).length)
      (next.dropWhile isIndentation) below)
    (finds : ∀ levels, Finds lines (run levels line (1 + (next.takeWhile isIndentation).length)
      (next.dropWhile isIndentation) below)) :
    Finds lines (entered levels line next below) := by
  rw [entered]
  split
  · refine ⟨isIn_lineShift stands.isIn_start, stands.isIn_start, stands.isIn rfl ?_ ?_⟩
    · exact Int.ofNat_le.mpr stands.column_pos
    · exact Int.ofNat_le.mpr (Nat.le_add_right _ _)
  · exact (finds _).behind (isIn_lineShift stands.isIn_start)

theorem run_finds (stands : Stands lines line column here below) :
    Finds lines (run levels line column here below) := by
  induction below generalizing levels line column here with
  | nil => exact ⟨stands.isIn_words, stands.isIn_start, stands.isIn_behind⟩
  | cons next below ih =>
      cases unread : unreadFailure (Words.read line column here).rest with
      | some failure =>
          rw [run_unread unread]
          exact ⟨stands.isIn_words, stands.isIn_start, stands.isIn_behind⟩
      | none =>
          rw [run_entered unread]
          refine (entered_finds stands.following fun levels => ih stands.following).behind ?_
          exact List.forall_mem_append.mpr
            ⟨stands.isIn_words, List.forall_mem_singleton.mpr stands.isIn_behind⟩

theorem ofText_finds (text : List Char) : Finds (Text.lines text) (ofText text) :=
  run_finds ⟨[], _, rfl, rfl, Nat.le_refl 1, Nat.add_comm _ _⟩

/-- The tokens of a text stand in its lines. -/
theorem isIn_of_tokenize {file : Path} {text : String} {tokens : List Token}
    (scanned : tokenize file text = .ok tokens) :
    ∀ token ∈ tokens, token.position.IsIn (Text.lines text.toList) := by
  obtain ⟨_, rfl⟩ := tokenize_ok_iff.mp scanned
  have finds := ofText_finds text.toList
  refine List.forall_mem_append.mpr ⟨finds.tokens, fun token member => ?_⟩
  rcases List.mem_append.mp member with dedent | newline
  · obtain ⟨_, _, rfl⟩ := List.mem_map.mp dedent
    exact finds.start
  · rw [List.mem_singleton.mp newline]
    exact finds.place

/-- The scan of a text fails in its lines. -/
theorem pointsInto_of_tokenize_error {file : Path} {text : String} {diagnostic : Diagnostic Fault}
    (failed : tokenize file text = .error (.fault diagnostic)) :
    ∃ site, diagnostic.site = some site ∧ site.PointsInto text := by
  rw [tokenize_eq] at failed
  split at failed
  · next failure _ =>
      cases failure with
      | fault cause =>
          cases failed
          exact ⟨_, rfl, (ofText_finds text.toList).place.pointsInto file⟩
      | numeral => cases failed
      | outOfRange => cases failed
  · cases failed

end Scan

/-! ## Places that are blamed -/

/-- Moves all tokens to the places of some of them; a token that stands at none of these places
gets a spare one. -/
def gathering (tokens : List Token) (spare : Position) : Relocation where
  token found :=
    { found with position :=
        if found.position ∈ tokens.map Token.position then found.position else spare }
  position place := if place ∈ tokens.map Token.position then place else spare
  kind_token _ := rfl
  text_token _ := rfl
  position_token _ _ := rfl

namespace Reading

variable {tokens rest : List Token}

/-- Tokens at their own places are not moved, and so are the results of reading them. -/
theorem statements_gathered (tokens : List Token) (spare : Position) :
    (gathering tokens spare).result (Prod.map
        (List.map (Statement.moved (gathering tokens spare).position))
        (Option.map (gathering tokens spare).stop)) (statements tokens) =
      Relocation.identity.result (Prod.map
        (List.map (Statement.moved Relocation.identity.position))
        (Option.map Relocation.identity.stop)) (statements tokens) := by
  have stay : tokens.map (gathering tokens spare).token = tokens.map id := by
    refine List.map_congr_left fun token member => ?_
    exact congrArg (Token.mk _ _) (if_pos (List.mem_map_of_mem member))
  rw [← Relocation.carries_statements, ← Relocation.carries_statements, Relocation.tokens, stay]
  rfl

theorem position_mem_of_gathered {spare : Position} {token : Token}
    (inside : spare ∈ tokens.map Token.position)
    (same : (gathering tokens spare).token token = token) :
    token.position ∈ tokens.map Token.position := by
  have place : (if token.position ∈ tokens.map Token.position then token.position else spare) =
      token.position := congrArg Token.position same
  split at place
  · next member => exact member
  · exact place ▸ inside

/-- A fault is blamed on a place of one of the tokens that are read. -/
theorem blamed_of_error (full : tokens ≠ []) {cause : Fault} {token : Token}
    (failed : statements tokens = .error (.fault cause (some token)) rest) :
    token.position ∈ tokens.map Token.position := by
  obtain ⟨first, others, rfl⟩ := List.exists_cons_of_ne_nil full
  have gathered := statements_gathered (first :: others) first.position
  rw [failed] at gathered
  injection gathered with misreadings
  injection misreadings with _ moved
  exact position_mem_of_gathered List.mem_cons_self (Option.some.inj moved)

theorem blamed_of_stop (full : tokens ≠ []) {result : List Statement} {cause : Fault}
    {token : Token} (stopped : statements tokens = .ok (result, some (cause, some token)) rest) :
    token.position ∈ tokens.map Token.position := by
  obtain ⟨first, others, rfl⟩ := List.exists_cons_of_ne_nil full
  have gathered := statements_gathered (first :: others) first.position
  rw [stopped] at gathered
  injection gathered with results
  have moved := (Prod.mk.inj (Option.some.inj (Prod.mk.inj results).2)).2
  exact position_mem_of_gathered List.mem_cons_self (Option.some.inj moved)

end Reading

namespace Reader

variable {file : Path} {text : String} {tokens : List Token}

/-- A fault without a token is seen at the last one. -/
theorem isIn_siteOf (full : tokens ≠ [])
    (inside : ∀ token ∈ tokens, token.position.IsIn (Text.lines text.toList))
    {blamed : Option Token} (named : ∀ token ∈ blamed, token.position ∈ tokens.map Token.position) :
    ∃ position, position.IsIn (Text.lines text.toList) ∧
      (ofTokens file (some text) tokens).siteOf blamed =
        ⟨file, position, Scanner.lineOf? text.toList position.line⟩ := by
  cases blamed with
  | some token =>
      obtain ⟨one, member, same⟩ := List.mem_map.mp (named token rfl)
      exact ⟨token.position, same ▸ inside one member, rfl⟩
  | none =>
      refine ⟨(tokens.getLast full).position, inside _ (List.getLast_mem full), ?_⟩
      simp only [siteOf, ofTokens, List.getLast?_eq_some_getLast full]
      rfl

end Reader

/-- Every diagnostic points into its text: the line it names is one of the text, its column is
that of a character of the line or of its end, and its snippet is the line without the carriage
returns at its end.  A notice that reading stopped names a line of the text. -/
theorem diagnostics_point_into_text (file : Path) (text : String) :
    (∀ diagnostic, readPuzzle file text = .error (.fault diagnostic) →
      ∃ site, diagnostic.site = some site ∧ site.PointsInto text) ∧
    ∀ puzzle notices, readPuzzle file text = .ok (puzzle, notices) → ∀ notice ∈ notices,
      ∃ line message, notice = .stopped file line message ∧ 1 ≤ line ∧
        line ≤ (Text.lines text.toList).length := by
  cases scanned : tokenize file text with
  | error failure =>
      have read : readPuzzle file text = .error failure := by rw [readPuzzle, scanned]; rfl
      rw [read]
      refine ⟨fun diagnostic failed => ?_, fun puzzle notices returned => ?_⟩
      · cases failed
        exact Scan.pointsInto_of_tokenize_error scanned
      · cases returned
  | ok tokens =>
      have read : readPuzzle file text = (Reader.ofTokens file (some text) tokens).puzzle.1 := by
        rw [readPuzzle, scanned]
        rfl
      have full := Scan.ne_nil_of_tokenize scanned
      have inside := Scan.isIn_of_tokenize scanned
      rw [read]
      refine ⟨fun diagnostic failed => ?_, fun puzzle notices returned => ?_⟩
      · obtain ⟨misreading, rest, misread, placed⟩ := Reader.puzzle_error_iff.mp failed
        cases misreading with
        | numeral => cases placed
        | fault cause blamed =>
            cases placed
            have named : ∀ token ∈ blamed, token.position ∈ tokens.map Token.position := by
              rintro token rfl
              exact Reading.blamed_of_error full misread
            obtain ⟨position, isIn, site⟩ := @Reader.isIn_siteOf file _ _ full inside _ named
            exact ⟨_, rfl, site ▸ isIn.pointsInto file⟩
      · obtain ⟨result, stop, rest, collected, _, rfl⟩ := Reader.puzzle_ok_iff.mp returned
        cases stop with
        | none => exact List.forall_mem_nil _
        | some stop =>
            rcases stop with ⟨cause, blamed⟩
            have named : ∀ token ∈ blamed, token.position ∈ tokens.map Token.position := by
              rintro token rfl
              exact Reading.blamed_of_stop full collected
            obtain ⟨position, isIn, site⟩ := @Reader.isIn_siteOf file _ _ full inside _ named
            refine List.forall_mem_singleton.mpr ⟨position.line, cause.message, ?_, ?_⟩
            · simp only [Reader.stopNotice, site]
              rfl
            · exact isIn.line_bounds

/-- A text that ends, behind a carriage return, where a block should follow. -/
def unfinishedText : String :=
  "Hue = {red}\r\n\r\nHue != red =>\r"

/-- A text that is read up to a second line that makes no sense. -/
def haltedText : String :=
  "Hue = {red}\n\tHue"

theorem diagnostics_unfinishedText_haltedText :
    readPuzzle (Path.ofString "hue.puzzle") unfinishedText =
        .error (.fault ⟨.expected .indent none, some ⟨Path.ofString "hue.puzzle", ⟨3, 15⟩,
          some "Hue != red =>"⟩⟩) ∧
      (∃ site, some (⟨Path.ofString "hue.puzzle", ⟨3, 15⟩, some "Hue != red =>"⟩ : Site) =
        some site ∧ site.PointsInto unfinishedText) ∧
      readPuzzle (Path.ofString "hue.puzzle") haltedText =
        .ok (⟨some (Path.ofString "hue.puzzle"), [⟨"Hue", ["red"]⟩], [], [], []⟩,
          [.stopped (Path.ofString "hue.puzzle") 2 "Expected IDENTIFIER, got INDENT"]) ∧
      ∃ line message, (.stopped (Path.ofString "hue.puzzle") 2 "Expected IDENTIFIER, got INDENT" :
          Notice) = .stopped (Path.ofString "hue.puzzle") line message ∧ 1 ≤ line ∧
        line ≤ (Text.lines haltedText.toList).length := by
  have failed : readPuzzle (Path.ofString "hue.puzzle") unfinishedText =
      .error (.fault ⟨.expected .indent none, some ⟨Path.ofString "hue.puzzle", ⟨3, 15⟩,
        some "Hue != red =>"⟩⟩) := by decide +kernel
  have halted : readPuzzle (Path.ofString "hue.puzzle") haltedText =
      .ok (⟨some (Path.ofString "hue.puzzle"), [⟨"Hue", ["red"]⟩], [], [], []⟩,
        [.stopped (Path.ofString "hue.puzzle") 2 "Expected IDENTIFIER, got INDENT"]) := by
    decide +kernel
  refine ⟨failed, ?_, halted, ?_⟩
  · exact (diagnostics_point_into_text (Path.ofString "hue.puzzle") unfinishedText).1 _ failed
  · exact (diagnostics_point_into_text (Path.ofString "hue.puzzle") haltedText).2 _ _ halted _
      List.mem_cons_self

end LogicPuzzle
