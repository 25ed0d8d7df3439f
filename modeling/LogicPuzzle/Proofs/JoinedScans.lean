import LogicPuzzle.Proofs.Lowering
import LogicPuzzle.Proofs.Readings

/-!
# Scanning joined texts

When a text is put below another one, the scan of the first text goes on where
its last line ends.  The blocks that are open there are closed by the first line
of the second text that is not blank, or by the end of the text.  From then on
the second text is scanned as if it stood alone.
-/

namespace LogicPuzzle

/-! ## Lines -/

namespace Text

theorem lines_cons_of_ne {c : Char} (other : c ≠ '\n') (cs : List Char) :
    lines (c :: cs) = (c :: (splitLines cs).1) :: (splitLines cs).2 := by
  rw [lines, splitLines]
  simp only [if_neg other]

theorem lines_cons_newline (cs : List Char) : lines ('\n' :: cs) = [] :: lines cs := by
  rw [lines, splitLines]
  simp only [if_true]
  rfl

theorem mem_of_mem_lines {text line : List Char} {c : Char} (member : line ∈ lines text)
    (inside : c ∈ line) : c ∈ text ∧ c ≠ '\n' := by
  induction text generalizing line with
  | nil =>
      rw [List.mem_singleton.mp member] at inside
      cases inside
  | cons d text ih =>
      rcases eq_or_ne d '\n' with rfl | other
      · rw [lines_cons_newline] at member
        rcases List.mem_cons.mp member with rfl | below
        · cases inside
        · exact ⟨List.mem_cons_of_mem _ (ih below inside).1, (ih below inside).2⟩
      · rw [lines_cons_of_ne other] at member
        rcases List.mem_cons.mp member with rfl | below
        · rcases List.mem_cons.mp inside with rfl | first
          · exact ⟨List.mem_cons_self, other⟩
          · have found := ih List.mem_cons_self first
            exact ⟨List.mem_cons_of_mem _ found.1, found.2⟩
        · have found := ih (List.mem_cons_of_mem _ below) inside
          exact ⟨List.mem_cons_of_mem _ found.1, found.2⟩

/-- The lines of joined texts are those of the first one, then those of the second one. -/
theorem lines_append (first second : List Char) :
    lines (first ++ '\n' :: second) = lines first ++ lines second := by
  induction first with
  | nil => rfl
  | cons c first ih =>
      rw [lines, lines, List.cons_append, List.cons.injEq] at ih
      rw [lines, lines, List.cons_append, List.cons_append, splitLines, splitLines]
      split
      · rw [ih.1, ih.2]
        rfl
      · rw [ih.1, ih.2]

end Text

def Failure.placedAt (site : Site) : Failure → Failure
  | .fault diagnostic => .fault { diagnostic with site := some site }
  | failure => failure

namespace Scan

variable {levels : List Nat} {line column : Nat} {here next : List Char}
  {below more : List (List Char)} {tokens later : List Token} {scan : Scan}

/-! ## Complete scans -/

def finished (scan : Scan) : List Token :=
  scan.tokens ++ ending scan.levels scan.line scan.column

structure Completes (scan : Scan) (tokens : List Token) : Prop where
  passes : scan.failure = none
  finishes : scan.finished = tokens

def fromLine (levels : List Nat) (line : Nat) (next : List Char) (below : List (List Char)) :
    Scan :=
  let later := run (lineShift line levels next).levels line
    (1 + (next.takeWhile isIndentation).length) (next.dropWhile isIndentation) below
  { later with tokens := (lineShift line levels next).tokens ++ later.tokens }

/-- A scan goes on at the next line. -/
theorem run_cons (whole : unreadFailure (Words.read line column here).rest = none)
    (proceeds : (lineShift (line + 1) levels next).failure = none) :
    run levels line column here (next :: below) =
      { fromLine levels (line + 1) next below with
        tokens := (Words.read line column here).tokens ++
          Token.newline line (Words.read line column here).column ::
            (fromLine levels (line + 1) next below).tokens } := by
  rw [run]
  simp only [whole, proceeds, fromLine, List.append_assoc, List.cons_append]

/-- A scan ends at a character that starts no word. -/
theorem run_unread {failure : Failure}
    (unread : unreadFailure (Words.read line column here).rest = some failure) :
    run levels line column here below = ⟨(Words.read line column here).tokens, line,
      (Words.read line column here).column, (Words.read line column here).rest, below, levels,
      some failure⟩ := by
  cases below with
  | nil => rw [run, unread]
  | cons next below =>
      rw [run]
      simp only [unread]

/-- The scan of a line, from its indentation on, and of the lines below it.  It ends at once when
the indentation does not fit. -/
def entered (levels : List Nat) (line : Nat) (next : List Char) (below : List (List Char)) :
    Scan :=
  match (lineShift line levels next).failure with
  | some failure =>
      ⟨(lineShift line levels next).tokens, line, 1 + (next.takeWhile isIndentation).length,
        next.dropWhile isIndentation, below, (lineShift line levels next).levels, some failure⟩
  | none => fromLine levels line next below

/-- A scan of a line that is cut to its end enters the next line. -/
theorem run_entered (whole : unreadFailure (Words.read line column here).rest = none) :
    run levels line column here (next :: below) =
      { entered levels (line + 1) next below with
        tokens := ((Words.read line column here).tokens ++
          [Token.newline line (Words.read line column here).column]) ++
            (entered levels (line + 1) next below).tokens } := by
  rw [List.append_assoc, List.singleton_append, entered]
  cases misfit : (lineShift (line + 1) levels next).failure with
  | some failure =>
      rw [run]
      simp only [whole, misfit]
  | none => exact run_cons whole misfit

/-- A scan that does not fail has not failed at its first lines. -/
theorem passes_cons (passes : (run levels line column here (next :: below)).failure = none) :
    unreadFailure (Words.read line column here).rest = none ∧
      (lineShift (line + 1) levels next).failure = none ∧
        (fromLine levels (line + 1) next below).failure = none := by
  cases whole : unreadFailure (Words.read line column here).rest with
  | some failure =>
      rw [run] at passes
      simp only [whole] at passes
      cases passes
  | none =>
      cases proceeds : (lineShift (line + 1) levels next).failure with
      | some failure =>
          rw [run] at passes
          simp only [whole, proceeds] at passes
          cases passes
      | none =>
          rw [run_cons whole proceeds] at passes
          exact ⟨rfl, rfl, passes⟩

theorem rest_eq_nil_of_whole {cs : List Char} (whole : unreadFailure cs = none) : cs = [] := by
  cases cs with
  | nil => rfl
  | cons => cases whole

/-- The line in which a complete scan starts is cut to its end. -/
theorem whole_of_completes (completes : (run levels line column here below).Completes tokens) :
    (Words.read line column here).rest = [] := by
  cases below with
  | nil => exact rest_eq_nil_of_whole completes.passes
  | cons next below => exact rest_eq_nil_of_whole (passes_cons completes.passes).1

theorem completes_cons_iff :
    (run levels line column here (next :: below)).Completes tokens ↔
      unreadFailure (Words.read line column here).rest = none ∧
      (lineShift (line + 1) levels next).failure = none ∧
      ∃ later, (fromLine levels (line + 1) next below).Completes later ∧
        tokens = (Words.read line column here).tokens ++
          Token.newline line (Words.read line column here).column :: later := by
  constructor
  · rintro ⟨passes, rfl⟩
    obtain ⟨whole, proceeds, laterPasses⟩ := passes_cons passes
    refine ⟨whole, proceeds, _, ⟨laterPasses, rfl⟩, ?_⟩
    rw [run_cons whole proceeds, finished, finished, List.append_assoc, List.cons_append]
  · rintro ⟨whole, proceeds, _, ⟨laterPasses, rfl⟩, rfl⟩
    rw [run_cons whole proceeds]
    refine ⟨laterPasses, ?_⟩
    rw [finished, finished, List.append_assoc, List.cons_append]

theorem fromLine_completes_iff :
    (fromLine levels line next below).Completes tokens ↔
      ∃ later, (run (lineShift line levels next).levels line
          (1 + (next.takeWhile isIndentation).length) (next.dropWhile isIndentation)
          below).Completes later ∧ tokens = (lineShift line levels next).tokens ++ later := by
  constructor
  · rintro ⟨passes, rfl⟩
    exact ⟨_, ⟨passes, rfl⟩, List.append_assoc ..⟩
  · rintro ⟨_, ⟨passes, rfl⟩, rfl⟩
    exact ⟨passes, List.append_assoc ..⟩

/-- The lines below a complete scan go on where its last line ends. -/
theorem completes_append (passes : (run levels line column here below).failure = none)
    (reached : run levels line column here below = scan)
    (proceeds : (lineShift (scan.line + 1) scan.levels next).failure = none)
    (completes : (fromLine scan.levels (scan.line + 1) next more).Completes later) :
    (run levels line column here (below ++ next :: more)).Completes
      (scan.tokens ++ Token.newline scan.line scan.column :: later) := by
  induction below generalizing levels line column here scan with
  | nil =>
      rcases reached with rfl
      exact completes_cons_iff.mpr ⟨passes, proceeds, later, completes, rfl⟩
  | cons first below ih =>
      obtain ⟨whole, firstProceeds, laterPasses⟩ := passes_cons passes
      rw [run_cons whole firstProceeds] at reached
      rcases reached with rfl
      refine completes_cons_iff.mpr ⟨whole, firstProceeds, _,
        fromLine_completes_iff.mpr ⟨_, ih laterPasses rfl proceeds completes, rfl⟩, ?_⟩
      simp only [fromLine, List.append_assoc, List.cons_append]

/-- A scan that does not fail ends in the last line. -/
theorem line_of_passes (passes : (run levels line column here below).failure = none) :
    (run levels line column here below).line = line + below.length := by
  induction below generalizing levels line column here with
  | nil => rfl
  | cons next below ih =>
      obtain ⟨whole, proceeds, laterPasses⟩ := passes_cons passes
      rw [run_cons whole proceeds, List.length_cons]
      change (fromLine levels (line + 1) next below).line = _
      exact (ih laterPasses).trans (by omega)

/-! ## Open blocks -/

/-- The open levels are those of some blocks and the margin. -/
def Based (levels : List Nat) : Prop :=
  ∃ inner, levels = inner ++ [0] ∧ ∀ level ∈ inner, 0 < level

theorem based_margin : Based [0] :=
  ⟨[], rfl, nofun⟩

theorem Based.suffix {outer : List Nat} (based : Based levels) (suffix : outer <:+ levels)
    (nonempty : outer ≠ []) : Based outer := by
  rcases based with ⟨inner, rfl, blocks⟩
  rcases suffix with ⟨closed, same⟩
  obtain ⟨left, last, rfl⟩ := (List.eq_nil_or_concat outer).resolve_left nonempty
  rw [List.concat_eq_append, ← List.append_assoc] at same
  obtain ⟨rfl, margin⟩ := List.append_inj' same rfl
  refine ⟨left, by rw [List.concat_eq_append, margin], ?_⟩
  intro level member
  exact blocks level (List.mem_append_right closed member)

theorem Based.closing {width : Int} (based : Based levels)
    (proceeds : (Shift.closing line levels width).failure = none) :
    Based (Shift.closing line levels width).levels := by
  have suffix : (levels.dropWhile fun (level : Nat) => width < level) <:+ levels :=
    List.dropWhile_suffix _
  generalize closed : Shift.closing line levels width = shift at proceeds ⊢
  unfold Shift.closing at closed
  split at closed
  · rcases closed with rfl
    cases proceeds
  · next level outer left =>
      rw [left] at suffix
      split at closed
      · rcases closed with rfl
        exact based.suffix suffix (List.cons_ne_nil _ _)
      · rcases closed with rfl
        cases proceeds

theorem Based.lineShift (based : Based levels)
    (proceeds : (lineShift line levels next).failure = none) :
    Based (lineShift line levels next).levels := by
  generalize shifted : Scan.lineShift line levels next = shift at proceeds ⊢
  unfold Scan.lineShift Shift.ofWidth at shifted
  split at shifted
  · rcases shifted with rfl
    exact based
  · split at shifted
    · rcases shifted with rfl
      cases proceeds
    · split at shifted
      · rcases shifted with rfl
        cases proceeds
      · split at shifted
        · next level outer deeper =>
            rcases based with ⟨inner, same, blocks⟩
            rcases shifted with rfl
            refine ⟨_ :: inner, congrArg (_ :: ·) same, List.forall_mem_cons.mpr ⟨?_, blocks⟩⟩
            omega
        · rcases shifted with rfl
          exact based.closing proceeds

theorem Based.run (based : Based levels)
    (passes : (run levels line column here below).failure = none) :
    Based (run levels line column here below).levels := by
  induction below generalizing levels line column here with
  | nil => exact based
  | cons next below ih =>
      obtain ⟨whole, proceeds, laterPasses⟩ := passes_cons passes
      rw [run_cons whole proceeds]
      exact ih (based.lineShift proceeds) laterPasses

/-- A line at the margin closes all blocks. -/
theorem closing_zero {inner : List Nat} (blocks : ∀ level ∈ inner, 0 < level) :
    Shift.closing line (inner ++ [0]) 0 =
      ⟨inner.map fun _ => Token.dedent line, [0], none⟩ := by
  have positive : ∀ level ∈ inner, decide ((0 : Int) < (level : Nat)) = true := by
    intro level member
    exact decide_eq_true (Int.natCast_pos.mpr (blocks level member))
  rw [Shift.closing, List.takeWhile_append_of_pos positive, List.dropWhile_append_of_pos positive]
  simp

theorem ofWidth_zero {inner : List Nat} (blocks : ∀ level ∈ inner, 0 < level) :
    Shift.ofWidth line (inner ++ [0]) 0 =
      ⟨inner.map fun _ => Token.dedent line, [0], none⟩ := by
  rw [← closing_zero blocks]
  cases inner with
  | nil => rfl
  | cons level outer => rfl

/-- A line below the margin that is not blank opens a block, or closes all open blocks. -/
theorem lineShift_margin_cases (full : isBlankBody (next.dropWhile isIndentation) = false)
    (proceeds : (lineShift line [0] next).failure = none) :
    (lineShift line [0] next).tokens = [Token.indent line] ∨
    ∀ inner : List Nat, (∀ level ∈ inner, 0 < level) → lineShift line (inner ++ [0]) next =
      ⟨inner.map fun _ => Token.dedent line, [0], none⟩ := by
  have shifts := lineShift_of_full full line
  rcases Nat.eq_zero_or_pos (indentationWidth (next.takeWhile isIndentation)) with
    margin | deeper
  · refine .inr fun inner blocks => ?_
    rw [shifts, margin]
    exact ofWidth_zero blocks
  · refine .inl ?_
    rw [shifts, Shift.ofWidth] at proceeds ⊢
    split at proceeds
    · cases proceeds
    · next even => rw [if_neg even, if_pos (Int.ofNat_lt.mpr deeper)]

/-- A blank line has no words. -/
theorem read_blank {body : List Char} (blank : isBlankBody body = true) (line column : Nat) :
    Words.read line column body = ⟨[], column + body.length, []⟩ := by
  rcases (Bool.or_eq_true _ _).mp blank with empty | carriage
  · rw [eq_of_beq empty]
    exact Words.read_none rfl _ _
  · have found : Piece.first? ['\r'] = some ⟨none, ['\r'], []⟩ := rfl
    rw [eq_of_beq carriage, Cuts.read_piece found]
    exact Words.read_none rfl _ _

/-- A blank line at the end of a text leaves the end of the text. -/
theorem completes_blank_last (blank : isBlankBody (next.dropWhile isIndentation) = true)
    (line : Nat) :
    ∃ after, ∀ levels tokens, (fromLine levels line next []).Completes tokens ↔
      tokens = ending levels line after := by
  obtain ⟨after, wordless⟩ : ∃ after, Words.read line (1 + (next.takeWhile isIndentation).length)
      (next.dropWhile isIndentation) = ⟨[], after, []⟩ := ⟨_, read_blank blank _ _⟩
  refine ⟨after, fun levels tokens => ?_⟩
  have finishes : (fromLine levels line next []).finished = ending levels line after := by
    rw [fromLine, lineShift_blank blank, run, wordless]
    rfl
  constructor
  · intro completes
    exact completes.finishes.symm.trans finishes
  · rintro rfl
    refine ⟨?_, finishes⟩
    rw [fromLine, run, wordless]
    rfl

/-- A blank line leaves its end and the lines below it. -/
theorem completes_blank_cons (blank : isBlankBody (next.dropWhile isIndentation) = true)
    (line : Nat) (following : List Char) (below : List (List Char)) :
    ∃ after, ∀ levels tokens, (fromLine levels line next (following :: below)).Completes tokens ↔
      (lineShift (line + 1) levels following).failure = none ∧
      ∃ later, (fromLine levels (line + 1) following below).Completes later ∧
        tokens = Token.newline line after :: later := by
  obtain ⟨after, wordless⟩ : ∃ after, Words.read line (1 + (next.takeWhile isIndentation).length)
      (next.dropWhile isIndentation) = ⟨[], after, []⟩ := ⟨_, read_blank blank _ _⟩
  refine ⟨after, fun levels tokens => ?_⟩
  rw [fromLine_completes_iff, lineShift_blank blank]
  simp only [completes_cons_iff, wordless, List.nil_append]
  constructor
  · rintro ⟨_, ⟨_, proceeds, later, completes, rfl⟩, rfl⟩
    exact ⟨proceeds, later, completes, rfl⟩
  · rintro ⟨proceeds, later, completes, rfl⟩
    exact ⟨_, ⟨rfl, proceeds, later, completes, rfl⟩, rfl⟩

/-! ## Scanning inside of blocks -/

open Grammar Reading

/-- Tokens, and the same with the ends of some blocks behind the empty lines in front. -/
inductive Closing (count : Nat) : List Token → List Token → Prop where
  | intro {gap dedents rest : List Token} (blank : Gap gap)
      (closes : ∀ token ∈ dedents, token.kind = .dedent) (number : dedents.length = count) :
      Closing count (gap ++ rest) (gap ++ (dedents ++ rest))

theorem Closing.cons {count : Nat} {closed : List Token} (closing : Closing count tokens closed)
    (line column : Nat) : Closing count (Token.newline line column :: tokens)
      (Token.newline line column :: closed) := by
  cases closing with
  | intro blank closes number =>
      exact .intro (List.forall_mem_cons.mpr ⟨rfl, blank⟩) closes number

theorem kind_of_mem_dedents {token : Token}
    (member : token ∈ levels.map fun _ => Token.dedent line) : token.kind = .dedent := by
  obtain ⟨_, _, rfl⟩ := List.mem_map.mp member
  rfl

theorem closing_dedents (inner : List Nat) (line : Nat) (tokens : List Token) :
    Closing inner.length tokens ((inner.map fun _ => Token.dedent line) ++ tokens) := by
  have nothing : Gap [] := nofun
  exact .intro nothing (fun token => kind_of_mem_dedents) (List.length_map _)

theorem length_drop_margin (inner : List Nat) : ((inner ++ [0]).drop 1).length = inner.length := by
  rw [List.length_drop, List.length_append, List.length_singleton, Nat.add_sub_cancel]

theorem closing_ending (inner : List Nat) (line column : Nat) :
    Closing inner.length (ending [0] line column) (ending (inner ++ [0]) line column) := by
  have nothing : Gap [] := nofun
  exact .intro nothing (fun token => kind_of_mem_dedents)
    ((List.length_map _).trans (length_drop_margin inner))

section Inside

variable {inner : List Nat} (blocks : ∀ level ∈ inner, 0 < level)
include blocks

theorem completes_inside_of_full (full : isBlankBody (next.dropWhile isIndentation) = false)
    (proceeds : (lineShift line [0] next).failure = none)
    (completes : (fromLine [0] line next below).Completes tokens)
    (unindented : startsWith .indent (afterNewlines tokens) = false) :
    (lineShift line (inner ++ [0]) next).failure = none ∧
      ∃ closed, Closing inner.length tokens closed ∧
        (fromLine (inner ++ [0]) line next below).Completes closed := by
  obtain ⟨later, laterCompletes, rfl⟩ := fromLine_completes_iff.mp completes
  rcases lineShift_margin_cases full proceeds with indents | closes
  · rw [indents] at unindented
    cases unindented
  · have margin : lineShift line [0] next = ⟨[], [0], none⟩ := closes [] nofun
    have shifted := closes inner blocks
    rw [margin] at laterCompletes ⊢
    refine ⟨by rw [shifted], _, closing_dedents inner line _, ?_⟩
    rw [fromLine_completes_iff, shifted]
    exact ⟨later, laterCompletes, rfl⟩

/-- A scan inside of some blocks closes them at the first line that is not blank, and goes on
like a scan at the margin. -/
theorem completes_inside (proceeds : (lineShift line [0] next).failure = none)
    (completes : (fromLine [0] line next below).Completes tokens)
    (unindented : startsWith .indent (afterNewlines tokens) = false) :
    (lineShift line (inner ++ [0]) next).failure = none ∧
      ∃ closed, Closing inner.length tokens closed ∧
        (fromLine (inner ++ [0]) line next below).Completes closed := by
  induction below generalizing next line tokens with
  | nil =>
      cases blank : isBlankBody (next.dropWhile isIndentation) with
      | false => exact completes_inside_of_full blocks blank proceeds completes unindented
      | true =>
          obtain ⟨after, ends⟩ := completes_blank_last blank line
          rw [(ends _ _).mp completes]
          refine ⟨by rw [lineShift_blank blank], _, closing_ending inner line after, ?_⟩
          exact (ends _ _).mpr rfl
  | cons following below ih =>
      cases blank : isBlankBody (next.dropWhile isIndentation) with
      | false => exact completes_inside_of_full blocks blank proceeds completes unindented
      | true =>
          obtain ⟨after, goesOn⟩ := completes_blank_cons blank line following below
          obtain ⟨belowProceeds, later, laterCompletes, rfl⟩ := (goesOn _ _).mp completes
          obtain ⟨insideProceeds, closed, closing, closedCompletes⟩ :=
            ih belowProceeds laterCompletes unindented
          refine ⟨by rw [lineShift_blank blank], _, closing.cons line after, ?_⟩
          exact (goesOn _ _).mpr ⟨insideProceeds, closed, closedCompletes, rfl⟩

end Inside

/-! ## Whole texts -/

theorem Completes.down (completes : (run levels line column here below).Completes tokens)
    (lines : Nat) :
    (run levels (line + lines) column here below).Completes (tokens.map (Token.down lines)) := by
  rcases completes with ⟨passes, rfl⟩
  rw [run_down]
  refine ⟨passes, ?_⟩
  rw [finished, finished, List.map_append, ending_down]

/-- A first line that is not indented is scanned like any other line at the margin. -/
theorem fromLine_margin (unindented : ∀ c ∈ next.head?, isIndentation c = false) (line : Nat)
    (below : List (List Char)) :
    (lineShift line [0] next).failure = none ∧
      fromLine [0] line next below = run [0] line 1 next below := by
  obtain ⟨width, body⟩ : next.takeWhile isIndentation = [] ∧ next.dropWhile isIndentation = next :=
    @takeWhile_stops isIndentation [] next (List.forall_mem_nil _) unindented
  have margin : lineShift line [0] next = ⟨[], [0], none⟩ := by
    rw [lineShift, width, body]
    split
    · rfl
    · exact @ofWidth_zero line [] (List.forall_mem_nil _)
  rw [fromLine, margin, width, body]
  exact ⟨rfl, rfl⟩

def ofText (text : List Char) : Scan :=
  run [0] 1 1 (Text.splitLines text).1 (Text.splitLines text).2

def site (file : Path) (text : String) (scan : Scan) : Site :=
  ⟨file, ⟨scan.line, scan.column⟩, Scanner.lineOf? text.toList scan.line⟩

/-- The tokens of a text, or the failure of its scan at the place it got to. -/
theorem tokenize_eq (file : Path) (text : String) :
    tokenize file text = match (ofText text.toList).failure with
      | some failure => .error (failure.placedAt ((ofText text.toList).site file text))
      | none => .ok (ofText text.toList).finished := by
  have scanned : Scan.run (Scanner.ofText file text).levels (Scanner.ofText file text).line
      (Scanner.ofText file text).column (Scanner.ofText file text).here
      (Scanner.ofText file text).below = ofText text.toList := rfl
  rw [tokenize, Scanner.tokenize, scanned]
  cases (ofText text.toList).failure with
  | some failure => cases failure <;> rfl
  | none => rfl

theorem tokenize_ok_iff {file : Path} {text : String} :
    tokenize file text = .ok tokens ↔ (ofText text.toList).Completes tokens := by
  rw [tokenize_eq]
  constructor
  · intro done
    split at done
    · cases done
    · next passes =>
        cases done
        exact ⟨passes, rfl⟩
  · rintro ⟨passes, rfl⟩
    simp only [passes]

/-- At least the last line of a text ends. -/
theorem ne_nil_of_tokenize {file : Path} {text : String}
    (scanned : tokenize file text = .ok tokens) : tokens ≠ [] := by
  rcases tokenize_ok_iff.mp scanned with ⟨_, rfl⟩
  simp [finished, ending]

theorem head?_splitLines {text : List Char}
    (unindented : ∀ c ∈ text.head?, isIndentation c = false) :
    ∀ c ∈ (Text.splitLines text).1.head?, isIndentation c = false := by
  cases text with
  | nil => exact unindented
  | cons first others =>
      rw [Text.splitLines]
      split
      · intro c impossible
        cases impossible
      · exact unindented

/-- When texts are joined, the blocks that are open at the end of the first one are closed in
the second one, and the rest of the second one moves down. -/
theorem tokenize_joined {file : Path} {first second : String}
    {firstTokens secondTokens : List Token} (firstScanned : tokenize file first = .ok firstTokens)
    (secondScanned : tokenize file second = .ok secondTokens)
    (unindented : ∀ c ∈ second.toList.head?, isIndentation c = false)
    (noBlock : startsWith .indent (afterNewlines
      (secondTokens.map (Token.down (Text.lines first.toList).length))) = false) :
    ∃ front newline dedents closed, firstTokens = front ++ (dedents ++ [newline]) ∧
      newline.kind = .newline ∧ (∀ token ∈ dedents, token.kind = .dedent) ∧
      Closing dedents.length
        (secondTokens.map (Token.down (Text.lines first.toList).length)) closed ∧
      tokenize file (first ++ "\n" ++ second) = .ok (front ++ newline :: closed) := by
  obtain ⟨passes, rfl⟩ := tokenize_ok_iff.mp firstScanned
  have lastLine : (ofText first.toList).line + 1 = 1 + (Text.lines first.toList).length :=
    (congrArg (· + 1) (line_of_passes passes)).trans (Nat.add_assoc ..)
  have based : Based (ofText first.toList).levels := based_margin.run passes
  obtain ⟨inner, margin, blocks⟩ := based
  obtain ⟨proceeds, alone⟩ := fromLine_margin (head?_splitLines unindented)
    (1 + (Text.lines first.toList).length) (Text.splitLines second.toList).2
  have moved := (tokenize_ok_iff.mp secondScanned).down (Text.lines first.toList).length
  rw [← alone] at moved
  obtain ⟨insideProceeds, closed, closing, closedCompletes⟩ :=
    completes_inside blocks proceeds moved noBlock
  rw [← margin, ← lastLine] at insideProceeds closedCompletes
  have joined := completes_append passes rfl insideProceeds closedCompletes
  obtain ⟨here, below⟩ := List.cons.inj (Text.lines_append first.toList second.toList)
  refine ⟨(ofText first.toList).tokens, _, _, closed, rfl, rfl,
    fun token => kind_of_mem_dedents, ?_, tokenize_ok_iff.mpr ?_⟩
  · rw [List.length_map, margin, length_drop_margin]
    exact closing
  · have characters : (first ++ "\n" ++ second).toList = first.toList ++ '\n' :: second.toList := by
      rw [String.toList_append, String.toList_append, List.append_assoc]
      rfl
    rw [ofText, characters, here, below]
    exact joined

end Scan

end LogicPuzzle
