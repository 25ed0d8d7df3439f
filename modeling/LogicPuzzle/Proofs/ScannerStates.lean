import LogicPuzzle.Proofs.Coverage
import LogicPuzzle.Proofs.Offside

/-!
# Scanners driven by calls

Whatever calls have been made to a scanner, and however they ended, it stands
behind the characters that it has read.  Its open levels rise from the margin in
whole steps, and its tokens have opened these levels and closed all others.
-/

namespace LogicPuzzle

/-! ## Characters that have been read -/

/-- Some characters of a text have been read: at the place behind them, certain characters of the
line and certain lines below it are left. -/
structure HasRead (text read : List Char) (line column : Nat) (here : List Char)
    (below : List (List Char)) : Prop where
  split : text = read ++ Text.joinLines here below
  place : Position.behind read = ⟨line, column⟩
  unbroken : ∀ one ∈ here :: below, '\n' ∉ one

/-- What holds where no piece starts, and of all characters if it holds behind their first piece,
holds of the place where the words of a line end. -/
theorem Words.end_induction {P : Nat → List Char → Nat → List Char → Prop}
    (ends : ∀ column cs, Piece.first? cs = none → P column cs column cs)
    (goesOn : ∀ column cs piece last rest, Piece.first? cs = some piece →
      P (column + piece.text.length) piece.rest last rest → P column cs last rest)
    (line column : Nat) (cs : List Char) :
    P column cs (read line column cs).column (read line column cs).rest := by
  fun_induction read line column cs with
  | case1 column cs none => exact ends column cs none
  | case2 column cs piece found later _ ih => exact goesOn column cs piece _ _ found ih
  | case3 column cs piece found later _ _ ih => exact goesOn column cs piece _ _ found ih

/-- The words of a line and what separates them stand before the characters that are left. -/
theorem Words.exists_read (line column : Nat) (cs : List Char) :
    ∃ words, cs = words ++ (read line column cs).rest ∧
      (read line column cs).column = column + words.length := by
  refine end_induction (P := fun column cs last rest =>
    ∃ words, cs = words ++ rest ∧ last = column + words.length) ?_ ?_ line column cs
  · exact fun column cs _ => ⟨[], rfl, rfl⟩
  · rintro column cs piece last rest found ⟨words, split, length⟩
    refine ⟨piece.text ++ words, ?_, ?_⟩
    · rw [List.append_assoc, ← split, (Piece.first?_text_append_rest found).1]
    · rw [length, List.length_append, Nat.add_assoc]

namespace HasRead

variable {text read more here next : List Char} {line column : Nat} {below : List (List Char)}

theorem start (text : List Char) :
    HasRead text [] 1 1 (Text.splitLines text).1 (Text.splitLines text).2 where
  split := (Text.joinLines_splitLines text).symm
  place := rfl
  unbroken _ member newline := (Text.mem_of_mem_lines member newline).2 rfl

/-- Reading goes on within a line. -/
theorem within (reads : HasRead text read line column (more ++ here) below) :
    HasRead text (read ++ more) line (column + more.length) here below := by
  obtain ⟨inLine, lower⟩ := List.forall_mem_cons.mp reads.unbroken
  rw [List.mem_append, not_or] at inLine
  refine ⟨?_, Position.behind_shifted inLine.1 reads.place,
    List.forall_mem_cons.mpr ⟨inLine.2, lower⟩⟩
  rw [reads.split, Text.joinLines, Text.joinLines, List.append_assoc, List.append_assoc]

/-- Reading goes on at the start of the next line. -/
theorem descend (reads : HasRead text read line column [] (next :: below)) :
    HasRead text (read ++ ['\n']) (line + 1) 1 next below where
  split := by
    rw [reads.split, List.append_assoc]
    rfl
  place := by
    rw [Position.behind_newline, reads.place]
    rfl
  unbroken := (List.forall_mem_cons.mp reads.unbroken).2

/-- Reading goes on behind a run of characters of a line. -/
theorem behind_run (reads : HasRead text read line column here below) (ofClass : Char → Bool) :
    HasRead text (read ++ here.takeWhile ofClass) line (column + (here.takeWhile ofClass).length)
      (here.dropWhile ofClass) below := by
  rw [← List.takeWhile_append_dropWhile (p := ofClass) (l := here)] at reads
  exact reads.within

/-- Reading goes on behind the words of a line. -/
theorem behind_words (reads : HasRead text read line column here below) :
    ∃ further, HasRead text further line (Words.read line column here).column
      (Words.read line column here).rest below := by
  obtain ⟨words, split, length⟩ := Words.exists_read line column here
  rw [length]
  exact ⟨read ++ words, (split ▸ reads).within⟩

/-- Reading goes on behind the indentation of the next line. -/
theorem enter (reads : HasRead text read line column [] (next :: below)) :
    HasRead text (read ++ ['\n'] ++ next.takeWhile isIndentation) (line + 1)
      (1 + (next.takeWhile isIndentation).length) (next.dropWhile isIndentation) below :=
  reads.descend.behind_run isIndentation

/-- The scan of a text has read what stands before the place that it reaches. -/
theorem behind_scan (reads : HasRead text read line column here below) (levels : List Nat) :
    ∃ further, HasRead text further (Scan.run levels line column here below).line
      (Scan.run levels line column here below).column
      (Scan.run levels line column here below).here
      (Scan.run levels line column here below).below := by
  obtain ⟨words, inLine⟩ := reads.behind_words
  induction below generalizing levels line column here read words with
  | nil => exact ⟨_, inLine⟩
  | cons next below ih =>
      cases unread : Scan.unreadFailure (Words.read line column here).rest with
      | some failure =>
          rw [Scan.run_unread unread]
          exact ⟨_, inLine⟩
      | none =>
          rw [Scan.run_entered unread, Scan.entered]
          rw [Scan.rest_eq_nil_of_whole unread] at inLine
          split
          · exact ⟨_, inLine.enter⟩
          · obtain ⟨further, later⟩ := inLine.enter.behind_words
            exact ih inLine.enter _ further later

end HasRead

/-! ## Blocks that have been opened -/

/-- Open levels, the innermost one first, rise from the margin by whole steps. -/
structure Rising (levels : List Nat) : Prop where
  margin : levels.getLast? = some 0
  falling : levels.Pairwise (· > ·)
  whole : ∀ level ∈ levels, level % Fault.indentStep = 0

/-- Tokens open and close blocks from some open levels on until others are open, and never close
more than there are beside the margin. -/
structure Opens (levels : List Nat) (tokens : List Token) (others : List Nat) : Prop where
  balanced : levels.length + balance tokens = others.length
  kept : ∀ front rest, tokens = front ++ rest → 1 ≤ levels.length + balance front

namespace Rising

variable {levels : List Nat} {line width : Nat}

theorem base : Rising [0] :=
  ⟨rfl, List.pairwise_singleton _ _, List.forall_mem_singleton.mpr rfl⟩

theorem length_pos (rising : Rising levels) : 0 < levels.length := by
  have full : levels ≠ [] := by
    rintro rfl
    cases rising.margin
  exact List.length_pos_iff.mpr full

/-- One more level is deeper than the innermost one. -/
theorem deepen {inner : Nat} {outer : List Nat} (rising : Rising (inner :: outer))
    (deeper : inner < width) (even : width % Fault.indentStep = 0) :
    Rising (width :: inner :: outer) where
  margin := rising.margin
  falling := by
    refine List.pairwise_cons.mpr ⟨List.forall_mem_cons.mpr ⟨deeper, fun level member => ?_⟩,
      rising.falling⟩
    exact ((List.pairwise_cons.mp rising.falling).1 level member).trans deeper
  whole := List.forall_mem_cons.mpr ⟨even, rising.whole⟩

/-- The levels outside some others rise from the same margin. -/
theorem outside {closed left : List Nat} (rising : Rising (closed ++ left)) (full : left ≠ []) :
    Rising left where
  margin := (List.getLast?_append_of_ne_nil closed full).symm.trans rising.margin
  falling := (List.pairwise_append.mp rising.falling).2.1
  whole level member := rising.whole level (List.mem_append_right closed member)

end Rising

namespace Opens

variable {levels others final : List Nat} {tokens later : List Token}

/-- Tokens that neither open nor close a block. -/
theorem level (full : 0 < levels.length)
    (level : ∀ token ∈ tokens, token.kind ≠ .indent ∧ token.kind ≠ .dedent) :
    Opens levels tokens levels where
  balanced := by rw [balance_of_level level, Int.add_zero]
  kept front rest split := by
    rw [balance_of_level fun token member => level token (split ▸ List.mem_append_left rest member)]
    omega

theorem append (opens : Opens levels tokens others) (more : Opens others later final) :
    Opens levels (tokens ++ later) final where
  balanced := by rw [balance_append, ← Int.add_assoc, opens.balanced, more.balanced]
  kept front rest split := by
    rcases List.append_eq_append_iff.mp split with ⟨behind, rfl, later⟩ | ⟨behind, early, _⟩
    · rw [balance_append, ← Int.add_assoc, opens.balanced]
      exact more.kept behind rest later
    · exact opens.kept front behind early

theorem indent (line width : Nat) (full : 0 < levels.length) :
    Opens levels [Token.indent line] (width :: levels) where
  balanced := rfl
  kept front rest split := by
    rcases List.append_eq_singleton_iff.mp split.symm with ⟨rfl, _⟩ | ⟨rfl, _⟩
    · rw [balance_nil]
      omega
    · change (1 : Int) ≤ _ + 1
      omega

theorem dedents (closed : List Nat) (line : Nat) (full : 0 < others.length) :
    Opens (closed ++ others) (List.replicate closed.length (Token.dedent line)) others where
  balanced := by
    rw [balance_dedents, List.length_append, Nat.cast_add]
    omega
  kept front rest split := by
    obtain ⟨fewer, same, _⟩ := List.replicate_eq_append_iff.mp split
    rw [same, balance_dedents, List.length_append, Nat.cast_add]
    omega

end Opens

/-! ## Steps of the levels -/

section

variable {levels : List Nat} {line column : Nat} {here next : List Char}
  {below : List (List Char)}

/-- Closing drops the levels deeper than a width, whether or not it then stops level with one. -/
theorem Shift.closing_eq (line : Nat) (levels : List Nat) (width : Int) :
    (closing line levels width).levels = levels.dropWhile (fun (level : Nat) => width < level) ∧
      (closing line levels width).tokens = List.replicate
        (levels.takeWhile fun (level : Nat) => width < level).length (Token.dedent line) := by
  rw [← List.map_const']
  unfold closing
  split
  · next none => exact ⟨none.symm, rfl⟩
  · next level outer left =>
      split <;> exact ⟨left.symm, rfl⟩

/-- A line at a width keeps the levels rising, and its tokens lead to the levels that it leaves,
also when it does not fit. -/
theorem Rising.ofWidth (rising : Rising levels) (line width : Nat) :
    Rising (Shift.ofWidth line levels width).levels ∧
      Opens levels (Shift.ofWidth line levels width).tokens
        (Shift.ofWidth line levels width).levels := by
  rcases ne_or_eq (width % Fault.indentStep) 0 with odd | even
  · rw [OpenBehind.ofWidth_uneven odd]
    exact ⟨rising, .level rising.length_pos (List.forall_mem_nil _)⟩
  · obtain ⟨inner, outer, rfl⟩ := List.exists_cons_of_length_pos rising.length_pos
    rcases Nat.lt_or_ge inner width with deeper | level
    · rw [OpenBehind.ofWidth_deeper even inner outer deeper]
      exact ⟨rising.deepen deeper even, .indent line width rising.length_pos⟩
    · obtain ⟨left, tokens⟩ := Shift.closing_eq line (inner :: outer) width
      rw [OpenBehind.ofWidth_level even level, left, tokens]
      have halves := List.takeWhile_append_dropWhile
        (p := fun (level : Nat) => decide ((width : Int) < level)) (l := inner :: outer)
      have stays := mem_dropWhile_deeper rising.falling width 0
      have margin := stays.mpr ⟨List.mem_of_getLast? rising.margin, Nat.zero_le width⟩
      have opens := Opens.dedents
        ((inner :: outer).takeWhile fun (level : Nat) => decide ((width : Int) < level)) line
        (List.length_pos_of_mem margin)
      rw [halves] at opens
      exact ⟨(halves.symm ▸ rising).outside (List.ne_nil_of_mem margin), opens⟩

theorem Rising.lineShift (rising : Rising levels) (line : Nat) (next : List Char) :
    Rising (Scan.lineShift line levels next).levels ∧
      Opens levels (Scan.lineShift line levels next).tokens
        (Scan.lineShift line levels next).levels := by
  cases blank : Scan.isBlankBody (next.dropWhile isIndentation) with
  | true =>
      rw [Scan.lineShift_blank blank]
      exact ⟨rising, .level rising.length_pos (List.forall_mem_nil _)⟩
  | false =>
      rw [Scan.lineShift_of_full blank]
      exact rising.ofWidth line _

/-- A scan keeps the levels rising, and its tokens lead to the levels where it ends. -/
theorem Rising.run (rising : Rising levels) (line column : Nat) (here : List Char)
    (below : List (List Char)) :
    Rising (Scan.run levels line column here below).levels ∧
      Opens levels (Scan.run levels line column here below).tokens
        (Scan.run levels line column here below).levels := by
  induction below generalizing levels line column here with
  | nil => exact ⟨rising, .level rising.length_pos Scan.level_words⟩
  | cons next below ih =>
      cases unread : Scan.unreadFailure (Words.read line column here).rest with
      | some failure =>
          rw [Scan.run_unread unread]
          exact ⟨rising, .level rising.length_pos Scan.level_words⟩
      | none =>
          obtain ⟨shifted, opens⟩ := rising.lineShift (line + 1) next
          have inLine : Opens levels ((Words.read line column here).tokens ++
              [Token.newline line (Words.read line column here).column]) levels :=
            .level rising.length_pos Scan.level_line
          rw [Scan.run_entered unread, Scan.entered]
          split
          · exact ⟨shifted, inLine.append opens⟩
          · obtain ⟨later, opensLater⟩ := ih shifted (line + 1)
              (1 + (next.takeWhile isIndentation).length) (next.dropWhile isIndentation)
            exact ⟨later, inLine.append (opens.append opensLater)⟩

/-- The end of a text closes all blocks. -/
theorem Rising.ending (rising : Rising levels) (line column : Nat) :
    levels.drop (levels.length - 1) = [0] ∧
      Opens levels (Scan.ending levels line column) [0] := by
  obtain ⟨inner, rfl⟩ := List.getLast?_eq_some_iff.mp rising.margin
  have open_blocks : ((inner ++ [0]).drop 1).length = inner.length := by simp
  rw [Scan.ending, List.map_const', open_blocks]
  have closes : Opens (inner ++ [0]) (List.replicate inner.length (Token.dedent line)) [0] :=
    .dedents inner line Nat.one_pos
  refine ⟨by simp, closes.append (.level Nat.one_pos ?_)⟩
  exact List.forall_mem_singleton.mpr (by simp [Token.newline])

end

/-! ## Calls -/

namespace Scanner

inductive Call where
  | advance
  | readNumber
  | readWord
  | readIndentation
  | shiftTo (width : Nat)
  | tokenize
  deriving DecidableEq, Repr

/-- The scanner that a call leaves behind, whether the call gives a result or fails. -/
def after (scanner : Scanner) : Call → Scanner
  | .advance => scanner.advance
  | .readNumber => scanner.readNumber.2
  | .readWord => scanner.readWord.2
  | .readIndentation => scanner.readIndentation.2
  | .shiftTo width => (scanner.shiftTo width).2
  | .tokenize => scanner.tokenize.2

def afterAll (scanner : Scanner) (calls : List Call) : Scanner :=
  calls.foldl after scanner

def Reached (scanner : Scanner) (file : Path) (text : String) : Prop :=
  ∃ calls, scanner = (ofText file text).afterAll calls

/-- A scanner stands in a text behind what it has read, with rising levels that its tokens have
opened. -/
structure Holds (scanner : Scanner) (text : String) : Prop where
  text_eq : scanner.text = text.toList
  reads : ∃ read, HasRead scanner.text read scanner.line scanner.column scanner.here scanner.below
  rising : Rising scanner.levels
  opens : Opens [0] scanner.tokens scanner.levels

variable {scanner : Scanner} {file : Path} {text : String}

theorem holds_ofText (file : Path) (text : String) : (ofText file text).Holds text where
  text_eq := rfl
  reads := ⟨[], .start text.toList⟩
  rising := .base
  opens := .level Nat.one_pos (List.forall_mem_nil _)

namespace Holds

theorem advance (holds : scanner.Holds text) : scanner.advance.Holds text := by
  obtain ⟨text_eq, ⟨read, reads⟩, rising, opens⟩ := holds
  unfold Scanner.advance
  split
  · next c rest here =>
      rw [here, ← List.singleton_append] at reads
      exact ⟨text_eq, ⟨_, reads.within⟩, rising, opens⟩
  · next next below here lower =>
      rw [here, lower] at reads
      exact ⟨text_eq, ⟨_, reads.descend⟩, rising, opens⟩
  · exact ⟨text_eq, ⟨read, reads⟩, rising, opens⟩

theorem readRun (holds : scanner.Holds text) (ofClass : Char → Bool) :
    (scanner.readRun ofClass).2.Holds text := by
  obtain ⟨text_eq, ⟨read, reads⟩, rising, opens⟩ := holds
  exact ⟨text_eq, ⟨_, reads.behind_run ofClass⟩, rising, opens⟩

theorem shiftTo (holds : scanner.Holds text) (width : Nat) :
    (scanner.shiftTo width).2.Holds text := by
  obtain ⟨text_eq, reads, rising, opens⟩ := holds
  obtain ⟨shifted, more⟩ := rising.ofWidth scanner.line width
  unfold Scanner.shiftTo
  dsimp only
  split <;> exact ⟨text_eq, reads, shifted, opens.append more⟩

theorem moveTo (holds : scanner.Holds text) :
    (scanner.moveTo (Scan.run scanner.levels scanner.line scanner.column scanner.here
      scanner.below)).Holds text := by
  obtain ⟨text_eq, ⟨read, reads⟩, rising, opens⟩ := holds
  obtain ⟨scanned, more⟩ := rising.run scanner.line scanner.column scanner.here scanner.below
  exact ⟨text_eq, reads.behind_scan scanner.levels, scanned, opens.append more⟩

theorem close (holds : scanner.Holds text) :
    scanner.close.Holds text ∧ scanner.close.levels = [0] := by
  obtain ⟨text_eq, reads, rising, opens⟩ := holds
  obtain ⟨margin, more⟩ := rising.ending scanner.line scanner.column
  have levels : scanner.close.levels = [0] := margin
  refine ⟨⟨text_eq, reads, ?_, ?_⟩, levels⟩
  · rw [levels]
    exact .base
  · rw [levels]
    exact opens.append more

theorem tokenize (holds : scanner.Holds text) : scanner.tokenize.2.Holds text := by
  unfold Scanner.tokenize
  dsimp only
  split
  · exact holds.moveTo
  · exact holds.moveTo.close.1

theorem after (holds : scanner.Holds text) (call : Call) : (scanner.after call).Holds text := by
  cases call with
  | advance => exact holds.advance
  | readNumber => exact holds.readRun Text.isDigit
  | readWord => exact holds.readRun Text.isWordPart
  | readIndentation => exact holds.readRun isIndentation
  | shiftTo width => exact holds.shiftTo width
  | tokenize => exact holds.tokenize

theorem afterAll (holds : scanner.Holds text) (calls : List Call) :
    (scanner.afterAll calls).Holds text := by
  induction calls generalizing scanner with
  | nil => exact holds
  | cons call calls ih => exact ih (holds.after call)

end Holds

/-- What can be told of a scanner of a text in every state: the place where it stands is the one
behind the characters it has read, its levels rise from the margin, and its tokens never close more
blocks than they have opened, and leave open those of its levels. -/
structure Accounts (scanner : Scanner) (text : String) : Prop where
  offset_le : scanner.offset ≤ text.length
  place : (⟨scanner.line, scanner.column⟩ : Position) =
    .behind (text.toList.take scanner.offset)
  levels : Rising scanner.levels
  blocks : balance scanner.tokens = scanner.levels.length - 1
  nested : ∀ front rest, scanner.tokens = front ++ rest → 0 ≤ balance front

theorem Holds.accounts (holds : scanner.Holds text) : scanner.Accounts text := by
  obtain ⟨text_eq, ⟨read, reads⟩, rising, opens⟩ := holds
  have whole : text.toList = read ++ scanner.unread := text_eq.symm.trans reads.split
  have offset : scanner.offset = read.length := by
    rw [Scanner.offset, text_eq, whole, List.length_append, Nat.add_sub_cancel_right]
  refine ⟨?_, ?_, rising, ?_, fun front rest split => ?_⟩
  · rw [offset, ← String.length_toList, whole, List.length_append]
    exact Nat.le_add_right _ _
  · rw [offset, whole, List.take_left, reads.place]
  · have balanced := opens.balanced
    rw [List.length_singleton] at balanced
    omega
  · have kept := opens.kept front rest split
    rw [List.length_singleton] at kept
    omega

/-- A scan that gives tokens has closed all blocks at the end of the text. -/
theorem tokenize_of_ok {tokens : List Token} (returned : scanner.tokenize.1 = .ok tokens) :
    scanner.tokenize.2 = (scanner.moveTo (Scan.run scanner.levels scanner.line scanner.column
        scanner.here scanner.below)).close ∧ tokens = scanner.tokenize.2.tokens := by
  unfold Scanner.tokenize at returned ⊢
  dsimp only at returned ⊢
  split at returned
  · cases returned
  · cases returned
    exact ⟨rfl, rfl⟩

/-- In every state that calls lead to, a scanner accounts for what it has read and found.  When it
then scans to the end of its text, all blocks are closed. -/
theorem accounts_of_reached (reached : scanner.Reached file text) :
    scanner.Accounts text ∧ ∀ tokens, scanner.tokenize.1 = .ok tokens →
      tokens = scanner.tokenize.2.tokens ∧ scanner.tokenize.2.levels = [0] ∧
        balance tokens = 0 := by
  have holds : scanner.Holds text := by
    obtain ⟨calls, rfl⟩ := reached
    exact (holds_ofText file text).afterAll calls
  refine ⟨holds.accounts, fun tokens returned => ?_⟩
  obtain ⟨final, found⟩ := tokenize_of_ok returned
  have closed : scanner.tokenize.2.levels = [0] := final ▸ holds.moveTo.close.2
  have blocks := holds.tokenize.accounts.blocks
  rw [closed, ← found] at blocks
  exact ⟨found, closed, blocks⟩

def stairText : String :=
  "x\n    y\n            z\n        w"

/-- A scan that fails when it has closed one block, and a width that is no whole number of steps. -/
def stairScanner : Scanner :=
  (ofText (Path.ofString "stair.grid") stairText).afterAll [.tokenize, .shiftTo 6]

theorem accounts_stairScanner :
    (ofText (Path.ofString "stair.grid") stairText).tokenize.1.isOk = false ∧
      stairScanner.levels = [4, 0] ∧ stairScanner.Accounts stairText ∧
      ∃ tokens, stairScanner.tokenize.1 = .ok tokens ∧ balance tokens = 0 := by
  obtain ⟨accounts, closes⟩ :=
    @accounts_of_reached stairScanner (Path.ofString "stair.grid") stairText ⟨_, rfl⟩
  obtain ⟨tokens, returned⟩ : ∃ tokens, stairScanner.tokenize.1 = .ok tokens :=
    ⟨stairScanner.tokenize.2.tokens, by decide +kernel⟩
  exact ⟨by decide +kernel, by decide +kernel, accounts, tokens, returned,
    (closes tokens returned).2.2⟩

end Scanner

end LogicPuzzle
