import LogicPuzzle.Proofs.AlikeTexts
import LogicPuzzle.Proofs.JoinedScans
import LogicPuzzle.Proofs.Layout
import LogicPuzzle.Proofs.Pieces

/-!
# Blank lines

One more line of blanks between two lines of a text opens and closes no block.
The scan of the text finds one more end of a line, and everything behind it one
line further down; and reading cannot tell two ends of lines from one.
-/

namespace LogicPuzzle

/-! ## Places in a text with one more line -/

def Position.pushed (above : Nat) (position : Position) : Position :=
  if above < position.line then position.down 1 else position

def Site.pushed (above : Nat) (site : Site) : Site :=
  { site with position := site.position.pushed above }

def pushing (above : Nat) : Relocation where
  token found := { found with position := found.position.pushed above }
  position := Position.pushed above
  kind_token _ := rfl
  text_token _ := rfl
  position_token _ _ := rfl

def Token.isAbove (above : Nat) (token : Token) : Bool :=
  token.position.line ≤ (above : Int)

/-- The tokens of a text that gets one more line, which is blank and as long as the column says. -/
def withEmptyLine (above column : Nat) (tokens : List Token) : List Token :=
  tokens.takeWhile (Token.isAbove above) ++ Token.newline (above + 1) column ::
    (tokens.dropWhile (Token.isAbove above)).map (Token.down 1)

theorem Position.pushed_of_le {above : Nat} {position : Position}
    (inside : position.line ≤ above) : position.pushed above = position :=
  if_neg (Int.not_lt.mpr inside)

theorem Position.pushed_of_lt {above : Nat} {position : Position}
    (beyond : above < position.line) : position.pushed above = position.down 1 :=
  if_pos beyond

section Halves

variable {above : Nat} {front back : List Token}
  (inside : ∀ token ∈ front, token.position.line ≤ above)
  (beyond : ∀ token ∈ back, above < token.position.line)
include inside beyond

theorem map_pushing_append :
    (front ++ back).map (pushing above).token = front ++ back.map (Token.down 1) := by
  have frontSame : front.map (pushing above).token = front.map id := by
    refine List.map_congr_left fun token member => ?_
    exact congrArg (Token.mk _ _) (Position.pushed_of_le (inside token member))
  have backDown : back.map (pushing above).token = back.map (Token.down 1) := by
    refine List.map_congr_left fun token member => ?_
    exact congrArg (Token.mk _ _) (Position.pushed_of_lt (beyond token member))
  rw [List.map_append, frontSame, backDown, List.map_id]

theorem withEmptyLine_append (column : Nat) :
    withEmptyLine above column (front ++ back) =
      front ++ Token.newline (above + 1) column :: back.map (Token.down 1) := by
  have taken : ∀ token ∈ front, token.isAbove above = true :=
    fun token member => decide_eq_true (inside token member)
  rw [withEmptyLine, List.takeWhile_append_of_pos taken, List.dropWhile_append_of_pos taken]
  cases back with
  | nil => rw [List.takeWhile_nil, List.append_nil, List.dropWhile_nil]
  | cons token back =>
      have left : ¬ token.isAbove above = true :=
        fun claimed => Int.not_lt.mpr (of_decide_eq_true claimed) (beyond _ List.mem_cons_self)
      rw [List.takeWhile_cons_of_neg left, List.dropWhile_cons_of_neg left, List.append_nil]

end Halves

/-- The lines that messages show are the same ones. -/
theorem Scanner.lineOf?_pushed {front back : List (List Char)} {blank text longer : List Char}
    (lines : Text.lines text = front ++ back)
    (longerLines : Text.lines longer = front ++ blank :: back) (position : Position) :
    lineOf? longer (position.pushed front.length).line = lineOf? text position.line := by
  rw [lineOf?, lineOf?, lines, longerLines]
  rcases lt_or_ge (front.length : Int) position.line with beyond | inside
  · have lower : ((position.line + 1 : Int) - 1).toNat = (position.line - 1).toNat + 1 := by omega
    have outside : front.length ≤ (position.line - 1).toNat := by omega
    rw [Position.pushed_of_lt beyond, if_pos (by change 1 ≤ position.line + 1; omega),
      if_pos (by omega)]
    change (front ++ blank :: back)[(position.line + 1 - 1).toNat]?.map _ = _
    rw [lower, List.getElem?_append_right outside,
      List.getElem?_append_right (outside.trans (Nat.le_succ _)), Nat.succ_sub outside,
      List.getElem?_cons_succ]
  · rw [Position.pushed_of_le inside]
    split
    · next positive =>
        have within : (position.line - 1).toNat < front.length := by omega
        rw [List.getElem?_append_left within, List.getElem?_append_left within]
    · rfl

/-! ## Lines of tokens -/

namespace Scan

variable {levels : List Nat} {line column above width : Nat} {here next blank : List Char}
  {below more : List (List Char)} {tokens : List Token} {scan wider : Scan}

theorem line_lineShift : ∀ token ∈ (lineShift line levels next).tokens,
    token.position.line = line := by
  intro token member
  rcases mem_lineShift member with rfl | rfl <;> rfl

theorem line_ending : ∀ token ∈ ending levels line column, token.position.line = line := by
  intro token member
  rcases List.mem_append.mp member with dedent | newline
  · obtain ⟨_, _, rfl⟩ := List.mem_map.mp dedent
    rfl
  · rw [List.mem_singleton.mp newline]
    rfl

/-- The words of a line and its end. -/
theorem line_words {last : Nat} :
    ∀ token ∈ (Words.read line column here).tokens ++ [Token.newline line last],
      token.position.line = line := by
  intro token member
  rcases List.mem_append.mp member with word | newline
  · exact Words.line_read _ _ _ token word
  · rw [List.mem_singleton.mp newline]
    rfl

structure StartsAt (line : Nat) (scan : Scan) : Prop where
  line_le : line ≤ scan.line
  tokens_le : ∀ token ∈ scan.tokens, (line : Int) ≤ token.position.line

theorem StartsAt.behind (starts : StartsAt line scan) {upper : Nat} (lower : upper ≤ line)
    (same : ∀ token ∈ tokens, token.position.line = upper) :
    StartsAt upper { scan with tokens := tokens ++ scan.tokens } where
  line_le := lower.trans starts.line_le
  tokens_le := by
    refine List.forall_mem_append.mpr ⟨fun token member => (same token member).ge, ?_⟩
    intro token member
    exact (Int.ofNat_le.mpr lower).trans (starts.tokens_le token member)

theorem entered_startsAt
    (runs : ∀ levels column here, StartsAt line (run levels line column here below)) :
    StartsAt line (entered levels line next below) := by
  rw [entered]
  split
  · exact ⟨Nat.le_refl _, fun token member => (line_lineShift token member).ge⟩
  · exact (runs _ _ _).behind (Nat.le_refl _) line_lineShift

theorem run_startsAt (levels : List Nat) (line column : Nat) (here : List Char)
    (below : List (List Char)) : StartsAt line (run levels line column here below) := by
  induction below generalizing levels line column here with
  | nil => exact ⟨Nat.le_refl _, fun token member => (Words.line_read _ _ _ token member).ge⟩
  | cons next below ih =>
      cases unread : unreadFailure (Words.read line column here).rest with
      | some failure =>
          rw [run_unread unread]
          exact ⟨Nat.le_refl _, fun token member => (Words.line_read _ _ _ token member).ge⟩
      | none =>
          rw [run_entered unread]
          exact (entered_startsAt fun levels => ih levels (line + 1)).behind (Nat.le_succ _)
            line_words

/-! ## Scanning over a blank line -/

/-- Two scans that fail alike in the first lines; or the second one finds one more end of a line
behind these lines, and goes on one line further down. -/
inductive Widens (above column : Nat) (scan wider : Scan) : Prop where
  | fails {failure : Failure} (inside : scan.line ≤ above) (failed : scan.failure = some failure)
      (line : wider.line = scan.line) (place : wider.column = scan.column)
      (failure : wider.failure = scan.failure)
  | goesOn {front back : List Token} {last : Token} (ends : last.kind = .newline)
      (inside : ∀ token ∈ front ++ [last], token.position.line ≤ above)
      (beyond : ∀ token ∈ back, above < token.position.line) (lower : above < scan.line)
      (found : scan.tokens = front ++ [last] ++ back)
      (tokens : wider.tokens = front ++ [last] ++
        Token.newline (above + 1) column :: back.map (Token.down 1))
      (line : wider.line = scan.line + 1) (place : wider.column = scan.column)
      (levels : wider.levels = scan.levels) (failure : wider.failure = scan.failure)

theorem Widens.behind (widens : Widens above column scan wider)
    (inside : ∀ token ∈ tokens, token.position.line ≤ above) :
    Widens above column { scan with tokens := tokens ++ scan.tokens }
      { wider with tokens := tokens ++ wider.tokens } := by
  cases widens with
  | fails insideLine failed line place failure =>
      exact .fails insideLine failed line place failure
  | @goesOn front back last ends frontInside beyond lower found widerTokens line place levels
      failure =>
      have longerInside : ∀ token ∈ (tokens ++ front) ++ [last], token.position.line ≤ above := by
        rw [List.append_assoc]
        exact List.forall_mem_append.mpr ⟨inside, frontInside⟩
      refine .goesOn ends longerInside beyond lower ?_ ?_ line place levels failure
      · rw [found, List.append_assoc, List.append_assoc, List.append_assoc]
      · rw [widerTokens, List.append_assoc, List.append_assoc, List.append_assoc]

theorem entered_down (lines line : Nat) (levels : List Nat) (next : List Char)
    (below : List (List Char)) :
    entered levels (line + lines) next below = { entered levels line next below with
      tokens := (entered levels line next below).tokens.map (Token.down lines)
      line := (entered levels line next below).line + lines } := by
  rw [entered, entered, lineShift_down]
  cases (lineShift line levels next).failure with
  | some failure => rfl
  | none =>
      simp only [fromLine, lineShift_down, run_down, List.map_append]

/-- A blank line leaves nothing but its end. -/
theorem entered_blank (empty : isBlankBody (blank.dropWhile isIndentation) = true) (line : Nat)
    (levels : List Nat) (next : List Char) (more : List (List Char)) :
    entered levels line blank (next :: more) = { entered levels (line + 1) next more with
      tokens := Token.newline line (1 + blank.length) ::
        (entered levels (line + 1) next more).tokens } := by
  have wordless := read_blank empty line (1 + (blank.takeWhile isIndentation).length)
  have whole : unreadFailure (Words.read line (1 + (blank.takeWhile isIndentation).length)
      (blank.dropWhile isIndentation)).rest = none := by
    rw [wordless]
    rfl
  have width : (blank.takeWhile isIndentation).length + (blank.dropWhile isIndentation).length =
      blank.length := by
    rw [← List.length_append, List.takeWhile_append_dropWhile]
  rw [entered]
  simp only [fromLine, lineShift_blank empty, run_entered whole, wordless, Nat.add_assoc, width]
  rfl

theorem entered_widens {wideBelow : List (List Char)} (inside : line ≤ above)
    (widens : ∀ levels column here, Widens above width (run levels line column here below)
      (run levels line column here wideBelow)) :
    Widens above width (entered levels line next below) (entered levels line next wideBelow) := by
  rw [entered, entered]
  cases failed : (lineShift line levels next).failure with
  | some failure => exact .fails inside rfl rfl rfl rfl
  | none =>
      refine (widens _ _ _).behind fun token member => ?_
      rw [line_lineShift token member]
      exact Int.ofNat_le.mpr inside

/-- A blank line behind some others. -/
theorem run_widens (empty : isBlankBody (blank.dropWhile isIndentation) = true)
    (levels : List Nat) (line column : Nat) (here next : List Char)
    (below more : List (List Char)) :
    Widens (line + below.length) (1 + blank.length)
      (run levels line column here (below ++ next :: more))
      (run levels line column here (below ++ blank :: next :: more)) := by
  induction below generalizing levels line column here with
  | nil =>
      cases unread : unreadFailure (Words.read line column here).rest with
      | some failure =>
          rw [List.nil_append, List.nil_append, run_unread unread, run_unread unread]
          exact .fails (Nat.le_refl _) rfl rfl rfl rfl
      | none =>
          have starts : StartsAt (line + 1) (entered levels (line + 1) next more) :=
            entered_startsAt fun levels column here => run_startsAt levels _ column here more
          rw [List.nil_append, List.nil_append, run_entered unread, run_entered unread,
            entered_blank empty, entered_down 1 (line + 1)]
          exact .goesOn rfl (fun token member => (line_words token member).le) starts.tokens_le
            starts.line_le rfl rfl rfl rfl rfl rfl
  | cons first below ih =>
      have above : line + (below.length + 1) = line + 1 + below.length := by omega
      rw [List.length_cons, above, List.cons_append, List.cons_append]
      cases unread : unreadFailure (Words.read line column here).rest with
      | some failure =>
          rw [run_unread unread, run_unread unread]
          exact .fails (by change line ≤ _; omega) rfl rfl rfl rfl
      | none =>
          rw [run_entered unread, run_entered unread]
          refine Widens.behind ?_ ?_
          · refine entered_widens (Nat.le_add_right _ _) fun levels column here => ?_
            exact ih levels (line + 1) column here
          · intro token member
            rw [line_words token member]
            omega

end Scan

/-! ## Whole texts -/

/-- A text, and the same text with a blank line between two of its lines. -/
structure Inserts (text longer : String) (front back : List (List Char)) (blank : List Char) :
    Prop where
  empty : Scan.isBlankBody (blank.dropWhile isIndentation) = true
  frontFull : front ≠ []
  backFull : back ≠ []
  lines : Text.lines text.toList = front ++ back
  longerLines : Text.lines longer.toList = front ++ blank :: back

namespace Inserts

open Reading

variable {file : Path} {text longer : String} {front back : List (List Char)} {blank : List Char}
  {tokens : List Token}

theorem widens (inserts : Inserts text longer front back blank) :
    Scan.Widens front.length (1 + blank.length) (Scan.ofText text.toList)
      (Scan.ofText longer.toList) := by
  obtain ⟨here, below, rfl⟩ := List.exists_cons_of_ne_nil inserts.frontFull
  obtain ⟨next, more, rfl⟩ := List.exists_cons_of_ne_nil inserts.backFull
  obtain ⟨first, others⟩ := List.cons.inj inserts.lines
  obtain ⟨longerFirst, longerOthers⟩ := List.cons.inj inserts.longerLines
  rw [Scan.ofText, Scan.ofText, first, others, longerFirst, longerOthers, List.length_cons,
    Nat.add_comm]
  exact Scan.run_widens inserts.empty [0] 1 1 here next below more

/-- The place where a scan of the text fails. -/
theorem site_pushed (inserts : Inserts text longer front back blank) (file : Path)
    {scan wider : Scan}
    (place : (⟨wider.line, wider.column⟩ : Position) =
      (⟨scan.line, scan.column⟩ : Position).pushed front.length) :
    wider.site file longer = (scan.site file text).pushed front.length := by
  have shown := Scanner.lineOf?_pushed inserts.lines inserts.longerLines
    ⟨scan.line, scan.column⟩
  rw [← place] at shown
  rw [Scan.site, Scan.site, Site.pushed, place, shown]

theorem tokenize_error (inserts : Inserts text longer front back blank) {failure : Failure}
    (failed : tokenize file text = .error failure) :
    tokenize file longer = .error (failure.resited (Site.pushed front.length)) := by
  have fails : ∃ cause, (Scan.ofText text.toList).failure = some cause ∧
      failure = cause.placedAt ((Scan.ofText text.toList).site file text) := by
    rw [Scan.tokenize_eq] at failed
    split at failed
    · next cause found =>
        cases failed
        exact ⟨cause, found, rfl⟩
    · cases failed
  obtain ⟨cause, found, rfl⟩ := fails
  have resited (site : Site) : (cause.placedAt site).resited (Site.pushed front.length) =
      cause.placedAt (site.pushed front.length) := by
    cases cause <;> rfl
  rw [resited, Scan.tokenize_eq]
  cases inserts.widens with
  | fails inside _ line place failure =>
      rw [failure, found, ← inserts.site_pushed file]
      rw [Position.pushed_of_le (Int.ofNat_le.mpr inside), line, place]
  | goesOn _ _ _ lower _ _ line place _ failure =>
      rw [failure, found, ← inserts.site_pushed file]
      rw [Position.pushed_of_lt (Int.ofNat_lt.mpr lower), line, place]
      rfl

/-- The tokens of the text in front of the blank line and behind it. -/
theorem exists_halves (inserts : Inserts text longer front back blank)
    (scanned : tokenize file text = .ok tokens) :
    ∃ upper last lower, tokens = upper ++ [last] ++ lower ∧ last.kind = .newline ∧ lower ≠ [] ∧
      (∀ token ∈ upper ++ [last], token.position.line ≤ (front.length : Int)) ∧
      (∀ token ∈ lower, (front.length : Int) < token.position.line) ∧
      tokenize file longer = .ok (upper ++ [last] ++
        Token.newline (front.length + 1) (1 + blank.length) :: lower.map (Token.down 1)) := by
  rcases Scan.tokenize_ok_iff.mp scanned with ⟨passes, rfl⟩
  cases inserts.widens with
  | fails _ failed =>
      rw [passes] at failed
      cases failed
  | @goesOn upper found last ends inside beyond lower tokens widerTokens line place levels
      failure =>
      refine ⟨upper, last, found ++ Scan.ending (Scan.ofText text.toList).levels
        (Scan.ofText text.toList).line (Scan.ofText text.toList).column, ?_, ends, ?_, inside, ?_,
        ?_⟩
      · rw [Scan.finished, tokens, List.append_assoc]
      · simp [Scan.ending]
      · refine List.forall_mem_append.mpr ⟨beyond, fun token member => ?_⟩
        rw [Scan.line_ending token member]
        exact Int.ofNat_lt.mpr lower
      · refine Scan.tokenize_ok_iff.mpr ⟨failure.trans passes, ?_⟩
        rw [Scan.finished, widerTokens, line, place, levels, Scan.ending_down, List.map_append,
          List.append_assoc, List.cons_append]

/-- A blank line gives one more end of a line, and nothing else. -/
theorem tokenize_longer (inserts : Inserts text longer front back blank) (file : Path) :
    tokenize file longer =
      ((tokenize file text).map (withEmptyLine front.length (1 + blank.length))).mapError
        (Failure.resited (Site.pushed front.length)) := by
  cases scanned : tokenize file text with
  | error failure => exact inserts.tokenize_error scanned
  | ok tokens =>
      obtain ⟨upper, last, lower, rfl, _, _, inside, beyond, longerScanned⟩ :=
        inserts.exists_halves scanned
      rw [longerScanned, ← withEmptyLine_append inside beyond]
      rfl

/-- The text is read alike with the blank line. -/
theorem alike (inserts : Inserts text longer front back blank)
    (scanned : tokenize file text = .ok tokens) :
    ∃ others, Alike file longer text .identity (pushing front.length) id
      (Site.pushed front.length) others tokens := by
  obtain ⟨upper, last, lower, rfl, ends, full, inside, beyond, longerScanned⟩ :=
    inserts.exists_halves scanned
  refine ⟨_, longerScanned, scanned, by simp, ?_, ?_, ?_, ?_⟩
  · rw [Relocation.tokens, Relocation.tokens, map_pushing_append inside beyond]
    change singleEnds (List.map id _) = _
    rw [List.map_id, List.append_assoc, List.append_assoc]
    exact singleEnds_again ends rfl
  · have moved : lower.map (Token.down 1) ≠ [] := mt List.map_eq_nil_iff.mp full
    change Option.map id _ = _
    rw [Option.map_id_apply, ← List.getLast?_map, map_pushing_append inside beyond,
      List.append_cons, List.getLast?_append_of_ne_nil _ moved,
      List.getLast?_append_of_ne_nil _ moved]
  · rintro one two rfl
    have shown := Scanner.lineOf?_pushed inserts.lines inserts.longerLines two.position
    exact congrArg (Site.mk file _) shown
  · rintro one two rfl
    change (two.position.pushed _).line = (Position.pushed _ _).line
    rw [Position.pushed, Position.pushed]
    split <;> rfl

theorem readPuzzle_longer (inserts : Inserts text longer front back blank) (file : Path) :
    readPuzzle file longer = readMoved (Position.pushed front.length) (Site.pushed front.length)
      (readPuzzle file text) := by
  cases scanned : tokenize file text with
  | error failure =>
      rw [readPuzzle, readPuzzle, inserts.tokenize_error scanned, scanned]
      rfl
  | ok tokens =>
      obtain ⟨others, alike⟩ := inserts.alike scanned
      have read := alike.readPuzzle
      rwa [Relocation.identity, readMoved_id_id] at read

end Inserts

theorem Scan.isBlankBody_of_indents {indent ending : List Char}
    (indents : ∀ c ∈ indent, c = ' ' ∨ c = '\t') (ends : ending = [] ∨ ending = ['\r']) :
    isBlankBody ((indent ++ ending).dropWhile isIndentation) = true := by
  have blanks : ∀ c ∈ indent, isIndentation c = true := by
    intro c member
    rcases indents c member with rfl | rfl <;> rfl
  rw [List.dropWhile_append_of_pos blanks]
  rcases ends with rfl | rfl <;> rfl

theorem inserts_blankLine {before indent ending after : String}
    (indents : ∀ c ∈ indent.toList, c = ' ' ∨ c = '\t') (ends : ending = "" ∨ ending = "\r") :
    Inserts (before ++ "\n" ++ after) (before ++ "\n" ++ (indent ++ ending) ++ "\n" ++ after)
      (Text.lines before.toList) (Text.lines after.toList) (indent ++ ending).toList := by
  have newline : "\n".toList = ['\n'] := rfl
  have endsBlank : ending.toList = [] ∨ ending.toList = ['\r'] := by
    rcases ends with rfl | rfl
    · exact .inl rfl
    · exact .inr rfl
  have unbroken : '\n' ∉ indent.toList ++ ending.toList := by
    intro member
    rcases List.mem_append.mp member with inside | inside
    · rcases indents _ inside with impossible | impossible <;> cases impossible
    · rcases endsBlank with same | same <;> simp [same] at inside
  refine ⟨?_, List.cons_ne_nil _ _, List.cons_ne_nil _ _, ?_, ?_⟩
  · rw [String.toList_append]
    exact Scan.isBlankBody_of_indents indents endsBlank
  · rw [String.toList_append, String.toList_append, newline, List.append_assoc,
      List.singleton_append, Text.lines_append]
  · simp only [String.toList_append, newline, List.append_assoc, List.singleton_append]
    rw [List.cons_append, Text.lines_append, lines_append_newline unbroken]

/-- A blank line behind any newline of a text is neutral: its end is one more token, and what
stands below it moves down one line. -/
theorem reads_blankLine (file : Path) {before indent ending after : String}
    (indents : ∀ c ∈ indent.toList, c = ' ' ∨ c = '\t') (ends : ending = "" ∨ ending = "\r") :
    tokenize file (before ++ "\n" ++ (indent ++ ending) ++ "\n" ++ after) =
        ((tokenize file (before ++ "\n" ++ after)).map
          (withEmptyLine (Text.lines before.toList).length
            (1 + (indent ++ ending).length))).mapError
          (Failure.resited (Site.pushed (Text.lines before.toList).length)) ∧
      readPuzzle file (before ++ "\n" ++ (indent ++ ending) ++ "\n" ++ after) =
        readMoved (Position.pushed (Text.lines before.toList).length)
          (Site.pushed (Text.lines before.toList).length)
          (readPuzzle file (before ++ "\n" ++ after)) := by
  have inserts := @inserts_blankLine before indent ending after indents ends
  rw [← String.length_toList]
  exact ⟨inserts.tokenize_longer file, inserts.readPuzzle_longer file⟩

def guardText : String :=
  "Hue = \x7bred, blue\x7d\nvar Lamp : Hue\nLamp = red =>"

def blockText : String :=
  "    Lamp = blue\n"

theorem reads_blankLine_block :
    (∀ c ∈ "  \t ".toList, c = ' ' ∨ c = '\t') ∧ ("\r" = "" ∨ "\r" = "\r") ∧
      tokenize (Path.ofString "lamp.puzzle")
          (guardText ++ "\n" ++ ("  \t " ++ "\r") ++ "\n" ++ blockText) =
        ((tokenize (Path.ofString "lamp.puzzle") (guardText ++ "\n" ++ blockText)).map
          (withEmptyLine (Text.lines guardText.toList).length
            (1 + ("  \t " ++ "\r").length))).mapError
          (Failure.resited (Site.pushed (Text.lines guardText.toList).length)) ∧
      readPuzzle (Path.ofString "lamp.puzzle")
          (guardText ++ "\n" ++ ("  \t " ++ "\r") ++ "\n" ++ blockText) =
        readMoved (Position.pushed (Text.lines guardText.toList).length)
          (Site.pushed (Text.lines guardText.toList).length)
          (readPuzzle (Path.ofString "lamp.puzzle") (guardText ++ "\n" ++ blockText)) := by
  have characters : "  \t ".toList = [' ', ' ', '\t', ' '] := by decide +kernel
  have indents : ∀ c ∈ "  \t ".toList, c = ' ' ∨ c = '\t' := by simp [characters]
  have ends : "\r" = "" ∨ "\r" = "\r" := .inr rfl
  exact ⟨indents, ends, reads_blankLine (Path.ofString "lamp.puzzle") indents ends⟩

end LogicPuzzle
