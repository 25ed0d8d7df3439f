import LogicPuzzle.Proofs.AlikeTexts
import LogicPuzzle.Proofs.JoinedScans
import LogicPuzzle.Proofs.Pieces

/-!
# Line endings

A carriage return before a newline is a gap at the end of its line.  It puts the
end of the line one column further right and changes nothing else, neither in
the tokens of a text nor in the puzzle that is read from it.
-/

namespace LogicPuzzle

/-! ## Lines -/

namespace Text

def withReturns (text : String) : String :=
  String.ofList (text.toList.flatMap fun c => if c = '\n' then ['\r', '\n'] else [c])

def returnedLine (line : List Char) : List (List Char) → List Char
  | [] => line
  | _ :: _ => line ++ ['\r']

def returnedLines : List (List Char) → List (List Char)
  | [] => []
  | line :: below => returnedLine line below :: returnedLines below

theorem returnedLines_lines_cons (c : Char) (line : List Char) (below : List (List Char)) :
    returnedLines ((c :: line) :: below) =
      (c :: returnedLine line below) :: returnedLines below := by
  cases below <;> rfl

theorem lines_withReturns (text : String) :
    lines (withReturns text).toList = returnedLines (lines text.toList) := by
  rw [withReturns, String.toList_ofList]
  generalize text.toList = cs
  induction cs with
  | nil => rfl
  | cons c cs ih =>
      rw [List.flatMap_cons]
      rcases eq_or_ne c '\n' with rfl | other
      · have carriage : '\r' ≠ '\n' := by decide
        rw [if_pos rfl, List.cons_append, List.singleton_append, lines_cons_of_ne carriage,
          lines_cons_newline, returnedLines, ← ih]
        rfl
      · rw [if_neg other, List.singleton_append, lines_cons_of_ne other, lines_cons_of_ne other,
          returnedLines_lines_cons]
        obtain ⟨first, others⟩ := List.cons.inj ih
        rw [first, others]

theorem trimReturns_append_return (line : List Char) :
    trimReturns (line ++ ['\r']) = trimReturns line := by
  rw [trimReturns, trimReturns, List.reverse_append]
  rfl

theorem trimReturns_returnedLine (line : List Char) (below : List (List Char)) :
    trimReturns (returnedLine line below) = trimReturns line := by
  cases below with
  | nil => rfl
  | cons => exact trimReturns_append_return line

theorem getElem?_returnedLines (lines : List (List Char)) (place : Nat) :
    (returnedLines lines)[place]?.map trimReturns = lines[place]?.map trimReturns := by
  induction lines generalizing place with
  | nil => rfl
  | cons line below ih =>
      cases place with
      | zero => exact congrArg some (trimReturns_returnedLine line below)
      | succ place => exact ih place

end Text

/-- The lines that are shown in messages stay the same. -/
theorem Scanner.lineOf?_withReturns (text : String) (line : Int) :
    lineOf? (Text.withReturns text).toList line = lineOf? text.toList line := by
  have same := Text.getElem?_returnedLines (Text.lines text.toList) (line - 1).toNat
  rw [lineOf?, lineOf?, Text.lines_withReturns]
  split
  · have shown := congrArg (Option.map String.ofList) same
    rwa [Option.map_map, Option.map_map] at shown
  · rfl

/-! ## Scanning -/

/-- A token of a text with carriage returns: the end of a line above the last one stands a
column further right. -/
def Token.returned (last : Nat) (token : Token) : Token :=
  if token.kind = .newline ∧ token.position.line < last then
    { token with position := { token.position with column := token.position.column + 1 } }
  else token

theorem Token.returned_of_ne {token : Token} (other : token.kind ≠ .newline) (last : Nat) :
    token.returned last = token :=
  if_neg fun both => other both.1

theorem Token.map_returned {tokens : List Token} (others : ∀ token ∈ tokens, token.kind ≠ .newline)
    (last : Nat) : tokens.map (Token.returned last) = tokens := by
  have same : tokens.map (Token.returned last) = tokens.map id :=
    List.map_congr_left fun token member => returned_of_ne (others token member) last
  rwa [List.map_id] at same

theorem Token.returned_newline {line last : Nat} (above : line < last) (column : Nat) :
    (newline line column).returned last = newline line (column + 1) :=
  if_pos ⟨rfl, Int.ofNat_lt.mpr above⟩

theorem Token.returned_newline_last (line column : Nat) :
    (newline line column).returned line = newline line column :=
  if_neg fun both => absurd both.2 (Int.lt_irrefl _)

theorem follows_return (rest : List Char) : Follows rest (rest ++ ['\r']) := by
  cases rest with
  | nil =>
      intro c next
      cases next
      exact .inl (by decide)
  | cons d rest => exact fun c next => .inr next

/-- A carriage return behind a line is a gap, unless the line is not cut to its end. -/
theorem Words.read_return (line column : Nat) (cs : List Char) :
    read line column (cs ++ ['\r']) =
      match (read line column cs).rest with
      | [] => ⟨(read line column cs).tokens, (read line column cs).column + 1, []⟩
      | c :: rest =>
          ⟨(read line column cs).tokens, (read line column cs).column, c :: rest ++ ['\r']⟩ := by
  fun_induction read line column cs with
  | case1 column cs unfound =>
      cases cs with
      | nil =>
          have carriage : Piece.first? ['\r'] = some ⟨none, ['\r'], []⟩ := rfl
          rw [List.nil_append, Cuts.read_piece carriage]
          exact read_none unfound _ _
      | cons c cs =>
          exact read_none (Piece.first?_none_append unfound (follows_return [])) _ _
  | case2 column cs piece found later gap ih =>
      have longer := Piece.first?_replace found (follows_return piece.rest)
      rw [← List.append_assoc, (Piece.first?_text_append_rest found).1] at longer
      rw [Cuts.read_piece longer, gap]
      exact ih
  | case3 column cs piece found later kind word ih =>
      have longer := Piece.first?_replace found (follows_return piece.rest)
      rw [← List.append_assoc, (Piece.first?_text_append_rest found).1] at longer
      rw [Cuts.read_piece longer, word]
      simp only [ih, later]
      split <;> rfl

theorem Words.tokens_returned (line column last : Nat) (cs : List Char) :
    (read line column cs).tokens.map (Token.returned last) = (read line column cs).tokens := by
  refine Token.map_returned (fun token member ends => ?_) last
  have noLayout := isLayout_read line column cs token member
  rw [ends] at noLayout
  cases noLayout

namespace Scan

theorem takeWhile_returnedLine (line : List Char) (below : List (List Char)) :
    (Text.returnedLine line below).takeWhile isIndentation = line.takeWhile isIndentation ∧
      (Text.returnedLine line below).dropWhile isIndentation =
        Text.returnedLine (line.dropWhile isIndentation) below := by
  cases below with
  | nil => exact ⟨rfl, rfl⟩
  | cons =>
      have stops : ∀ c ∈ (line.dropWhile isIndentation ++ ['\r']).head?,
          isIndentation c = false := by
        intro c next
        cases body : line.dropWhile isIndentation with
        | nil =>
            rw [body] at next
            cases next
            rfl
        | cons d body' =>
            rw [body] at next
            have stop := dropWhile_stops isIndentation line c
            rw [body] at stop
            exact stop next
      have cut := takeWhile_stops
        (fun c member => List.mem_takeWhile_imp (p := isIndentation) (l := line) member) stops
      rwa [← List.append_assoc, List.takeWhile_append_dropWhile] at cut

theorem isBlankBody_returnedLine {body : List Char} (bare : '\r' ∉ body)
    (below : List (List Char)) :
    isBlankBody (Text.returnedLine body below) = isBlankBody body := by
  cases below with
  | nil => rfl
  | cons =>
      cases body with
      | nil => rfl
      | cons c body =>
          have other : (c == '\r') = false :=
            beq_eq_false_iff_ne.mpr fun same => bare (same ▸ List.mem_cons_self)
          simp [Text.returnedLine, isBlankBody, other]

theorem lineShift_returnedLine {next : List Char} (bare : '\r' ∉ next) (line : Nat)
    (levels : List Nat) (below : List (List Char)) :
    lineShift line levels (Text.returnedLine next below) = lineShift line levels next := by
  obtain ⟨width, body⟩ := takeWhile_returnedLine next below
  have bodyBare : '\r' ∉ next.dropWhile isIndentation :=
    fun member => bare (List.dropWhile_subset _ member)
  rw [lineShift, lineShift, width, body, isBlankBody_returnedLine bodyBare]

theorem tokens_lineShift_returned (line last : Nat) (levels : List Nat) (characters : List Char) :
    (lineShift line levels characters).tokens.map (Token.returned last) =
      (lineShift line levels characters).tokens := by
  refine Token.map_returned (fun token member ends => ?_) last
  rcases mem_lineShift member with rfl | rfl <;> cases ends

/-- Two scans that stop alike; the second one finds the ends of lines a column further right. -/
structure Returns (last : Nat) (scan returned : Scan) : Prop where
  tokens : returned.tokens = scan.tokens.map (Token.returned last)
  line : returned.line = scan.line
  column : returned.column = scan.column
  levels : returned.levels = scan.levels
  failure : returned.failure = scan.failure

theorem unreadFailure_read_return (line column : Nat) (cs : List Char) :
    unreadFailure (Words.read line column (cs ++ ['\r'])).rest =
      unreadFailure (Words.read line column cs).rest := by
  rw [Words.read_return]
  split
  · next read => rw [read]
  · next read =>
      rw [read]
      rfl

theorem Returns.behind {last : Nat} {scan returned : Scan} (returns : Returns last scan returned)
    {tokens returnedTokens : List Token}
    (alike : returnedTokens = tokens.map (Token.returned last)) :
    Returns last { scan with tokens := tokens ++ scan.tokens }
      { returned with tokens := returnedTokens ++ returned.tokens } where
  tokens := by rw [returns.tokens, alike, List.map_append]
  line := returns.line
  column := returns.column
  levels := returns.levels
  failure := returns.failure

/-- A line with a carriage return is entered alike when the scans from its body on are alike. -/
theorem entered_returned {next : List Char} (bare : '\r' ∉ next) {last line : Nat}
    {levels : List Nat} {below : List (List Char)}
    (alike : ∀ levels column here, Returns last (run levels line column here below)
      (run levels line column (Text.returnedLine here below) (Text.returnedLines below))) :
    Returns last (entered levels line next below)
      (entered levels line (Text.returnedLine next below) (Text.returnedLines below)) := by
  have shiftTokens := tokens_lineShift_returned line last levels next
  obtain ⟨width, body⟩ := takeWhile_returnedLine next below
  rw [entered, entered, lineShift_returnedLine bare]
  cases (lineShift line levels next).failure with
  | some failure =>
      refine ⟨shiftTokens.symm, rfl, ?_, rfl, rfl⟩
      exact congrArg (1 + List.length ·) width
  | none =>
      simp only [fromLine, lineShift_returnedLine bare, width, body]
      exact (alike _ _ _).behind shiftTokens.symm

/-- The words of a line that is cut to its end, and the end of the line. -/
theorem line_returned {line last : Nat} (above : line < last) (column : Nat) {here : List Char}
    (whole : unreadFailure (Words.read line column here).rest = none) :
    (Words.read line column (here ++ ['\r'])).tokens ++
        [Token.newline line (Words.read line column (here ++ ['\r'])).column] =
      ((Words.read line column here).tokens ++
        [Token.newline line (Words.read line column here).column]).map (Token.returned last) := by
  rw [Words.read_return, rest_eq_nil_of_whole whole, List.map_append, Words.tokens_returned,
    List.map_singleton, Token.returned_newline above]

theorem run_returned {last : Nat} {below : List (List Char)}
    (bare : ∀ next ∈ below, '\r' ∉ next) (levels : List Nat) (line column : Nat)
    (here : List Char) (ends : line + below.length = last) :
    Returns last (run levels line column here below)
      (run levels line column (Text.returnedLine here below) (Text.returnedLines below)) := by
  induction below generalizing levels line column here with
  | nil => exact ⟨(Words.tokens_returned ..).symm, rfl, rfl, rfl, rfl⟩
  | cons next below ih =>
      obtain ⟨nextBare, belowBare⟩ := List.forall_mem_cons.mp bare
      rw [List.length_cons] at ends
      have unreadAlike := unreadFailure_read_return line column here
      rw [Text.returnedLines, Text.returnedLine]
      cases unread : unreadFailure (Words.read line column here).rest with
      | some failure =>
          rw [unread] at unreadAlike
          rw [run_unread unread, run_unread unreadAlike, Words.read_return]
          split
          · next empty =>
              rw [empty] at unread
              cases unread
          · exact ⟨(Words.tokens_returned ..).symm, rfl, rfl, rfl, rfl⟩
      | none =>
          rw [unread] at unreadAlike
          rw [run_entered unread, run_entered unreadAlike]
          refine Returns.behind ?_ (line_returned (by omega) column unread)
          refine entered_returned nextBare fun levels column here => ?_
          exact ih belowBare levels (line + 1) column here (by omega)

/-- The last line of a text has no carriage return, and so ends where it did. -/
theorem ending_returned (levels : List Nat) (line column : Nat) :
    (ending levels line column).map (Token.returned line) = ending levels line column := by
  have dedents : ∀ token ∈ (levels.drop 1).map (fun _ => Token.dedent line),
      token.kind ≠ .newline := by
    intro token member
    obtain ⟨_, _, rfl⟩ := List.mem_map.mp member
    exact nofun
  rw [ending, List.map_append, Token.map_returned dedents, List.map_singleton,
    Token.returned_newline_last]

theorem ofText_returned {text : String} (bare : '\r' ∉ text.toList) :
    Returns (Text.lines text.toList).length (ofText text.toList)
      (ofText (Text.withReturns text).toList) := by
  have lines := Text.lines_withReturns text
  obtain ⟨here, below⟩ := List.cons.inj lines
  have belowBare : ∀ next ∈ (Text.splitLines text.toList).2, '\r' ∉ next := by
    intro next member carriage
    exact bare (Text.mem_of_mem_lines (List.mem_cons_of_mem _ member) carriage).1
  rw [ofText, ofText, here, below]
  exact run_returned belowBare _ _ _ _ (Nat.add_comm _ _)

/-- The tokens of a text with carriage returns, or the failure of its scan. -/
theorem tokenize_withReturns (file : Path) {text : String} (bare : '\r' ∉ text.toList) :
    tokenize file (Text.withReturns text) = (tokenize file text).map
      (List.map (Token.returned (Text.lines text.toList).length)) := by
  have returns := ofText_returned bare
  rw [tokenize_eq, tokenize_eq, returns.failure]
  cases failed : (ofText text.toList).failure with
  | some failure =>
      refine congrArg (fun site => Except.error (failure.placedAt site)) ?_
      rw [site, site, returns.line, returns.column, Scanner.lineOf?_withReturns]
  | none =>
      have last : (ofText text.toList).line = (Text.lines text.toList).length :=
        (line_of_passes failed).trans (Nat.add_comm _ _)
      refine congrArg Except.ok ?_
      rw [finished, finished, returns.tokens, returns.levels, returns.line, returns.column,
        List.map_append, ← last, ending_returned]

end Scan

/-! ## Reading -/

def Site.columnless (site : Site) : Site :=
  { site with position := site.position.columnless }

def newlineColumns : Relocation where
  token found := if found.kind = .newline then found.columnless else found
  position := id
  kind_token found := by split <;> rfl
  text_token found := by split <;> rfl
  position_token found named := by
    have other : found.kind ≠ .newline := by
      intro ends
      rw [ends] at named
      rcases named with impossible | impossible <;> cases impossible
    rw [if_neg other]
    rfl

theorem line_newlineColumns (token : Token) :
    (newlineColumns.token token).position.line = token.position.line := by
  change (if _ then _ else _ : Token).position.line = _
  split <;> rfl

theorem newlineColumns_returned (last : Nat) (token : Token) :
    newlineColumns.token (token.returned last) = newlineColumns.token token := by
  rw [Token.returned]
  split
  · next both => exact (if_pos both.1).trans (if_pos both.1).symm
  · rfl

/-- A text is read alike with carriage returns. -/
theorem alike_withReturns {file : Path} {text : String} {tokens : List Token}
    (bare : '\r' ∉ text.toList) (scanned : tokenize file text = .ok tokens) :
    Alike file (Text.withReturns text) text newlineColumns newlineColumns Site.columnless
      Site.columnless (tokens.map (Token.returned (Text.lines text.toList).length)) tokens := by
  have forgotten : newlineColumns.token ∘ Token.returned (Text.lines text.toList).length =
      newlineColumns.token := funext (newlineColumns_returned _)
  have lineAlike {one two : Token} (same : newlineColumns.token one = newlineColumns.token two) :
      one.position.line = two.position.line := by
    rw [← line_newlineColumns one, same, line_newlineColumns]
  refine ⟨?_, scanned, ?_, ?_, ?_, ?_, ?_⟩
  · rw [Scan.tokenize_withReturns file bare, scanned]
    rfl
  · exact mt List.map_eq_nil_iff.mp (Scan.ne_nil_of_tokenize scanned)
  · rw [Relocation.tokens, Relocation.tokens, List.map_map, forgotten]
  · rw [List.getLast?_map, Option.map_map, forgotten]
  · intro one two same
    simp only [Token.site, Site.columnless, Position.columnless, lineAlike same,
      Scanner.lineOf?_withReturns]
  · intro one two same
    exact lineAlike same

/-- Line endings do not matter. -/
theorem reads_withReturns (file : Path) {text : String} (bare : '\r' ∉ text.toList) :
    tokenize file (Text.withReturns text) = (tokenize file text).map
        (List.map (Token.returned (Text.lines text.toList).length)) ∧
      (readPuzzle file (Text.withReturns text)).mapError (Failure.resited Site.columnless) =
        (readPuzzle file text).mapError (Failure.resited Site.columnless) := by
  refine ⟨Scan.tokenize_withReturns file bare, ?_⟩
  cases scanned : tokenize file text with
  | error failure =>
      have failed := Scan.tokenize_withReturns file bare
      rw [scanned] at failed
      rw [readPuzzle, readPuzzle, failed, scanned]
      rfl
  | ok tokens =>
      rw [← readMoved_id, ← readMoved_id]
      exact (alike_withReturns bare scanned).readPuzzle

/-- A text whose last rule makes no sense, with an empty line, a line of blanks and no newline
at its end. -/
def haltingText : String :=
  "Hue = \x7bred, blue\x7d\n\nvar Lamp : Hue\n   \nLamp = red =>\n    Lamp blue"

theorem reads_haltingText :
    '\r' ∉ haltingText.toList ∧
      tokenize (Path.ofString "lamp.puzzle") (Text.withReturns haltingText) =
        (tokenize (Path.ofString "lamp.puzzle") haltingText).map
          (List.map (Token.returned (Text.lines haltingText.toList).length)) ∧
      (readPuzzle (Path.ofString "lamp.puzzle") (Text.withReturns haltingText)).mapError
          (Failure.resited Site.columnless) =
        (readPuzzle (Path.ofString "lamp.puzzle") haltingText).mapError
          (Failure.resited Site.columnless) := by
  have bare : '\r' ∉ haltingText.toList := by decide +kernel
  exact ⟨bare, reads_withReturns (Path.ofString "lamp.puzzle") bare⟩

end LogicPuzzle
