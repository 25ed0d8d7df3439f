import LogicPuzzle.Proofs.DiagnosticSites
import LogicPuzzle.Proofs.TextPuzzles

/-!
# Words over their text

The words that are found in a text lie over it, each at the position it names.
Between them there is nothing but blanks, tabulators, carriage returns and the
ends of lines, and no word could go on with the character behind it.
-/

namespace LogicPuzzle

def isSeparator (c : Char) : Bool :=
  c == ' ' || c == '\t' || c == '\r' || c == '\n'

theorem isSeparator_eq (c : Char) : isSeparator c = (isGap c || c == '\n') := rfl

/-! ## Positions -/

namespace Position

/-- The position behind some characters of a text: a line below all lines that have ended, and a
column behind all characters since then. -/
def behind (before : List Char) : Position where
  line := 1 + before.count '\n'
  column := 1 + (before.reverse.takeWhile (· != '\n')).length

variable {before more : List Char}

theorem behind_newline (before : List Char) :
    behind (before ++ ['\n']) = ⟨(behind before).line + 1, 1⟩ := by
  simp [behind, Int.add_assoc]

/-- Characters of one line move the position to the right. -/
theorem behind_unbroken (unbroken : '\n' ∉ more) :
    behind (before ++ more) = ⟨(behind before).line, (behind before).column + more.length⟩ := by
  have passed : ∀ c ∈ more.reverse, (c != '\n') = true := by
    intro c member
    rw [bne_iff_ne]
    rintro rfl
    exact unbroken (List.mem_reverse.mp member)
  have none : more.count '\n' = 0 := List.count_eq_zero.mpr unbroken
  rw [behind, behind, List.count_append, none, List.reverse_append,
    List.takeWhile_append_of_pos passed, List.length_append, List.length_reverse, Nat.add_zero]
  simp only [mk.injEq, true_and]
  push_cast
  omega

theorem behind_shifted {line column : Nat} (unbroken : '\n' ∉ more)
    (place : behind before = ⟨line, column⟩) :
    behind (before ++ more) = ⟨line, (column + more.length : Nat)⟩ := by
  rw [behind_unbroken unbroken, place, Int.natCast_add]

theorem line_behind_broken (broken : '\n' ∈ more) :
    (behind before).line < (behind (before ++ more)).line := by
  have ended : 0 < more.count '\n' := List.count_pos_iff.mpr broken
  simp only [behind, List.count_append]
  push_cast
  omega

end Position

/-- A token ends before another one starts: in a line above it, or to the left of it. -/
def Token.Precedes (first second : Token) : Prop :=
  first.position.line < second.position.line ∨
    first.position.line = second.position.line ∧
      first.position.column + first.text.length ≤ second.position.column

/-- A word of one line precedes the words behind it. -/
theorem Token.precedes_of_behind {first second : Token} {before skipped : List Char}
    (unbroken : '\n' ∉ first.text.toList) (here : first.position = .behind before)
    (there : second.position = .behind (before ++ first.text.toList ++ skipped)) :
    first.Precedes second := by
  have ends : Position.behind (before ++ first.text.toList) = _ := Position.behind_unbroken unbroken
  rw [← here] at ends
  by_cases broken : '\n' ∈ skipped
  · left
    have below : (Position.behind (before ++ first.text.toList)).line < _ :=
      Position.line_behind_broken broken
    rwa [← there, ends] at below
  · right
    rw [Position.behind_unbroken broken, ends] at there
    rw [there, String.length_toList]
    exact ⟨rfl, Int.le_add_of_nonneg_right (Int.natCast_nonneg _)⟩

/-! ## Words that end -/

/-- No character at the start of some others prolongs a word of a kind. -/
structure Kind.EndsBefore (kind : Kind) (after : List Char) : Prop where
  word : kind = .identifier ∨ kind = .var ∨ kind = .unique →
    ∀ c ∈ after.head?, Text.isWordPart c = false
  number : kind = .number → ∀ c ∈ after.head?, Text.isDigit c = false
  equals : kind = .equals → after.head? ≠ some '>'

/-- The end of a line ends every word. -/
theorem Kind.EndsBefore.append {kind : Kind} {after tail : List Char} (ends : kind.EndsBefore after)
    (newline : ∀ c ∈ tail.head?, c = '\n') : kind.EndsBefore (after ++ tail) := by
  cases after with
  | cons c after => exact ⟨ends.word, ends.number, ends.equals⟩
  | nil =>
      refine ⟨fun _ c next => ?_, fun _ c next => ?_, fun _ next => ?_⟩
      · rw [newline c next]
        decide
      · rw [newline c next]
        decide
      · exact absurd (newline '>' next) (by decide)

theorem Kind.endsBefore_of_other {kind : Kind} (after : List Char)
    (other : kind ∉ [.identifier, .var, .unique, .number, .equals]) : kind.EndsBefore after := by
  simp only [List.mem_cons, List.not_mem_nil, or_false, not_or] at other
  obtain ⟨noIdentifier, noVar, noUnique, noNumber, noEquals⟩ := other
  refine ⟨?_, fun number => absurd number noNumber, fun equals => absurd equals noEquals⟩
  rintro (identifier | var | unique)
  · exact absurd identifier noIdentifier
  · exact absurd var noVar
  · exact absurd unique noUnique

/-- A mark can go on only as the first half of an operator. -/
theorem markKind?_endsBefore {c : Char} {kind : Kind} {after : List Char}
    (marked : markKind? c = some kind) (single : c = '=' → after.head? ≠ some '>') :
    kind.EndsBefore after := by
  unfold markKind? at marked
  split at marked
  · cases marked
    exact ⟨nofun, nofun, fun _ => single rfl⟩
  all_goals first
    | (cases marked; exact Kind.endsBefore_of_other after (by decide))
    | cases marked

theorem Kind.ofWord_cases (word : List Char) :
    ofWord word = .identifier ∨ ofWord word = .var ∨ ofWord word = .unique := by
  unfold ofWord
  split
  · exact .inr (.inl rfl)
  · split
    · exact .inr (.inr rfl)
    · exact .inl rfl

theorem Kind.ofWord_endsBefore (word rest : List Char) :
    (ofWord word).EndsBefore (rest.dropWhile Text.isWordPart) := by
  refine ⟨fun _ => dropWhile_stops _ _, fun number => ?_, fun equals => ?_⟩
  · exact absurd number (ofWord_ne_number word)
  · rcases ofWord_cases word with same | same | same <;> cases same.symm.trans equals

theorem isGap_of_class {p : Char → Bool} (none : p ' ' = false ∧ p '\t' = false ∧ p '\r' = false)
    {c : Char} (inside : p c = true) : isGap c = false := by
  have other (d : Char) (out : p d = false) : c ≠ d := by
    rintro rfl
    rw [inside] at out
    cases out
  simp only [isGap, Bool.or_eq_false_iff, beq_eq_false_iff_ne]
  exact ⟨⟨other _ none.1, other _ none.2.1⟩, other _ none.2.2⟩

namespace Piece

/-- What a piece at the start of some characters can be: an operator, a gap, a mark that is not the
first half of an operator, a word or a number. -/
inductive Cut : List Char → Piece → Prop where
  | yields (rest : List Char) : Cut ('=' :: '>' :: rest) ⟨some .yields, ['=', '>'], rest⟩
  | differs (rest : List Char) : Cut ('!' :: '=' :: rest) ⟨some .differs, ['!', '='], rest⟩
  | gap {c : Char} (rest : List Char) (gap : isGap c = true) : Cut (c :: rest) ⟨none, [c], rest⟩
  | mark {c : Char} {kind : Kind} (rest : List Char) (solid : isGap c = false)
      (marked : markKind? c = some kind) (single : c = '=' → rest.head? ≠ some '>') :
      Cut (c :: rest) ⟨some kind, [c], rest⟩
  | word {c : Char} (rest : List Char) (solid : isGap c = false) :
      Cut (c :: rest) ⟨some (Kind.ofWord (c :: rest.takeWhile Text.isWordPart)),
        c :: rest.takeWhile Text.isWordPart, rest.dropWhile Text.isWordPart⟩
  | number {c : Char} (rest : List Char) (solid : isGap c = false)
      (digit : Text.isDigit c = true) :
      Cut (c :: rest) ⟨some .number, c :: rest.takeWhile Text.isDigit,
        rest.dropWhile Text.isDigit⟩

variable {c : Char} {cs : List Char} {piece : Piece} {kind : Kind}

theorem cut_startingWith? (found : startingWith? c cs = some piece)
    (single : c = '=' → cs.head? ≠ some '>') : Cut (c :: cs) piece := by
  unfold startingWith? at found
  split at found
  · next gap =>
      cases found
      exact .gap cs gap
  · next gap =>
      have solid : isGap c = false := Bool.eq_false_iff.mpr gap
      split at found
      · next marked =>
          cases found
          exact .mark cs solid marked single
      · split at found
        · cases found
          exact .word cs solid
        · split at found
          · next digit =>
              cases found
              exact .number cs solid digit
          · cases found

theorem cut_first? (found : first? cs = some piece) : Cut cs piece := by
  unfold first? at found
  split at found
  · cases found
  · cases found
    exact .yields _
  · cases found
    exact .differs _
  · next noYields _ =>
      refine cut_startingWith? found ?_
      rintro rfl
      exact head?_ne_of_cons fun rest same => noYields rest rfl same

/-- A piece is a gap, or else there is no gap in it. -/
theorem Cut.isGap_eq (cut : Cut cs piece) : ∀ c ∈ piece.text, isGap c = piece.kind.isNone := by
  cases cut with
  | yields => exact List.forall_mem_cons.mpr ⟨rfl, List.forall_mem_singleton.mpr rfl⟩
  | differs => exact List.forall_mem_cons.mpr ⟨rfl, List.forall_mem_singleton.mpr rfl⟩
  | gap rest gap => exact List.forall_mem_singleton.mpr gap
  | mark rest solid => exact List.forall_mem_singleton.mpr solid
  | word rest solid =>
      refine List.forall_mem_cons.mpr ⟨solid, fun d member => ?_⟩
      exact isGap_of_class (by decide) (List.mem_takeWhile_imp member)
  | number rest solid =>
      refine List.forall_mem_cons.mpr ⟨solid, fun d member => ?_⟩
      exact isGap_of_class (by decide) (List.mem_takeWhile_imp member)

/-- A piece is as long as it can be. -/
theorem Cut.endsBefore (cut : Cut cs piece) (word : piece.kind = some kind) :
    kind.EndsBefore piece.rest := by
  cases cut with
  | gap => cases word
  | yields =>
      cases word
      exact Kind.endsBefore_of_other _ (by decide)
  | differs =>
      cases word
      exact Kind.endsBefore_of_other _ (by decide)
  | mark rest solid marked single =>
      cases word
      exact markKind?_endsBefore marked single
  | word rest =>
      cases word
      exact Kind.ofWord_endsBefore _ rest
  | number rest =>
      cases word
      exact ⟨nofun, fun _ => dropWhile_stops _ _, nofun⟩

end Piece

/-! ## Words laid over characters -/

/-- Words lie over the characters that stand behind some others: each one at the position it names,
as long as it can be, and with separators alone between them. -/
inductive Covers : List Char → List Token → List Char → Prop where
  | nil (before : List Char) : Covers before [] []
  | separator {before rest : List Char} {c : Char} {tokens : List Token}
      (separates : isSeparator c = true) (later : Covers (before ++ [c]) tokens rest) :
      Covers before tokens (c :: rest)
  | word {before rest : List Char} {token : Token} {tokens : List Token}
      (full : token.text.toList ≠ []) (solid : ∀ c ∈ token.text.toList, isSeparator c = false)
      (place : token.position = .behind before) (ends : token.kind.EndsBefore rest)
      (later : Covers (before ++ token.text.toList) tokens rest) :
      Covers before (token :: tokens) (token.text.toList ++ rest)

/-- A token stands in a text behind some characters and before others, at the position it names. -/
structure Token.StandsIn (token : Token) (text before after : List Char) : Prop where
  split : text = before ++ token.text.toList ++ after
  place : token.position = .behind before

namespace Covers

variable {before gap rest : List Char} {tokens : List Token}

theorem separators (separate : ∀ c ∈ gap, isSeparator c = true)
    (later : Covers (before ++ gap) tokens rest) : Covers before tokens (gap ++ rest) := by
  induction gap generalizing before with
  | nil => rwa [List.append_nil] at later
  | cons c gap ih =>
      obtain ⟨first, others⟩ := List.forall_mem_cons.mp separate
      rw [List.append_cons] at later
      exact .separator first (ih others later)

theorem ofList {text : List Char} {kind : Kind} {position : Position} (full : text ≠ [])
    (solid : ∀ c ∈ text, isSeparator c = false) (place : position = .behind before)
    (ends : kind.EndsBefore rest) (later : Covers (before ++ text) tokens rest) :
    Covers before (⟨kind, String.ofList text, position⟩ :: tokens) (text ++ rest) := by
  obtain ⟨word, rfl⟩ : ∃ word : String, word.toList = text :=
    ⟨String.ofList text, String.toList_ofList⟩
  rw [String.ofList_toList]
  exact .word full solid place ends later

/-- Words that cover some characters are these characters without the separators. -/
theorem kept (covers : Covers before tokens rest) :
    (tokens.flatMap fun token => token.text.toList) = rest.filter fun c => !isSeparator c := by
  induction covers with
  | nil => rfl
  | separator separates _ ih =>
      rw [ih, List.filter_cons_of_neg]
      rw [separates]
      decide
  | @word before rest token tokens _ solid _ _ _ ih =>
      have whole : token.text.toList.filter (fun c => !isSeparator c) = token.text.toList := by
        refine List.filter_eq_self.mpr fun c member => ?_
        rw [solid c member]
        rfl
      rw [List.flatMap_cons, ih, List.filter_append, whole]

/-- Each word stands where it says. -/
theorem stands (covers : Covers before tokens rest) : ∀ token ∈ tokens,
    token.text.toList ≠ [] ∧ ∃ skipped after, rest = skipped ++ token.text.toList ++ after ∧
      token.position = .behind (before ++ skipped) ∧ token.kind.EndsBefore after := by
  induction covers with
  | nil => exact List.forall_mem_nil _
  | @separator before rest c tokens _ _ ih =>
      intro token member
      obtain ⟨full, skipped, after, rfl, place, ends⟩ := ih token member
      refine ⟨full, c :: skipped, after, rfl, ?_, ends⟩
      rw [place, List.append_cons before c skipped]
  | @word before rest first tokens full _ place ends _ ih =>
      refine List.forall_mem_cons.mpr ⟨⟨full, [], rest, rfl, ?_, ends⟩, fun token member => ?_⟩
      · rw [place, List.append_nil]
      · obtain ⟨otherFull, skipped, after, rfl, otherPlace, otherEnds⟩ := ih token member
        refine ⟨otherFull, first.text.toList ++ skipped, after, ?_, ?_, otherEnds⟩
        · simp only [List.append_assoc]
        · rw [otherPlace, List.append_assoc]

/-- Words that cover some characters come one behind the other. -/
theorem ordered (covers : Covers before tokens rest) : tokens.Pairwise Token.Precedes := by
  induction covers with
  | nil => exact .nil
  | separator _ _ ih => exact ih
  | @word before rest first tokens _ solid place _ later ih =>
      refine .cons (fun token member => ?_) ih
      obtain ⟨_, skipped, _, _, otherPlace, _⟩ := later.stands token member
      refine Token.precedes_of_behind (fun broken => ?_) place otherPlace
      exact absurd (solid '\n' broken) (by decide)

end Covers

/-! ## Scans -/

/-- The words of a whole line cover it. -/
theorem Words.covers_read {line column : Nat} {cs before tail : List Char} {tokens : List Token}
    (unbroken : '\n' ∉ cs) (whole : (read line column cs).rest = [])
    (place : Position.behind before = ⟨line, column⟩) (newline : ∀ c ∈ tail.head?, c = '\n')
    (later : Covers (before ++ cs) tokens tail) :
    Covers before ((read line column cs).tokens ++ tokens) (cs ++ tail) := by
  revert before
  fun_induction read line column cs with
  | case1 column cs none =>
      intro before place later
      obtain rfl : cs = [] := whole
      rwa [List.append_nil] at later
  | case2 column cs piece found _ gap ih =>
      intro before place later
      have split := (Piece.first?_text_append_rest found).1
      rw [← split, List.mem_append, not_or] at unbroken
      rw [← split, List.append_assoc]
      rw [← split, ← List.append_assoc] at later
      refine Covers.separators (fun c member => ?_) ?_
      · rw [isSeparator_eq, (Piece.cut_first? found).isGap_eq c member, gap]
        rfl
      · exact ih unbroken.2 whole (Position.behind_shifted unbroken.1 place) later
  | case3 column cs piece found _ kind word ih =>
      intro before place later
      obtain ⟨split, full⟩ := Piece.first?_text_append_rest found
      rw [← split, List.mem_append, not_or] at unbroken
      rw [← split, ← List.append_assoc] at later
      rw [← split, List.append_assoc]
      refine Covers.ofList full (fun c member => ?_) place.symm
        (((Piece.cut_first? found).endsBefore word).append newline)
        (ih unbroken.2 whole (Position.behind_shifted unbroken.1 place) later)
      rw [isSeparator_eq, (Piece.cut_first? found).isGap_eq c member, word, Option.isNone_some,
        Bool.false_or, beq_eq_false_iff_ne]
      rintro rfl
      exact unbroken.1 member

def Token.isWord (token : Token) : Bool :=
  !token.kind.isLayout

namespace Scan

variable {levels : List Nat} {line column : Nat} {here next before : List Char}
  {below : List (List Char)} {tokens : List Token}

theorem isWord_read (line column : Nat) (cs : List Char) :
    (Words.read line column cs).tokens.filter Token.isWord =
      (Words.read line column cs).tokens := by
  refine List.filter_eq_self.mpr fun token member => ?_
  rw [Token.isWord, Words.isLayout_read line column cs token member]
  rfl

theorem isWord_lineShift :
    (lineShift line levels next).tokens.filter Token.isWord = [] := by
  refine List.filter_eq_nil_iff.mpr fun token member => ?_
  rcases mem_lineShift member with rfl | rfl <;> nofun

theorem isWord_ending : (ending levels line column).filter Token.isWord = [] := by
  refine List.filter_eq_nil_iff.mpr fun token member => ?_
  rcases List.mem_append.mp member with dedent | newline
  · obtain ⟨_, _, rfl⟩ := List.mem_map.mp dedent
    nofun
  · rw [List.mem_singleton.mp newline]
    nofun

/-- A line is entered behind its indentation. -/
theorem covers_next (unbroken : '\n' ∉ next) (place : Position.behind before = ⟨line, column⟩)
    (lower : ∀ entered, Position.behind entered =
        ⟨(line + 1 : Nat), (1 + (next.takeWhile isIndentation).length : Nat)⟩ →
      Covers entered tokens (Text.joinLines (next.dropWhile isIndentation) below)) :
    Covers before tokens ('\n' :: Text.joinLines next below) := by
  have parts := List.takeWhile_append_dropWhile (p := isIndentation) (l := next)
  have inLine : '\n' ∉ next.takeWhile isIndentation := fun member =>
    unbroken (parts ▸ List.mem_append_left _ member)
  have blank : ∀ c ∈ next.takeWhile isIndentation, isSeparator c = true := by
    intro c member
    have indents : isIndentation c = true := List.mem_takeWhile_imp member
    rw [isSeparator, Bool.or_assoc, Bool.or_eq_true]
    exact .inl indents
  have split : Text.joinLines next below =
      next.takeWhile isIndentation ++ Text.joinLines (next.dropWhile isIndentation) below := by
    rw [Text.joinLines, Text.joinLines, ← List.append_assoc, parts]
  rw [split]
  refine .separator (by decide) (.separators blank (lower _ ?_))
  refine Position.behind_shifted inLine ?_
  rw [Position.behind_newline, place]
  rfl

/-- The words of a complete scan cover all that it reads. -/
theorem covers_run (completes : (run levels line column here below).Completes tokens)
    (unbroken : ∀ cs ∈ here :: below, '\n' ∉ cs)
    (place : Position.behind before = ⟨line, column⟩) :
    Covers before (tokens.filter Token.isWord) (Text.joinLines here below) := by
  obtain ⟨hereUnbroken, belowUnbroken⟩ := List.forall_mem_cons.mp unbroken
  have whole := whole_of_completes completes
  -- What is carried from line to line is the position behind all characters before the line.
  induction below generalizing levels line column here before tokens with
  | nil =>
      rcases completes with ⟨_, rfl⟩
      have found : (run levels line column here []).finished.filter Token.isWord =
          (Words.read line column here).tokens ++ [] := by
        rw [finished, List.filter_append, isWord_ending]
        exact congrArg (· ++ []) (isWord_read line column here)
      have behind : ∀ c ∈ ([] : List Char).head?, c = '\n' := fun c head =>
        absurd head (Option.not_mem_none c)
      rw [found]
      exact Words.covers_read hereUnbroken whole place behind (.nil _)
  | cons next below ih =>
      obtain ⟨_, _, entered, enteredCompletes, rfl⟩ := completes_cons_iff.mp completes
      obtain ⟨lowest, lowestCompletes, rfl⟩ := fromLine_completes_iff.mp enteredCompletes
      have found : ((Words.read line column here).tokens ++
            Token.newline line (Words.read line column here).column ::
              ((lineShift (line + 1) levels next).tokens ++ lowest)).filter Token.isWord =
          (Words.read line column here).tokens ++ lowest.filter Token.isWord := by
        rw [List.filter_append, isWord_read, List.filter_cons_of_neg Bool.false_ne_true,
          List.filter_append, isWord_lineShift, List.nil_append]
      have split : Text.joinLines here (next :: below) =
          here ++ '\n' :: Text.joinLines next below := rfl
      obtain ⟨nextUnbroken, lowerUnbroken⟩ := List.forall_mem_cons.mp belowUnbroken
      have bodyUnbroken : '\n' ∉ next.dropWhile isIndentation := fun member =>
        nextUnbroken (List.dropWhile_subset _ member)
      rw [found, split]
      refine Words.covers_read hereUnbroken whole place (fun c next => ?_)
        (covers_next nextUnbroken (Position.behind_shifted hereUnbroken place) fun _ there => ?_)
      · cases next
        rfl
      · exact ih lowestCompletes (List.forall_mem_cons.mpr ⟨bodyUnbroken, lowerUnbroken⟩) there
          bodyUnbroken lowerUnbroken (whole_of_completes lowestCompletes)

/-! ## Ends of lines -/

/-- The tokens for the ends of some lines, the first of them behind a column of its line. -/
def lineEnds (line column : Nat) (here : List Char) (below : List (List Char)) : List Token :=
  Token.newline line (column + here.length) ::
    below.mapIdx fun above cs => Token.newline (line + 1 + above) (1 + cs.length)

theorem isNewline_read (line column : Nat) (cs : List Char) :
    (Words.read line column cs).tokens.filter (·.kind == .newline) = [] := by
  refine List.filter_eq_nil_iff.mpr fun token member ends => ?_
  have word := Words.isLayout_read line column cs token member
  rw [eq_of_beq ends] at word
  cases word

theorem isNewline_lineShift :
    (lineShift line levels next).tokens.filter (·.kind == .newline) = [] := by
  refine List.filter_eq_nil_iff.mpr fun token member => ?_
  rcases mem_lineShift member with rfl | rfl <;> nofun

theorem isNewline_ending :
    (ending levels line column).filter (·.kind == .newline) = [Token.newline line column] := by
  have dedents : ((levels.drop 1).map fun _ => Token.dedent line).filter (·.kind == .newline) =
      [] := by
    refine List.filter_eq_nil_iff.mpr fun token member => ?_
    obtain ⟨_, _, rfl⟩ := List.mem_map.mp member
    nofun
  rw [ending, List.filter_append, dedents]
  rfl

theorem column_of_completes (completes : (run levels line column here below).Completes tokens) :
    (Words.read line column here).column = column + here.length := by
  have unread := (Words.spans_read line column here).unread
  rwa [whole_of_completes completes, List.length_nil, Nat.add_zero] at unread

theorem lineEnds_cons (line column : Nat) (here next : List Char) (below : List (List Char)) :
    lineEnds line column here (next :: below) = Token.newline line (column + here.length) ::
      lineEnds (line + 1) (1 + (next.takeWhile isIndentation).length)
        (next.dropWhile isIndentation) below := by
  have length := congrArg List.length
    (List.takeWhile_append_dropWhile (p := isIndentation) (l := next))
  rw [List.length_append] at length
  rw [lineEnds, lineEnds, List.mapIdx_cons, Nat.add_assoc 1, length, Nat.add_zero]
  simp only [Nat.add_assoc, Nat.add_comm 1]

/-- Every line of a complete scan ends behind its last character. -/
theorem newlines_run (completes : (run levels line column here below).Completes tokens) :
    tokens.filter (·.kind == .newline) = lineEnds line column here below := by
  induction below generalizing levels line column here tokens with
  | nil =>
      have column_eq := column_of_completes completes
      rcases completes with ⟨_, rfl⟩
      rw [run, finished, List.filter_append, isNewline_read, isNewline_ending, column_eq]
      rfl
  | cons next below ih =>
      have column_eq := column_of_completes completes
      obtain ⟨_, _, entered, enteredCompletes, rfl⟩ := completes_cons_iff.mp completes
      obtain ⟨lowest, lowestCompletes, rfl⟩ := fromLine_completes_iff.mp enteredCompletes
      rw [List.filter_append, isNewline_read, List.filter_cons_of_pos rfl, List.filter_append,
        isNewline_lineShift, ih lowestCompletes, lineEnds_cons, column_eq]
      rfl

end Scan

theorem Text.length_lines (text : List Char) : (lines text).length = text.count '\n' + 1 := by
  induction text with
  | nil => rfl
  | cons c text ih =>
      rcases eq_or_ne c '\n' with rfl | other
      · rw [lines_cons_newline, List.length_cons, ih, List.count_cons_self]
      · rw [lines_cons_of_ne other, List.count_cons_of_ne other, ← ih]
        rfl

/-! ## Keywords -/

/-- A kind is that of a keyword exactly when some characters spell the keyword. -/
structure Kind.Spells (kind : Kind) (text : List Char) : Prop where
  var : kind = .var ↔ text = ['v', 'a', 'r']
  unique : kind = .unique ↔ text = ['u', 'n', 'i', 'q', 'u', 'e']

theorem Kind.spells_of_other {kind : Kind} {text : List Char}
    (noKeyword : kind ≠ .var ∧ kind ≠ .unique)
    (other : text ≠ ['v', 'a', 'r'] ∧ text ≠ ['u', 'n', 'i', 'q', 'u', 'e']) : kind.Spells text :=
  ⟨iff_of_false noKeyword.1 other.1, iff_of_false noKeyword.2 other.2⟩

theorem Kind.spells_ofWord (word : List Char) : (ofWord word).Spells word := by
  unfold ofWord
  split
  · next same => exact ⟨iff_of_true rfl same, iff_of_false nofun (same ▸ nofun)⟩
  · next noVar =>
      split
      · next same => exact ⟨iff_of_false nofun noVar, iff_of_true rfl same⟩
      · next noUnique => exact spells_of_other (by decide) ⟨noVar, noUnique⟩

theorem markKind?_ne_keyword {c : Char} {kind : Kind} (marked : markKind? c = some kind) :
    kind ≠ .var ∧ kind ≠ .unique := by
  unfold markKind? at marked
  split at marked
  all_goals first
    | (cases marked; decide)
    | cases marked

theorem Piece.Cut.spells {cs : List Char} {piece : Piece} {kind : Kind} (cut : Cut cs piece)
    (word : piece.kind = some kind) : kind.Spells piece.text := by
  cases cut with
  | gap => cases word
  | yields =>
      cases word
      exact Kind.spells_of_other (by decide) ⟨nofun, nofun⟩
  | differs =>
      cases word
      exact Kind.spells_of_other (by decide) ⟨nofun, nofun⟩
  | mark rest solid marked =>
      cases word
      exact Kind.spells_of_other (markKind?_ne_keyword marked) ⟨nofun, nofun⟩
  | word =>
      cases word
      exact Kind.spells_ofWord _
  | number rest solid digit =>
      cases word
      refine Kind.spells_of_other (by decide) ⟨fun same => ?_, fun same => ?_⟩
      · rw [(List.cons.inj same).1] at digit
        exact absurd digit (by decide)
      · rw [(List.cons.inj same).1] at digit
        exact absurd digit (by decide)

theorem Words.spells_read (line column : Nat) (cs : List Char) :
    ∀ token ∈ (read line column cs).tokens, token.kind.Spells token.text.toList := by
  fun_induction read line column cs with
  | case1 => exact List.forall_mem_nil _
  | case2 _ _ _ _ _ _ ih => exact ih
  | case3 column cs piece found _ kind word ih =>
      refine List.forall_mem_cons.mpr ⟨?_, ih⟩
      rw [String.toList_ofList]
      exact (Piece.cut_first? found).spells word

theorem Token.IsFound.spells {token : Token} (found : token.IsFound) :
    token.kind.Spells token.text.toList := by
  have layout : ∀ text ∈ ["\\n", ""],
      text.toList ≠ ['v', 'a', 'r'] ∧ text.toList ≠ ['u', 'n', 'i', 'q', 'u', 'e'] := by
    decide
  cases found with
  | word member => exact Words.spells_read _ _ _ token member
  | newline => exact Kind.spells_of_other ⟨nofun, nofun⟩ (layout "\\n" (by decide))
  | indent => exact Kind.spells_of_other ⟨nofun, nofun⟩ (layout "" (by decide))
  | dedent => exact Kind.spells_of_other ⟨nofun, nofun⟩ (layout "" (by decide))

/-! ## Whole texts -/

/-- The tokens of a text tell all that stands in it.  Its words are its characters without the
separators, each word stands where it says and ends where it has to, one behind the other; its lines
end where the ends of lines say; and the keywords are the words that are spelled like them. -/
structure LieOver (tokens : List Token) (text : String) : Prop where
  kept : ((tokens.filter Token.isWord).flatMap fun token => token.text.toList) =
    text.toList.filter fun c => !isSeparator c
  placed : ∀ token ∈ tokens, token.isWord = true → token.text ≠ "" ∧
    ∃ before after, token.StandsIn text.toList before after ∧ token.kind.EndsBefore after
  ordered : (tokens.filter Token.isWord).Pairwise Token.Precedes
  newlines : tokens.filter (·.kind == .newline) =
    (Text.lines text.toList).mapIdx fun above line => Token.newline (above + 1) (line.length + 1)
  counted : tokens.countP (·.kind == .newline) = text.toList.count '\n' + 1
  keywords : ∀ token ∈ tokens, (token.kind = .var ↔ token.text = "var") ∧
    (token.kind = .unique ↔ token.text = "unique")

theorem Scan.lineEnds_text (first : List Char) (below : List (List Char)) :
    lineEnds 1 1 first below = (first :: below).mapIdx fun above line =>
      Token.newline (above + 1) (line.length + 1) := by
  rw [lineEnds, List.mapIdx_cons, Nat.add_comm 1 first.length]
  simp only [Nat.add_comm, Nat.add_left_comm]

/-- The tokens of a text lie over it. -/
theorem tokens_lie_over_text {file : Path} {text : String} {tokens : List Token}
    (scanned : tokenize file text = .ok tokens) : LieOver tokens text := by
  have completes := Scan.tokenize_ok_iff.mp scanned
  have covers : Covers [] (tokens.filter Token.isWord) text.toList := by
    have start : Position.behind [] = ⟨(1 : Nat), (1 : Nat)⟩ := rfl
    have joined := Scan.covers_run completes (fun cs line broken => ?_) start
    · rwa [Text.joinLines_splitLines] at joined
    · exact (Text.mem_of_mem_lines line broken).2 rfl
  have newlines : tokens.filter (·.kind == .newline) =
      (Text.lines text.toList).mapIdx fun above line =>
        Token.newline (above + 1) (line.length + 1) :=
    (Scan.newlines_run completes).trans (Scan.lineEnds_text _ _)
  constructor
  · exact covers.kept
  · intro token member word
    obtain ⟨full, skipped, after, split, place, ends⟩ :=
      covers.stands token (List.mem_filter.mpr ⟨member, word⟩)
    refine ⟨fun empty => full (empty ▸ rfl), skipped, after, ⟨split, place⟩, ends⟩
  · exact covers.ordered
  · exact newlines
  · rw [List.countP_eq_length_filter, newlines, List.length_mapIdx, Text.length_lines]
  · intro token member
    obtain ⟨var, unique⟩ := (isFound_of_tokenize scanned token member).spells
    rw [var, unique, ← String.toList_inj, ← String.toList_inj]
    exact ⟨Iff.rfl, Iff.rfl⟩

/-- A text with carriage returns, numbers of other scripts and operators without blanks. -/
def raggedText : String :=
  "var\tx1:D[٣²]=>!=\r\n\t\tunique var_ a.b==>\n \n"

def raggedTokens : List Token :=
  [⟨.var, "var", ⟨1, 1⟩⟩, ⟨.identifier, "x1", ⟨1, 5⟩⟩, ⟨.colon, ":", ⟨1, 7⟩⟩,
   ⟨.identifier, "D", ⟨1, 8⟩⟩, ⟨.openBracket, "[", ⟨1, 9⟩⟩, ⟨.number, "٣²", ⟨1, 10⟩⟩,
   ⟨.closeBracket, "]", ⟨1, 12⟩⟩, ⟨.yields, "=>", ⟨1, 13⟩⟩, ⟨.differs, "!=", ⟨1, 15⟩⟩,
   .newline 1 18, .indent 2, ⟨.unique, "unique", ⟨2, 3⟩⟩, ⟨.identifier, "var_", ⟨2, 10⟩⟩,
   ⟨.identifier, "a", ⟨2, 15⟩⟩, ⟨.dot, ".", ⟨2, 16⟩⟩, ⟨.identifier, "b", ⟨2, 17⟩⟩,
   ⟨.equals, "=", ⟨2, 18⟩⟩, ⟨.yields, "=>", ⟨2, 19⟩⟩, .newline 2 21, .newline 3 2, .dedent 4,
   .newline 4 1]

theorem raggedTokens_lie_over :
    tokenize (Path.ofString "ragged.puzzle") raggedText = .ok raggedTokens ∧
      LieOver raggedTokens raggedText := by
  have scanned : tokenize (Path.ofString "ragged.puzzle") raggedText = .ok raggedTokens := by
    decide +kernel
  exact ⟨scanned, tokens_lie_over_text scanned⟩

end LogicPuzzle
