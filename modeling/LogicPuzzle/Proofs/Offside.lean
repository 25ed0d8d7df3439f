import LogicPuzzle.Proofs.BlankLines
import LogicPuzzle.Proofs.OpenLevels
import LogicPuzzle.Proofs.Reindenting

/-!
# The offside rule

A text can be scanned when its lines fit behind each other, blank lines apart.
The blocks that are open in front of a line are then the widths that can be seen
from there, whatever the scanner went through before; and a text that breaks the
rule is rejected at the first line that does not fit.
-/

namespace LogicPuzzle

/-! ## Widths of lines -/

def widthsFrom (line : Nat) : List (List Char) → List (Nat × Nat)
  | [] => []
  | next :: below =>
      if Scan.isBlankBody (next.dropWhile isIndentation) then widthsFrom (line + 1) below
      else (line, indentationWidth (next.takeWhile isIndentation)) :: widthsFrom (line + 1) below

/-- The numbers and the widths of the lines of a text.  The first line stands at the margin. -/
def widthsOf (text : String) : List (Nat × Nat) :=
  (1, 0) :: widthsFrom 2 (Text.splitLines text.toList).2

/-- Every line fits behind the lines above it. -/
def AllFit (lines : List (Nat × Nat)) : Prop :=
  ∀ earlier line width later, lines = earlier ++ (line, width) :: later →
    FitsBehind (earlier.map Prod.snd) width

/-- The number of the first line that does not fit, and what is wrong with it. -/
inductive FirstMisfit (lines : List (Nat × Nat)) : Nat → Fault → Prop where
  | intro {earlier later : List (Nat × Nat)} {line width : Nat} {cause : Fault}
      (place : lines = earlier ++ (line, width) :: later) (above : AllFit earlier)
      (unfit : ¬ FitsBehind (earlier.map Prod.snd) width)
      (wrong : Misfits (earlier.map Prod.snd) width cause) : FirstMisfit lines line cause

theorem FirstMisfit.not_allFit {lines : List (Nat × Nat)} {line : Nat} {cause : Fault}
    (misfit : FirstMisfit lines line cause) : ¬ AllFit lines := by
  cases misfit with
  | intro place above unfit wrong => exact fun fit => unfit (fit _ _ _ _ place)

theorem widthsFrom_blank {next : List Char}
    (blank : Scan.isBlankBody (next.dropWhile isIndentation) = true) (line : Nat)
    (below : List (List Char)) :
    widthsFrom line (next :: below) = widthsFrom (line + 1) below := by
  rw [widthsFrom, if_pos blank]

theorem widthsFrom_full {next : List Char}
    (full : Scan.isBlankBody (next.dropWhile isIndentation) = false) (line : Nat)
    (below : List (List Char)) :
    widthsFrom line (next :: below) =
      (line, indentationWidth (next.takeWhile isIndentation)) :: widthsFrom (line + 1) below := by
  rw [widthsFrom, if_neg (Bool.eq_false_iff.mp full)]

theorem le_of_mem_widthsFrom {line : Nat} {below : List (List Char)} {found : Nat × Nat}
    (member : found ∈ widthsFrom line below) : line ≤ found.1 := by
  induction below generalizing line with
  | nil => cases member
  | cons next below ih =>
      rw [widthsFrom] at member
      split at member
      · exact (Nat.le_succ line).trans (ih member)
      · rcases List.mem_cons.mp member with rfl | further
        · exact Nat.le_refl line
        · exact (Nat.le_succ line).trans (ih further)

theorem AllFit.concat {lines : List (Nat × Nat)} {line width : Nat} (fit : AllFit lines)
    (fits : FitsBehind (lines.map Prod.snd) width) : AllFit (lines ++ [(line, width)]) := by
  intro earlier other otherWidth later same
  rcases List.eq_nil_or_concat later with rfl | ⟨between, last, rfl⟩
  · obtain ⟨rfl, ends⟩ := List.append_inj' same rfl
    cases ends
    exact fits
  · rw [List.concat_eq_append, ← List.cons_append, ← List.append_assoc] at same
    exact fit _ _ _ _ (List.append_inj' same rfl).1

/-! ## Where a scan stops -/

namespace Scan

variable {levels : List Nat} {line column : Nat} {here next : List Char}
  {below : List (List Char)} {tokens : List Token} {passed : List (Nat × Nat)}

/-- How the scan of some lines ends: at a character that starts no word, at the first line that
does not fit, or at the end of lines that all fit. -/
inductive Measures (lines : List (Nat × Nat)) (scan : Scan) : Prop where
  | halts (c : Char) (stops : scan.failure = some (Shift.unplaced (.unexpectedCharacter c)))
  | misfits {cause : Fault} (stops : scan.failure = some (Shift.unplaced cause))
      (first : FirstMisfit lines scan.line cause)
  | passes (passes : scan.failure = none) (fit : AllFit lines)

theorem Measures.behind {lines : List (Nat × Nat)} {scan : Scan} (measures : Measures lines scan)
    (tokens : List Token) :
    Measures lines { scan with tokens := tokens ++ scan.tokens } := by
  cases measures with
  | halts c stops => exact .halts c stops
  | misfits stops first => exact .misfits stops first
  | passes passes fit => exact .passes passes fit

theorem measures_unread {failure : Failure} {cs : List Char} {lines : List (Nat × Nat)}
    {scan : Scan} (unread : unreadFailure cs = some failure)
    (stops : scan.failure = some failure) : Measures lines scan := by
  cases cs with
  | nil => cases unread
  | cons c cs => exact .halts c (stops.trans unread.symm)

/-- A line that is not blank keeps the open levels those that can be seen, or is the first one
that does not fit. -/
theorem entered_measures (opened : OpenBehind levels (passed.map Prod.snd)) (fit : AllFit passed)
    (runs : ∀ levels column here passed, OpenBehind levels (passed.map Prod.snd) →
      AllFit passed → Measures (passed ++ widthsFrom (line + 1) below)
        (run levels line column here below)) :
    Measures (passed ++ widthsFrom line (next :: below)) (entered levels line next below) := by
  cases blank : isBlankBody (next.dropWhile isIndentation) with
  | true =>
      have proceeds := congrArg Shift.failure (lineShift_blank blank line levels)
      rw [entered, proceeds, fromLine, lineShift_blank blank, widthsFrom_blank blank]
      exact (runs _ _ _ _ opened fit).behind _
  | false =>
      rw [widthsFrom_full blank]
      by_cases fits : FitsBehind (passed.map Prod.snd)
        (indentationWidth (next.takeWhile isIndentation))
      · obtain ⟨proceeds, further⟩ := @OpenBehind.ofWidth_fits _ _ line _ opened fits
        rw [← lineShift_of_full blank] at proceeds further
        rw [entered, proceeds, fromLine, List.append_cons]
        refine (runs _ _ _ _ ?_ (fit.concat fits)).behind _
        rw [List.map_append]
        exact further
      · obtain ⟨cause, fails, wrong⟩ := @OpenBehind.ofWidth_misfits _ _ line _ opened fits
        rw [← lineShift_of_full blank] at fails
        rw [entered, fails]
        exact .misfits rfl (.intro rfl fit fits wrong)

theorem run_measures (levels : List Nat) (line column : Nat) (here : List Char)
    (below : List (List Char)) (passed : List (Nat × Nat))
    (opened : OpenBehind levels (passed.map Prod.snd)) (fit : AllFit passed) :
    Measures (passed ++ widthsFrom (line + 1) below) (run levels line column here below) := by
  induction below generalizing levels line column here passed with
  | nil =>
      rw [widthsFrom, List.append_nil]
      cases unread : unreadFailure (Words.read line column here).rest with
      | some failure => exact measures_unread unread unread
      | none => exact .passes unread fit
  | cons next below ih =>
      cases unread : unreadFailure (Words.read line column here).rest with
      | some failure =>
          rw [run_unread unread]
          exact measures_unread unread rfl
      | none =>
          rw [run_entered unread]
          refine Measures.behind (entered_measures opened fit ?_) _
          exact fun levels column here => ih levels (line + 1) column here

/-- How the scan of a text ends. -/
theorem ofText_measures (text : String) :
    Measures (widthsOf text) (ofText text.toList) := by
  have fit : AllFit [(1, 0)] := by
    intro earlier line width later same
    cases earlier with
    | nil =>
        cases same
        exact ⟨rfl, nofun⟩
    | cons first earlier => cases earlier <;> cases same
  exact run_measures [0] 1 1 _ _ [(1, 0)] openBehind_margin fit

end Scan

/-! ## Blocks in front of a line -/

/-- Tokens that can stand behind the indentation of a line.  Only the last line of a text can start
with the end of a block, when there is no word in it. -/
structure Starts (last line : Nat) (first : Token) (others : List Token) : Prop where
  place : first.position.line = line
  opens : first.kind ≠ .indent
  closes : first.kind = .dedent → line = last ∧ ∀ token ∈ others, token.kind.isLayout = true

structure Begins (last line : Nat) (before after : List Token) : Prop where
  above : ∀ token ∈ before,
    token.position.line < line ∨ token = Token.indent line ∨ token = Token.dedent line
  below : ∀ token ∈ after, (line : Int) ≤ token.position.line
  starts : ∃ first others, after = first :: others ∧ Starts last line first others

def Token.opensIn (line : Nat) (token : Token) : Bool :=
  token.kind == .indent && token.position.line == (line : Int)

theorem Token.opensIn_iff {line : Nat} {token : Token} :
    token.opensIn line = true ↔ token.kind = .indent ∧ token.position.line = line := by
  rw [opensIn, Bool.and_eq_true, beq_iff_eq, beq_iff_eq]

/-- The blocks of a text are those of its lines: in front of each line the widths that can be seen
from there are open, no line opens more than one block, and in the end all are closed. -/
structure Indented (lines : List (Nat × Nat)) (last : Nat) (tokens : List Token) : Prop where
  depth : ∀ earlier line width later, lines = earlier ++ (line, width) :: later →
    ∃ before after, tokens = before ++ after ∧ Begins last line before after ∧
      balance before =
        {level | 0 < level ∧ Sees (earlier.map Prod.snd ++ [width]) level}.ncard
  single : ∀ line, tokens.countP (Token.opensIn line) ≤ 1
  closed : balance tokens = 0

theorem starts_newline (last line column : Nat) (others : List Token) :
    Starts last line (Token.newline line column) others where
  place := rfl
  opens := nofun
  closes := nofun

theorem starts_dedent (line : Nat) {others : List Token}
    (wordless : ∀ token ∈ others, token.kind.isLayout = true) :
    Starts line line (Token.dedent line) others where
  place := rfl
  opens := nofun
  closes _ := ⟨rfl, wordless⟩

theorem Begins.behind {last upper line : Nat} {front before after : List Token}
    (begins : Begins last line before after) (lower : upper ≤ line)
    (inLine : ∀ token ∈ front,
      token.position.line < upper ∨ token = Token.indent upper ∨ token = Token.dedent upper) :
    Begins last line (front ++ before) after where
  above := by
    refine List.forall_mem_append.mpr ⟨fun token member => ?_, begins.above⟩
    rcases Nat.eq_or_lt_of_le lower with rfl | less
    · exact inLine token member
    · left
      rcases inLine token member with above | rfl | rfl
      · omega
      · exact Int.ofNat_lt.mpr less
      · exact Int.ofNat_lt.mpr less
  below := begins.below
  starts := begins.starts

namespace Scan

variable {levels : List Nat} {line column last : Nat} {here next : List Char}
  {below : List (List Char)} {tokens : List Token} {passed : List (Nat × Nat)}

theorem level_words : ∀ token ∈ (Words.read line column here).tokens,
    token.kind ≠ .indent ∧ token.kind ≠ .dedent := by
  intro token member
  have word := Words.isLayout_read line column here token member
  constructor <;> intro same <;> rw [same] at word <;> cases word

theorem level_line : ∀ token ∈ (Words.read line column here).tokens ++ [Token.newline line last],
    token.kind ≠ .indent ∧ token.kind ≠ .dedent :=
  List.forall_mem_append.mpr ⟨level_words, List.forall_mem_singleton.mpr ⟨nofun, nofun⟩⟩

/-- A line starts with its first word, or else with what stands behind its words. -/
theorem starts_words {rest : List Token}
    (starts : ∃ first others, rest = first :: others ∧ Starts last line first others) :
    ∃ first others, (Words.read line column here).tokens ++ rest = first :: others ∧
      Starts last line first others := by
  cases words : (Words.read line column here).tokens with
  | nil => exact starts
  | cons first others =>
      have member : first ∈ (Words.read line column here).tokens :=
        words ▸ List.mem_cons_self
      obtain ⟨opens, closes⟩ := level_words first member
      exact ⟨first, others ++ rest, rfl, Words.line_read _ _ _ first member, opens,
        fun dedent => absurd dedent closes⟩

theorem isLayout_closing (levels : List Nat) (line column : Nat) :
    ∀ token ∈ (levels.map fun _ => Token.dedent line) ++ [Token.newline line column],
      token.kind.isLayout = true := by
  refine List.forall_mem_append.mpr ⟨fun token member => ?_, List.forall_mem_singleton.mpr rfl⟩
  rw [kind_of_mem_dedents member]
  rfl

theorem balance_ending (full : levels ≠ []) :
    levels.length + balance (ending levels line column) = 1 := by
  have positive := List.length_pos_iff.mpr full
  rw [ending_eq, balance_append, balance_dedents, depthOf]
  change _ + (_ + 0) = (1 : Int)
  omega

theorem balance_lineShift (proceeds : (lineShift line levels next).failure = none) :
    levels.length + balance (lineShift line levels next).tokens =
      (lineShift line levels next).levels.length := by
  cases blank : isBlankBody (next.dropWhile isIndentation) with
  | true =>
      rw [lineShift_blank blank]
      exact Int.add_zero _
  | false =>
      rw [lineShift_of_full blank] at proceeds ⊢
      exact Shift.balance_ofWidth proceeds

theorem indents_lineShift :
    (lineShift line levels next).tokens.countP (·.kind == .indent) ≤ 1 := by
  rw [lineShift]
  split
  · exact Nat.zero_le 1
  · exact Shift.indents_ofWidth

theorem Based.ne_nil (based : Based levels) : levels ≠ [] := by
  obtain ⟨inner, rfl, _⟩ := based
  exact List.append_ne_nil_of_right_ne_nil _ (List.cons_ne_nil _ _)

/-- What a complete scan finds starts in its first line. -/
theorem completes_begins (completes : (run levels line column here below).Completes tokens) :
    Begins (line + below.length) line [] tokens := by
  refine ⟨List.forall_mem_nil _, ?_, ?_⟩
  · rcases completes with ⟨passes, rfl⟩
    have starts := run_startsAt levels line column here below
    refine List.forall_mem_append.mpr ⟨starts.tokens_le, fun token member => ?_⟩
    rw [line_ending token member]
    exact Int.ofNat_le.mpr starts.line_le
  · cases below with
    | nil =>
        rcases completes with ⟨passes, rfl⟩
        refine starts_words ?_
        cases closes : levels.drop 1 with
        | nil =>
            rw [run, ending, closes]
            exact ⟨_, _, rfl, starts_newline _ _ _ _⟩
        | cons level outer =>
            rw [run, ending, closes]
            exact ⟨_, _, rfl, starts_dedent line (isLayout_closing outer line _)⟩
    | cons next below =>
        obtain ⟨_, _, later, _, rfl⟩ := completes_cons_iff.mp completes
        exact starts_words ⟨_, _, rfl, starts_newline _ _ _ _⟩

/-- What a scan finds up to the words of the next line: it leads from the open levels to those of
that line. -/
structure LeadsTo (levels inner : List Nat) (line : Nat) (front : List Token) : Prop where
  above : ∀ token ∈ front,
    token.position.line < line ∨ token = Token.indent line ∨ token = Token.dedent line
  opens : ∀ token ∈ front, token.kind = .indent → token = Token.indent line
  single : front.countP (·.kind == .indent) ≤ 1
  balanced : levels.length + balance front = inner.length

theorem leadsTo_next (proceeds : (lineShift (line + 1) levels next).failure = none)
    (column : Nat) (here : List Char) (last : Nat) :
    LeadsTo levels (lineShift (line + 1) levels next).levels (line + 1)
      ((Words.read line column here).tokens ++ [Token.newline line last] ++
        (lineShift (line + 1) levels next).tokens) where
  above := by
    refine List.forall_mem_append.mpr ⟨fun token member => .inl ?_, fun token member => .inr ?_⟩
    · rw [line_words token member]
      exact Int.ofNat_lt.mpr (Nat.lt_succ_self line)
    · exact mem_lineShift member
  opens := by
    refine List.forall_mem_append.mpr ⟨fun token member opens => ?_, fun token member opens => ?_⟩
    · exact absurd opens (level_line token member).1
    · rcases mem_lineShift member with same | rfl
      · exact same
      · cases opens
  single := by
    have none : ((Words.read line column here).tokens ++ [Token.newline line last]).countP
        (·.kind == .indent) = 0 :=
      List.countP_eq_zero.mpr fun token member opens =>
        (level_line token member).1 (eq_of_beq opens)
    rw [List.countP_append, none, Nat.zero_add]
    exact indents_lineShift
  balanced := by
    rw [balance_append, balance_of_level level_line, Int.zero_add, balance_lineShift proceeds]

/-- A complete scan goes on at the words of the next line. -/
theorem exists_leadsTo
    (completes : (run levels line column here (next :: below)).Completes tokens) :
    (lineShift (line + 1) levels next).failure = none ∧
      ∃ front lowest, tokens = front ++ lowest ∧
        LeadsTo levels (lineShift (line + 1) levels next).levels (line + 1) front ∧
        (run (lineShift (line + 1) levels next).levels (line + 1)
          (1 + (next.takeWhile isIndentation).length) (next.dropWhile isIndentation)
          below).Completes lowest := by
  obtain ⟨_, proceeds, entered, enteredCompletes, rfl⟩ := completes_cons_iff.mp completes
  obtain ⟨lowest, lowestCompletes, rfl⟩ := fromLine_completes_iff.mp enteredCompletes
  refine ⟨proceeds, _, lowest, ?_,
    leadsTo_next proceeds column here (Words.read line column here).column, lowestCompletes⟩
  simp only [List.append_assoc, List.cons_append, List.nil_append]

/-- The tokens in front of a line lead to the blocks that can be seen from there. -/
def Reaches (levels : List Nat) (last : Nat) (passed : List (Nat × Nat)) (line width : Nat)
    (tokens : List Token) : Prop :=
  ∃ before after, tokens = before ++ after ∧ Begins last line before after ∧
    levels.length + balance before =
      {level | 0 < level ∧ Sees (passed.map Prod.snd ++ [width]) level}.ncard + 1

theorem LeadsTo.reaches {inner : List Nat} {upper width : Nat} {front : List Token}
    (leads : LeadsTo levels inner upper front)
    (reaches : Reaches inner last passed line width tokens) (lower : upper ≤ line) :
    Reaches levels last passed line width (front ++ tokens) := by
  obtain ⟨before, after, rfl, begins, count⟩ := reaches
  refine ⟨front ++ before, after, (List.append_assoc ..).symm, begins.behind lower leads.above, ?_⟩
  rw [balance_append, ← Int.add_assoc, leads.balanced, count]

theorem opened_lineShift (opened : OpenBehind levels (passed.map Prod.snd))
    (full : isBlankBody (next.dropWhile isIndentation) = false)
    (proceeds : (lineShift line levels next).failure = none) :
    OpenBehind (lineShift line levels next).levels
      ((passed ++ [(line, indentationWidth (next.takeWhile isIndentation))]).map Prod.snd) := by
  rw [lineShift_of_full full] at proceeds ⊢
  by_cases fits : FitsBehind (passed.map Prod.snd)
    (indentationWidth (next.takeWhile isIndentation))
  · rw [List.map_append]
    exact (opened.ofWidth_fits fits).2
  · obtain ⟨cause, fails, _⟩ := @OpenBehind.ofWidth_misfits _ _ line _ opened fits
    rw [proceeds] at fails
    cases fails

/-- In front of every line the blocks that can be seen from there are open. -/
theorem run_reaches (opened : OpenBehind levels (passed.map Prod.snd))
    (completes : (run levels line column here below).Completes tokens)
    {earlier later : List (Nat × Nat)} {lower width : Nat}
    (place : widthsFrom (line + 1) below = earlier ++ (lower, width) :: later) :
    Reaches levels (line + below.length) (passed ++ earlier) lower width tokens := by
  induction below generalizing levels line column here passed tokens earlier with
  | nil => cases earlier <;> cases place
  | cons next below ih =>
      have inside : (lower, width) ∈ widthsFrom (line + 1) (next :: below) :=
        place ▸ List.mem_append_right _ List.mem_cons_self
      obtain ⟨proceeds, front, lowest, rfl, leads, lowestCompletes⟩ := exists_leadsTo completes
      rw [List.length_cons, Nat.add_comm below.length, ← Nat.add_assoc]
      refine leads.reaches ?_ (le_of_mem_widthsFrom inside)
      cases blank : isBlankBody (next.dropWhile isIndentation) with
      | true =>
          rw [widthsFrom_blank blank] at place
          rw [lineShift_blank blank] at lowestCompletes ⊢
          exact ih opened lowestCompletes place
      | false =>
          have further := opened_lineShift opened blank proceeds
          rw [widthsFrom_full blank] at place
          cases earlier with
          | nil =>
              obtain ⟨rfl, rfl⟩ := Prod.mk.inj (List.cons.inj place).1
              refine ⟨[], lowest, rfl, completes_begins lowestCompletes, ?_⟩
              rw [List.map_append] at further
              rw [balance_nil, Int.add_zero, List.append_nil, ← further.ncard_eq]
              rfl
          | cons first earlier =>
              obtain ⟨rfl, others⟩ := List.cons.inj place
              rw [List.append_cons]
              exact ih further lowestCompletes others

/-- No line opens more than one block, and the first line of a scan none. -/
theorem run_single (completes : (run levels line column here below).Completes tokens)
    (lower : Nat) : tokens.countP (Token.opensIn lower) ≤ if lower ≤ line then 0 else 1 := by
  induction below generalizing levels line column here tokens with
  | nil =>
      rcases completes with ⟨passes, rfl⟩
      refine (List.countP_eq_zero.mpr fun token member opens => ?_).trans_le (Nat.zero_le _)
      have level : token.kind ≠ .indent := by
        rcases List.mem_append.mp member with word | ends
        · exact (level_words token word).1
        · rcases List.mem_append.mp ends with dedent | newline
          · rw [kind_of_mem_dedents dedent]
            decide
          · rw [List.mem_singleton.mp newline]
            nofun
      exact level (Token.opensIn_iff.mp opens).1
  | cons next below ih =>
      obtain ⟨_, front, lowest, rfl, leads, lowestCompletes⟩ := exists_leadsTo completes
      have others := ih lowestCompletes
      rw [List.countP_append]
      rcases eq_or_ne lower (line + 1) with rfl | other
      · have first : front.countP (Token.opensIn (line + 1)) ≤ front.countP (·.kind == .indent) :=
          List.countP_mono_left fun token member opens => beq_of_eq (Token.opensIn_iff.mp opens).1
        rw [if_pos (Nat.le_refl _)] at others
        rw [if_neg (Nat.not_succ_le_self line)]
        exact Nat.add_le_add (first.trans leads.single) others
      · have none : front.countP (Token.opensIn lower) = 0 := by
          refine List.countP_eq_zero.mpr fun token member opens => other ?_
          obtain ⟨indent, place⟩ := Token.opensIn_iff.mp opens
          rw [leads.opens token member indent] at place
          exact (Int.ofNat_inj.mp place).symm
        rw [none, Nat.zero_add]
        refine others.trans ?_
        split <;> split <;> omega

/-- All blocks are closed at the end of a text. -/
theorem run_closed (based : Based levels)
    (completes : (run levels line column here below).Completes tokens) :
    levels.length + balance tokens = 1 := by
  induction below generalizing levels line column here tokens with
  | nil =>
      rcases completes with ⟨passes, rfl⟩
      rw [finished, balance_append, run, balance_of_level level_words, Int.zero_add]
      exact balance_ending based.ne_nil
  | cons next below ih =>
      obtain ⟨proceeds, front, lowest, rfl, leads, lowestCompletes⟩ := exists_leadsTo completes
      rw [balance_append, ← Int.add_assoc, leads.balanced]
      exact ih (based.lineShift proceeds) lowestCompletes

/-- The blocks of a text are those of its lines. -/
theorem ofText_indented {text : String} (completes : (ofText text.toList).Completes tokens) :
    Indented (widthsOf text) (Text.lines text.toList).length tokens where
  depth earlier line width later place := by
    have last : (Text.lines text.toList).length = 1 + (Text.splitLines text.toList).2.length :=
      Nat.add_comm _ _
    cases earlier with
    | nil =>
        obtain ⟨rfl, rfl⟩ := Prod.mk.inj (List.cons.inj place).1
        have begins := completes_begins completes
        refine ⟨[], tokens, rfl, last ▸ begins, ?_⟩
        exact (congrArg Nat.cast (Nat.succ.inj openBehind_margin.ncard_eq)).symm
    | cons first earlier =>
        obtain ⟨rfl, others⟩ := List.cons.inj place
        obtain ⟨before, after, parts, begins, count⟩ :=
          @run_reaches _ _ _ _ _ _ [(1, 0)] openBehind_margin completes _ _ _ _ others
        refine ⟨before, after, parts, last ▸ begins, ?_⟩
        exact Int.add_left_cancel (count.trans (Int.add_comm _ _))
  single lower := by
    refine (run_single completes lower).trans ?_
    split
    · exact Nat.zero_le 1
    · exact Nat.le_refl 1
  closed := Int.add_left_cancel (run_closed based_margin completes)

end Scan

/-! ## Whole texts -/

structure Offside (file : Path) (text : String) : Prop where
  accepts : (∃ tokens, tokenize file text = .ok tokens) ↔ AllFit (widthsOf text)
  rejects : ¬ AllFit (widthsOf text) → ∃ (line : Nat) (cause : Fault) (site : Site),
    tokenize file text = .error (.fault ⟨cause, some site⟩) ∧ site.position.line = line ∧
      FirstMisfit (widthsOf text) line cause
  blocks : ∀ tokens, tokenize file text = .ok tokens →
    Indented (widthsOf text) (Text.lines text.toList).length tokens
  widths : ∀ other, Reindented text other →
    ((tokenize file other).map (List.map Token.columnless)).mapError
        (Failure.resited Site.inLine) =
      ((tokenize file text).map (List.map Token.columnless)).mapError
        (Failure.resited Site.inLine)

section Whole

variable {file : Path} {text : String}

theorem tokenize_measures
    (clean : ∀ c site, tokenize file text ≠ .error (.fault ⟨.unexpectedCharacter c, site⟩)) :
    (∃ tokens, tokenize file text = .ok tokens) ∧ AllFit (widthsOf text) ∨
      ∃ (line : Nat) (cause : Fault) (site : Site),
        tokenize file text = .error (.fault ⟨cause, some site⟩) ∧ site.position.line = line ∧
          FirstMisfit (widthsOf text) line cause := by
  have scanned := Scan.tokenize_eq file text
  cases Scan.ofText_measures text with
  | halts c stops =>
      rw [stops] at scanned
      exact absurd scanned (clean c _)
  | misfits stops first =>
      rw [stops] at scanned
      exact .inr ⟨_, _, _, scanned, rfl, first⟩
  | passes passes fit =>
      rw [passes] at scanned
      exact .inl ⟨⟨_, scanned⟩, fit⟩

/-- A text without an unexpected character follows the offside rule. -/
theorem offside_rule
    (clean : ∀ c site, tokenize file text ≠ .error (.fault ⟨.unexpectedCharacter c, site⟩)) :
    Offside file text where
  accepts := by
    rcases tokenize_measures clean with ⟨scanned, fit⟩ | ⟨line, cause, site, fails, _, first⟩
    · exact iff_of_true scanned fit
    · refine iff_of_false ?_ first.not_allFit
      rintro ⟨tokens, scanned⟩
      rw [scanned] at fails
      cases fails
  rejects unfit := (tokenize_measures clean).resolve_left fun both => unfit both.2
  blocks _ scanned := Scan.ofText_indented (Scan.tokenize_ok_iff.mp scanned)
  widths _ reindented := reindented.tokenize file

end Whole

/-- A text that jumps to the width eight and on to twelve, and comes back in one step.  The third
line is blank. -/
def steppedText : String :=
  "a\n        b\n   \r\n        \tc\nd"

def tabbedText : String :=
  " a\n\t\tb\n\r\n\t\t    c\nd"

def steppedTokens : List Token :=
  [⟨.identifier, "a", ⟨1, 1⟩⟩, .newline 1 2, .indent 2, ⟨.identifier, "b", ⟨2, 9⟩⟩, .newline 2 10,
   .newline 3 5, .indent 4, ⟨.identifier, "c", ⟨4, 10⟩⟩, .newline 4 11, .dedent 5, .dedent 5,
   ⟨.identifier, "d", ⟨5, 1⟩⟩, .newline 5 2]

/-- A text that comes back to a width at which no block stands. -/
def fallenText : String :=
  "a\n        b\n    c"

def fallenSite : Site :=
  ⟨Path.ofString "steps.puzzle", ⟨3, 5⟩, some "    c"⟩

theorem offside_steppedText_fallenText :
    tokenize (Path.ofString "steps.puzzle") steppedText = .ok steppedTokens ∧
      widthsOf steppedText = [(1, 0), (2, 8), (4, 12), (5, 0)] ∧
      Reindented steppedText tabbedText ∧
      Offside (Path.ofString "steps.puzzle") steppedText ∧
      tokenize (Path.ofString "steps.puzzle") fallenText =
        .error (.fault ⟨.unmatchedIndentation 0 4, some fallenSite⟩) ∧
      widthsOf fallenText = [(1, 0), (2, 8), (3, 4)] ∧
      Offside (Path.ofString "steps.puzzle") fallenText := by
  have scanned : tokenize (Path.ofString "steps.puzzle") steppedText = .ok steppedTokens := by
    decide +kernel
  have fails : tokenize (Path.ofString "steps.puzzle") fallenText =
      .error (.fault ⟨.unmatchedIndentation 0 4, some fallenSite⟩) := by
    decide +kernel
  refine ⟨scanned, by decide +kernel, by decide +kernel, ?_, fails, by decide +kernel, ?_⟩
  · exact offside_rule fun c site halts => nomatch scanned.symm.trans halts
  · exact offside_rule fun c site halts => nomatch fails.symm.trans halts

end LogicPuzzle
