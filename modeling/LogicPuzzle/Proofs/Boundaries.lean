import LogicPuzzle.Proofs.ScannerStates
import Mathlib.Logic.Relation

/-!
# Places where words start

From the start of a text on, one separator or word is passed after the other,
each as long as it can be.  A word has to start at each of the places that are
passed.  A scan passes these places and no others, and if it comes upon a
character that starts no word, this is the first such place where nothing starts.
What stands before it can be scanned to its end.
-/

namespace LogicPuzzle

/-! ## Separators and words -/

/-- A separator or a word stands in front of other characters and is as long as it can be. -/
inductive Opening : List Char → List Char → Prop where
  | separator {c : Char} (rest : List Char) (separates : isSeparator c = true) : Opening [c] rest
  | yields (rest : List Char) : Opening ['=', '>'] rest
  | differs (rest : List Char) : Opening ['!', '='] rest
  | mark {c : Char} {kind : Kind} {rest : List Char} (marked : markKind? c = some kind)
      (single : c = '=' → rest.head? ≠ some '>') : Opening [c] rest
  | word {c : Char} {others rest : List Char} (start : Text.isWordStart c = true)
      (parts : ∀ d ∈ others, Text.isWordPart d = true)
      (ends : ∀ d ∈ rest.head?, Text.isWordPart d = false) : Opening (c :: others) rest
  | number {c : Char} {others rest : List Char} (noWord : Text.isWordStart c = false)
      (digits : ∀ d ∈ c :: others, Text.isDigit d = true)
      (ends : ∀ d ∈ rest.head?, Text.isDigit d = false) : Opening (c :: others) rest

/-- A character, in front of others, that is no separator and starts no word. -/
structure StartsNothing (c : Char) (after : List Char) : Prop where
  solid : isSeparator c = false
  unmarked : markKind? c = none
  noWord : Text.isWordStart c = false
  noDigit : Text.isDigit c = false
  noOperator : c = '!' → after.head? ≠ some '='

theorem first?_newline (rest : List Char) : Piece.first? ('\n' :: rest) = none :=
  (first?_cons (by decide) (by decide)).trans (@Piece.startingWith?_none '\n' [] (by decide) rest)

theorem isGap_of_marked {c : Char} {kind : Kind} (marked : markKind? c = some kind) :
    isGap c = false := by
  unfold markKind? at marked
  split at marked
  all_goals first | rfl | cases marked

/-- A digit starts a number and, unless it starts a word, nothing else. -/
theorem number_starts {c : Char} (digit : Text.isDigit c = true) :
    isGap c = false ∧ markKind? c = none ∧ c ≠ '=' ∧ c ≠ '!' := by
  have other : ∀ d : Char, Text.isDigit d = false → c ≠ d := by
    rintro d no rfl
    rw [digit] at no
    cases no
  refine ⟨isGap_of_class (by decide) digit, ?_, other _ (by decide), other _ (by decide)⟩
  unfold markKind?
  split
  all_goals first | exact absurd rfl (other _ (by decide)) | rfl

namespace Opening

variable {piece rest other after : List Char} {c : Char}

/-- What stands in front is a newline or the first piece of the characters. -/
theorem found (opening : Opening piece rest) :
    piece = ['\n'] ∨ ∃ kind, Piece.first? (piece ++ rest) = some ⟨kind, piece, rest⟩ := by
  cases opening with
  | @separator c rest separates =>
      rw [isSeparator_eq, Bool.or_eq_true, beq_iff_eq] at separates
      rcases separates with gap | rfl
      · have solid {d : Char} (none : isGap d = false) : c ≠ d := by
          rintro rfl
          rw [gap] at none
          cases none
        refine .inr ⟨none, ?_⟩
        rw [List.singleton_append, first?_cons (solid (by decide)) (solid (by decide))]
        exact if_pos gap
      · exact .inl rfl
  | yields rest => exact .inr ⟨_, rfl⟩
  | differs rest => exact .inr ⟨_, rfl⟩
  | @mark c kind rest marked single =>
      refine .inr ⟨some kind, ?_⟩
      have noDiffers : c = '!' → rest.head? ≠ some '=' := by
        rintro rfl
        cases marked
      rw [List.singleton_append, Piece.first?_cons_of_head single noDiffers, Piece.startingWith?,
        isGap_of_marked marked, marked]
      rfl
  | @word c others rest start parts ends =>
      obtain ⟨noGap, noMark, noEquals, noBang⟩ := wordStart_starts start
      obtain ⟨taken, dropped⟩ := takeWhile_stops parts ends
      refine .inr ⟨some (Kind.ofWord (c :: others)), ?_⟩
      rw [List.cons_append, first?_cons noEquals noBang, Piece.startingWith?, noGap, noMark]
      simp only [Bool.false_eq_true, if_false, start, if_true, taken, dropped]
  | @number c others rest noWord digits ends =>
      obtain ⟨first, more⟩ := List.forall_mem_cons.mp digits
      obtain ⟨noGap, noMark, noEquals, noBang⟩ := number_starts first
      obtain ⟨taken, dropped⟩ := takeWhile_stops more ends
      refine .inr ⟨some .number, ?_⟩
      rw [List.cons_append, first?_cons noEquals noBang, Piece.startingWith?, noGap, noMark]
      simp only [Bool.false_eq_true, if_false, noWord, first, if_true, taken, dropped]

/-- Only one separator or word can stand in front of some characters. -/
theorem unique {others : List Char} (opening : Opening piece rest) (second : Opening other others)
    (same : piece ++ rest = other ++ others) : piece = other ∧ rest = others := by
  rcases opening.found with rfl | ⟨kind, first⟩ <;> rcases second.found with rfl | ⟨more, found⟩
  · exact ⟨rfl, (List.cons.inj same).2⟩
  · rw [← same] at found
    cases (first?_newline rest).symm.trans found
  · rw [same] at first
    cases (first?_newline others).symm.trans first
  · rw [same, found] at first
    cases first
    exact ⟨rfl, rfl⟩

theorem not_startsNothing (opening : Opening piece rest) (same : piece ++ rest = c :: after) :
    ¬ StartsNothing c after := by
  intro nothing
  cases opening with
  | separator rest separates =>
      cases same
      cases separates.symm.trans nothing.solid
  | yields =>
      cases same
      cases nothing.unmarked
  | differs =>
      cases same
      exact nothing.noOperator rfl rfl
  | mark marked =>
      cases same
      cases marked.symm.trans nothing.unmarked
  | word start =>
      cases same
      cases start.symm.trans nothing.noWord
  | number noWord digits =>
      cases same
      cases (digits _ List.mem_cons_self).symm.trans nothing.noDigit

/-- A piece that is cut from a line stands in front of the rest of the line. -/
theorem of_first? {cs : List Char} {piece : Piece} (found : Piece.first? cs = some piece) :
    Opening piece.text piece.rest := by
  unfold Piece.first? at found
  split at found
  · cases found
  · cases found
    exact .yields _
  · cases found
    exact .differs _
  · next noYields _ =>
      unfold Piece.startingWith? at found
      split at found
      · next gap =>
          cases found
          exact .separator _ (by rw [isSeparator_eq, gap]; rfl)
      · split at found
        · next marked =>
            cases found
            refine .mark marked ?_
            rintro rfl
            exact head?_ne_of_cons fun rest same => noYields rest rfl same
        · split at found
          · next start =>
              cases found
              exact .word start (fun d => List.mem_takeWhile_imp) (dropWhile_stops _ _)
          · next noStart =>
              split at found
              · next digit =>
                  cases found
                  exact .number (Bool.eq_false_iff.mpr noStart)
                    (List.forall_mem_cons.mpr ⟨digit, fun d => List.mem_takeWhile_imp⟩)
                    (dropWhile_stops _ _)
              · cases found

end Opening

theorem startsNothing_of_first? {c : Char} {cs : List Char} (inLine : c ≠ '\n')
    (unfound : Piece.first? (c :: cs) = none) : StartsNothing c cs := by
  unfold Piece.first? at unfound
  split at unfound
  · contradiction
  · cases unfound
  · cases unfound
  · next noYields noDiffers same =>
      cases same
      have noOperator : c = '!' → cs.head? ≠ some '=' := by
        rintro rfl
        exact head?_ne_of_cons fun rest same => noDiffers rest rfl same
      unfold Piece.startingWith? at unfound
      split at unfound
      · cases unfound
      · next noGap =>
          split at unfound
          · cases unfound
          · next unmarked =>
              split at unfound
              · cases unfound
              · next noStart =>
                  split at unfound
                  · cases unfound
                  · next noDigit =>
                      refine ⟨?_, unmarked, Bool.eq_false_iff.mpr noStart,
                        Bool.eq_false_iff.mpr noDigit, noOperator⟩
                      rw [isSeparator_eq, Bool.eq_false_iff.mpr noGap, Bool.false_or]
                      exact beq_eq_false_iff_ne.mpr inLine

/-! ## Boundaries -/

/-- From a place in a text, given by what stands before and behind it, one separator or word is
passed. -/
inductive Passes : List Char × List Char → List Char × List Char → Prop where
  | past {before piece rest : List Char} (opening : Opening piece rest) :
      Passes (before, piece ++ rest) (before ++ piece, rest)

/-- A place of a text where a word has to start: everything before it has been passed. -/
def Boundary (text before after : List Char) : Prop :=
  Relation.ReflTransGen Passes ([], text) (before, after)

namespace Passes

variable {before after gap : List Char} {start place : List Char × List Char} {c : Char}

theorem rightUnique : Relator.RightUnique Passes := by
  rintro _ _ _ ⟨opening⟩ second
  generalize place : (_, _) = start at second
  cases second with
  | past other =>
      obtain ⟨rfl, same⟩ := Prod.mk.inj place
      obtain ⟨rfl, rfl⟩ := opening.unique other same
      rfl

theorem separators (separate : ∀ c ∈ gap, isSeparator c = true) (before rest : List Char) :
    Relation.ReflTransGen Passes (before, gap ++ rest) (before ++ gap, rest) := by
  induction gap generalizing before with
  | nil => rw [List.append_nil]; exact .refl
  | cons c gap ih =>
      obtain ⟨first, others⟩ := List.forall_mem_cons.mp separate
      have step : Passes (before, [c] ++ (gap ++ rest)) (before ++ [c], gap ++ rest) :=
        .past (.separator _ first)
      rw [List.append_cons]
      exact .head step (ih others _)

theorem split (reaches : Relation.ReflTransGen Passes start place) :
    place.1 ++ place.2 = start.1 ++ start.2 := by
  induction reaches with
  | refl => rfl
  | tail _ step ih =>
      cases step
      rw [← ih, List.append_assoc]

theorem length_le (reaches : Relation.ReflTransGen Passes start place) :
    start.1.length ≤ place.1.length := by
  induction reaches with
  | refl => exact Nat.le_refl _
  | tail _ step ih =>
      cases step
      rw [List.length_append]
      exact ih.trans (Nat.le_add_right _ _)

/-- Nothing is passed where nothing starts. -/
theorem stuck (nothing : StartsNothing c after)
    (reaches : Relation.ReflTransGen Passes (before, c :: after) place) :
    place = (before, c :: after) := by
  rcases reaches.cases_head with rfl | ⟨next, step, _⟩
  · rfl
  · generalize start : (before, c :: after) = place at step
    cases step with
    | past opening => exact absurd nothing (opening.not_startsNothing (Prod.mk.inj start).2.symm)

end Passes

/-- Before a place where a word has to start, something starts at all such places. -/
theorem Boundary.earlier {text before after sooner later : List Char} {c : Char}
    (boundary : Boundary text before after) (earlier : Boundary text sooner (c :: later))
    (shorter : sooner.length < before.length) : ¬ StartsNothing c later := by
  intro nothing
  rcases boundary.total_of_right_unique Passes.rightUnique earlier with onward | onward
  · exact Nat.not_lt.mpr (Passes.length_le onward) shorter
  · obtain ⟨rfl, _⟩ := Prod.mk.inj (Passes.stuck nothing onward)
    exact Nat.lt_irrefl _ shorter

/-! ## Scans pass boundaries -/

/-- What separates lines prolongs no piece. -/
theorem follows_append {rest tail : List Char} (newline : ∀ c ∈ tail.head?, c = '\n') :
    Follows rest (rest ++ tail) := by
  cases rest with
  | nil =>
      intro c next
      rw [newline c next]
      exact .inl (by decide)
  | cons d rest => exact fun c next => .inr next

theorem head?_below (below : List (List Char)) :
    ∀ c ∈ (below.flatMap fun line => '\n' :: line).head?, c = '\n' := by
  cases below with
  | nil => exact nofun
  | cons next below => exact fun c first => (Option.some.inj first).symm

/-- A piece of a line is passed. -/
theorem Passes.piece {cs tail : List Char} {piece : Piece} (found : Piece.first? cs = some piece)
    (newline : ∀ c ∈ tail.head?, c = '\n') (before : List Char) :
    Passes (before, cs ++ tail) (before ++ piece.text, piece.rest ++ tail) := by
  have further := Piece.first?_replace found (follows_append newline)
  rw [← (Piece.first?_text_append_rest found).1, List.append_assoc]
  exact .past (Opening.of_first? further)

/-- Cutting a line passes its words. -/
theorem Words.passes_read (line column : Nat) (cs : List Char) {tail : List Char}
    (newline : ∀ c ∈ tail.head?, c = '\n') :
    ∃ words, ∀ before, Relation.ReflTransGen Passes (before, cs ++ tail)
      (before ++ words, (read line column cs).rest ++ tail) := by
  refine end_induction (P := fun _ cs _ rest => ∃ words, ∀ before,
    Relation.ReflTransGen Passes (before, cs ++ tail) (before ++ words, rest ++ tail))
    ?_ ?_ line column cs
  · exact fun _ cs _ => ⟨[], fun before => by rw [List.append_nil]⟩
  · rintro _ cs piece _ rest found ⟨words, onward⟩
    refine ⟨piece.text ++ words, fun before => .head (.piece found newline before) ?_⟩
    rw [← List.append_assoc]
    exact onward _

/-- The end of a line and the indentation of the next one are passed. -/
theorem Passes.enter (next : List Char) (below : List (List Char)) (before : List Char) :
    Relation.ReflTransGen Passes (before, Text.joinLines [] (next :: below))
      (before ++ '\n' :: next.takeWhile isIndentation,
        Text.joinLines (next.dropWhile isIndentation) below) := by
  have separate : ∀ c ∈ '\n' :: next.takeWhile isIndentation, isSeparator c = true := by
    refine List.forall_mem_cons.mpr ⟨rfl, fun c member => ?_⟩
    have indents : isIndentation c = true := List.mem_takeWhile_imp member
    rw [isSeparator, Bool.or_assoc, Bool.or_eq_true]
    exact .inl indents
  have passes := Passes.separators separate before
    (Text.joinLines (next.dropWhile isIndentation) below)
  rwa [Text.joinLines, List.cons_append, ← List.append_assoc, List.takeWhile_append_dropWhile]
    at passes

namespace Scan

variable {levels : List Nat} {line column : Nat} {here next : List Char}
  {below : List (List Char)}

/-- A scan passes everything up to the place that it reaches. -/
theorem passes_run (levels : List Nat) (line column : Nat) (here : List Char)
    (below : List (List Char)) (before : List Char) :
    ∃ further, Relation.ReflTransGen Passes (before, Text.joinLines here below)
      (further, Text.joinLines (run levels line column here below).here
        (run levels line column here below).below) := by
  obtain ⟨words, inLine⟩ := Words.passes_read line column here (head?_below below)
  induction below generalizing levels line column here before words with
  | nil => exact ⟨_, inLine before⟩
  | cons next below ih =>
      cases unread : unreadFailure (Words.read line column here).rest with
      | some failure =>
          rw [run_unread unread]
          exact ⟨_, inLine before⟩
      | none =>
          have behind := inLine before
          rw [rest_eq_nil_of_whole unread] at behind
          have below_line := behind.trans (Passes.enter next below (before ++ words))
          rw [run_entered unread, entered]
          split
          · exact ⟨_, below_line⟩
          · obtain ⟨later, onward⟩ := Words.passes_read (line + 1)
              (1 + (next.takeWhile isIndentation).length) (next.dropWhile isIndentation)
              (head?_below below)
            obtain ⟨further, reaches⟩ := ih (lineShift (line + 1) levels next).levels (line + 1)
              (1 + (next.takeWhile isIndentation).length) (next.dropWhile isIndentation)
              (before ++ words ++ '\n' :: next.takeWhile isIndentation) later onward
            exact ⟨further, below_line.trans reaches⟩

/-! ## Characters that a scan comes upon -/

def ComesUpon (c : Char) (scan : Scan) : Prop :=
  ∃ site, scan.failure = some (.fault ⟨.unexpectedCharacter c, site⟩)

theorem failure_ofWidth_ne {width : Int} {c : Char} {site : Option Site} :
    (Shift.ofWidth line levels width).failure ≠
      some (.fault ⟨.unexpectedCharacter c, site⟩) := by
  intro fails
  unfold Shift.ofWidth Shift.closing at fails
  repeat' split at fails
  all_goals cases fails

theorem failure_lineShift_ne {c : Char} {site : Option Site} :
    (lineShift line levels next).failure ≠ some (.fault ⟨.unexpectedCharacter c, site⟩) := by
  rw [lineShift]
  split
  · exact (Option.some_ne_none _).symm
  · exact failure_ofWidth_ne

/-- A character that is not read is one at which no piece starts. -/
theorem unread_of_failure {c : Char} {site : Option Site}
    (fails : unreadFailure (Words.read line column here).rest =
      some (.fault ⟨.unexpectedCharacter c, site⟩)) :
    ∃ rest, (Words.read line column here).rest = c :: rest ∧ Piece.first? (c :: rest) = none := by
  have unfound := Words.end_induction (P := fun _ _ _ rest => Piece.first? rest = none)
    (fun _ _ none => none) (fun _ _ _ _ _ _ later => later) line column here
  cases left : (Words.read line column here).rest with
  | nil =>
      rw [left] at fails
      cases fails
  | cons d rest =>
      rw [left] at fails unfound
      cases fails
      exact ⟨rest, rfl, unfound⟩

/-- A scan stops in front of the character that it comes upon. -/
theorem here_of_comesUpon {c : Char} (comes : (run levels line column here below).ComesUpon c) :
    ∃ rest, (run levels line column here below).here = c :: rest ∧
      Piece.first? (c :: rest) = none := by
  obtain ⟨site, comes⟩ := comes
  induction below generalizing levels line column here with
  | nil => exact unread_of_failure comes
  | cons next below ih =>
      cases unread : unreadFailure (Words.read line column here).rest with
      | some failure =>
          rw [run_unread unread] at comes ⊢
          exact unread_of_failure (unread.trans comes)
      | none =>
          rw [run_entered unread, entered] at comes ⊢
          split at comes
          · next misfit =>
              cases comes
              exact absurd misfit failure_lineShift_ne
          · exact ih comes

end Scan

/-! ## Texts that are cut off -/

theorem Text.joinLines_cons (first next : List Char) (below : List (List Char)) :
    joinLines first (next :: below) = first ++ '\n' :: joinLines next below := by
  rw [joinLines, joinLines, List.flatMap_cons, List.cons_append]

theorem Text.joinLines_append (front first : List Char) (below : List (List Char)) :
    joinLines (front ++ first) below = front ++ joinLines first below :=
  List.append_assoc ..

namespace Words

theorem rest_of_found {cs : List Char} {piece : Piece} (found : Piece.first? cs = some piece)
    (line column : Nat) :
    (read line column cs).rest = (read line (column + piece.text.length) piece.rest).rest := by
  rw [Cuts.read_piece found]
  cases piece.kind <;> rfl

/-- A piece in front of some characters is left the same when they are cut off. -/
theorem follows_cut (words rest : List Char) : Follows (words ++ rest) words := by
  cases words with
  | nil => exact nofun
  | cons c words => exact fun d next => .inr next

/-- A line that is cut off behind its words is read to its end. -/
theorem exists_cut (line column : Nat) (cs : List Char) :
    ∃ words, cs = words ++ (read line column cs).rest ∧ (read line column words).rest = [] := by
  refine end_induction (P := fun column cs _ rest =>
    ∃ words, cs = words ++ rest ∧ (read line column words).rest = []) ?_ ?_ line column cs
  · exact fun column cs _ => ⟨[], rfl, by rw [read_none rfl]⟩
  · rintro column cs piece _ rest found ⟨words, split, whole⟩
    refine ⟨piece.text ++ words, ?_, ?_⟩
    · rw [List.append_assoc, ← split, (Piece.first?_text_append_rest found).1]
    · rw [rest_of_found (Piece.first?_replace found (split ▸ follows_cut words rest))]
      exact whole

end Words

namespace Scan

variable {levels : List Nat} {line column : Nat} {here next first : List Char}
  {below others : List (List Char)} {c : Char}

/-- The lines of a text up to a character that a scan of the text comes upon: the last one is cut
off in front of it.  They can be scanned to their end. -/
structure CutOff (levels : List Nat) (line column : Nat) (here : List Char)
    (below : List (List Char)) (c : Char) (first : List Char) (others : List (List Char)) :
    Prop where
  split : Text.joinLines here below = Text.joinLines first others ++ Text.joinLines
    (run levels line column here below).here (run levels line column here below).below
  unbroken : ∀ one ∈ first :: others, '\n' ∉ one
  cut : first = here ∨ others = [] ∧ ∃ rest, here = first ++ c :: rest
  passes : (run levels line column first others).failure = none

theorem isBlankBody_append_cons {body : List Char} (full : isBlankBody body = false) (c : Char)
    (rest : List Char) : isBlankBody (body ++ c :: rest) = false := by
  cases body with
  | nil => cases full
  | cons d body => simp [isBlankBody]

/-- A line that is cut off behind its indentation is blank or stands at the width of the whole
line.  So it is entered like the whole line. -/
theorem entered_cut (cut : first = next.dropWhile isIndentation ∨ others = [] ∧
      ∃ rest, next.dropWhile isIndentation = first ++ c :: rest)
    (fits : (lineShift line levels next).failure = none)
    (passes : (run (lineShift line levels next).levels line
      (1 + (next.takeWhile isIndentation).length) first others).failure = none) :
    (entered levels line (next.takeWhile isIndentation ++ first) others).failure = none := by
  rcases cut with rfl | ⟨rfl, rest, split⟩
  · rw [List.takeWhile_append_dropWhile, entered, fits]
    exact passes
  · have stops : ∀ d ∈ first.head?, isIndentation d = false := by
      intro d leads
      refine dropWhile_stops isIndentation next d ?_
      rw [split, List.head?_append, leads]
      rfl
    obtain ⟨taken, dropped⟩ := takeWhile_stops (fun d => List.mem_takeWhile_imp) stops
    cases blank : isBlankBody first with
    | true =>
        have skips := lineShift_blank (dropped.symm ▸ blank) line levels
        rw [entered, skips]
        change (fromLine levels line _ []).failure = none
        rw [fromLine, skips, taken, dropped, run]
        rwa [run] at passes
    | false =>
        have full := isBlankBody_append_cons blank c rest
        have same : lineShift line levels (next.takeWhile isIndentation ++ first) =
            lineShift line levels next := by
          rw [lineShift_of_full (dropped.symm ▸ blank), lineShift_of_full (split ▸ full), taken]
        rw [entered, same, fits]
        change (fromLine levels line _ []).failure = none
        rw [fromLine, same, taken, dropped]
        exact passes

/-- The character is one of the line in which the scan starts. -/
theorem exists_cutOff_here {site : Option Site} (unbroken : '\n' ∉ here)
    (unread : unreadFailure (Words.read line column here).rest =
      some (.fault ⟨.unexpectedCharacter c, site⟩)) (levels : List Nat)
    (below : List (List Char)) : ∃ words, CutOff levels line column here below c words [] := by
  obtain ⟨rest, left, _⟩ := unread_of_failure unread
  obtain ⟨words, split, whole⟩ := Words.exists_cut line column here
  refine ⟨words, ?_, ?_, .inr ⟨rfl, rest, left ▸ split⟩, ?_⟩
  · rw [run_unread unread, Text.joinLines, Text.joinLines, Text.joinLines, List.flatMap_nil,
      List.append_nil, ← List.append_assoc, ← split]
  · rw [List.forall_mem_singleton]
    exact fun inside => unbroken (split ▸ List.mem_append_left _ inside)
  · rw [run, whole]
    rfl

theorem exists_cutOff (unbroken : ∀ one ∈ here :: below, '\n' ∉ one)
    (comes : (run levels line column here below).ComesUpon c) :
    ∃ first others, CutOff levels line column here below c first others := by
  obtain ⟨site, comes⟩ := comes
  obtain ⟨hereUnbroken, belowUnbroken⟩ := List.forall_mem_cons.mp unbroken
  induction below generalizing levels line column here with
  | nil =>
      obtain ⟨words, cut⟩ := exists_cutOff_here hereUnbroken comes levels []
      exact ⟨words, [], cut⟩
  | cons next below ih =>
      cases unread : unreadFailure (Words.read line column here).rest with
      | some failure =>
          rw [run_unread unread] at comes
          obtain ⟨words, cut⟩ :=
            exists_cutOff_here hereUnbroken (unread.trans comes) levels (next :: below)
          exact ⟨words, [], cut⟩
      | none =>
          rw [run_entered unread, entered] at comes
          split at comes
          · next misfit =>
              cases comes
              exact absurd misfit failure_lineShift_ne
          · next fits =>
              have parts := List.takeWhile_append_dropWhile (p := isIndentation) (l := next)
              obtain ⟨nextUnbroken, lower⟩ := List.forall_mem_cons.mp belowUnbroken
              rw [← parts, List.mem_append, not_or] at nextUnbroken
              obtain ⟨first, others, cut⟩ := ih
                (List.forall_mem_cons.mpr ⟨nextUnbroken.2, lower⟩) comes nextUnbroken.2 lower
              refine ⟨here, (next.takeWhile isIndentation ++ first) :: others, ?_, ?_, .inl rfl, ?_⟩
              · have indented := Text.joinLines_append (next.takeWhile isIndentation)
                  (next.dropWhile isIndentation) below
                rw [parts, cut.split] at indented
                rw [run_entered unread, entered, fits, Text.joinLines_cons, Text.joinLines_cons,
                  indented, Text.joinLines_append]
                simp only [List.append_assoc, List.cons_append]
                rfl
              · obtain ⟨firstUnbroken, othersUnbroken⟩ := List.forall_mem_cons.mp cut.unbroken
                refine List.forall_mem_cons.mpr
                  ⟨hereUnbroken, List.forall_mem_cons.mpr ⟨?_, othersUnbroken⟩⟩
                rw [List.mem_append, not_or]
                exact ⟨nextUnbroken.1, firstUnbroken⟩
              · rw [run_entered unread]
                exact entered_cut cut.cut fits cut.passes

/-- The place that the scan of a text reaches is one where a word has to start. -/
theorem exists_boundary (text : List Char) :
    ∃ before, Boundary text before (Text.joinLines (ofText text).here (ofText text).below) ∧
      HasRead text before (ofText text).line (ofText text).column (ofText text).here
        (ofText text).below := by
  obtain ⟨before, passes⟩ :=
    passes_run [0] 1 1 (Text.splitLines text).1 (Text.splitLines text).2 []
  obtain ⟨read, reads⟩ : ∃ read, HasRead text read (ofText text).line (ofText text).column
      (ofText text).here (ofText text).below := (HasRead.start text).behind_scan [0]
  rw [Text.joinLines_splitLines] at passes
  obtain rfl : read = before :=
    List.append_cancel_right (reads.split.symm.trans (Passes.split passes).symm)
  exact ⟨read, passes, reads⟩

/-- A text that is cut off in front of the character that its scan comes upon can be scanned to
its end. -/
theorem passes_cut {text read : List Char} (comes : (ofText text).ComesUpon c)
    (split : text = read ++ Text.joinLines (ofText text).here (ofText text).below) :
    (ofText read).failure = none := by
  obtain ⟨first, others, cut⟩ := exists_cutOff (HasRead.start text).unbroken comes
  have cutSplit : text = Text.joinLines first others ++
      Text.joinLines (ofText text).here (ofText text).below :=
    (Text.joinLines_splitLines text).symm.trans cut.split
  obtain rfl : Text.joinLines first others = read :=
    List.append_cancel_right (cutSplit.symm.trans split)
  obtain ⟨firstLine, lower⟩ := List.cons.inj (Text.lines_joinLines cut.unbroken)
  rw [ofText, firstLine, lower]
  exact cut.passes

/-- A character that the scan of a text comes upon stands where a word has to start, and starts
nothing.  The text before it can be scanned to its end. -/
theorem boundary_of_comesUpon {text : List Char} (comes : (ofText text).ComesUpon c) :
    ∃ before after, Boundary text before (c :: after) ∧ StartsNothing c after ∧
      Position.behind before = ⟨(ofText text).line, (ofText text).column⟩ ∧
      (ofText before).failure = none := by
  obtain ⟨rest, here, unfound⟩ := here_of_comesUpon comes
  obtain ⟨before, boundary, reads⟩ := exists_boundary text
  have inLine : c ≠ '\n' := by
    rintro rfl
    exact reads.unbroken _ List.mem_cons_self (here ▸ List.mem_cons_self)
  have follows : Follows [] ([] ++ (ofText text).below.flatMap fun line => '\n' :: line) :=
    follows_append (head?_below _)
  refine ⟨before, rest ++ (ofText text).below.flatMap fun line => '\n' :: line, ?_,
    startsNothing_of_first? inLine (Piece.first?_none_append unfound follows), reads.place,
    passes_cut comes reads.split⟩
  have unread : (ofText text).here = c :: rest := here
  rwa [unread, Text.joinLines, List.cons_append] at boundary

end Scan

end LogicPuzzle
