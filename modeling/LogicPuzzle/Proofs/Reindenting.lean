import LogicPuzzle.Proofs.CanonicalText

/-!
# Other indentation of the same widths

The indentation of a line counts by its width alone: blanks and tabulators can
be exchanged for others of the same width.  In a blank line they can be
anything, and so they can in the first line, which stands at the margin.  What
is found then stands in the same lines, at other columns.
-/

namespace LogicPuzzle

/-- A line with another indentation, which is as wide unless the line is blank. -/
structure Reindents (next other : List Char) : Prop where
  body : other.dropWhile isIndentation = next.dropWhile isIndentation
  width : Scan.isBlankBody (next.dropWhile isIndentation) = false →
    indentationWidth (other.takeWhile isIndentation) =
      indentationWidth (next.takeWhile isIndentation)

structure Reindented (text other : String) : Prop where
  first : (Text.splitLines other.toList).1.dropWhile isIndentation =
    (Text.splitLines text.toList).1.dropWhile isIndentation
  below : List.Forall₂ Reindents (Text.splitLines text.toList).2 (Text.splitLines other.toList).2

instance (next other : List Char) : Decidable (Reindents next other) :=
  decidable_of_iff (_ ∧ _)
    ⟨fun ⟨body, width⟩ => ⟨body, width⟩, fun same => ⟨same.body, same.width⟩⟩

instance (text other : String) : Decidable (Reindented text other) :=
  decidable_of_iff (_ ∧ _)
    ⟨fun ⟨first, below⟩ => ⟨first, below⟩, fun same => ⟨same.first, same.below⟩⟩

/-! ## Words at other columns -/

namespace Words

/-- The same characters at another column hold the same words. -/
theorem read_elsewhere (line column place : Nat) (cs : List Char) :
    (read line place cs).tokens.map Token.columnless =
        (read line column cs).tokens.map Token.columnless ∧
      (read line place cs).rest = (read line column cs).rest := by
  fun_induction read line column cs generalizing place with
  | case1 column cs unfound =>
      rw [read_none unfound]
      exact ⟨rfl, rfl⟩
  | case2 column cs piece found later gap ih =>
      rw [Cuts.read_piece found, gap]
      exact ih _
  | case3 column cs piece found later kind word ih =>
      rw [Cuts.read_piece found, word]
      obtain ⟨tokens, rest⟩ := ih (place + piece.text.length)
      exact ⟨congrArg (List.cons _) tokens, rest⟩

/-- The indentation of a line holds no words. -/
theorem exists_read_dropWhile (line column : Nat) (cs : List Char) :
    ∃ place, read line column cs = read line place (cs.dropWhile isIndentation) := by
  induction cs generalizing column with
  | nil => exact ⟨column, rfl⟩
  | cons c cs ih =>
      cases indents : isIndentation c with
      | false =>
          rw [List.dropWhile_cons_of_neg (Bool.eq_false_iff.mp indents)]
          exact ⟨column, rfl⟩
      | true =>
          have found : Piece.first? (c :: cs) = some ⟨none, [c], cs⟩ := by
            rcases (Bool.or_eq_true _ _).mp indents with blank | tabulator
            · rw [eq_of_beq blank]
              rfl
            · rw [eq_of_beq tabulator]
              rfl
          rw [List.dropWhile_cons_of_pos indents, Cuts.read_piece found]
          exact ih (column + 1)

/-- Lines that differ in their indentation hold the same words. -/
theorem read_of_body {here other : List Char}
    (body : other.dropWhile isIndentation = here.dropWhile isIndentation)
    (line column place : Nat) :
    (read line place other).tokens.map Token.columnless =
        (read line column here).tokens.map Token.columnless ∧
      (read line place other).rest = (read line column here).rest := by
  obtain ⟨start, same⟩ := exists_read_dropWhile line column here
  obtain ⟨otherStart, otherSame⟩ := exists_read_dropWhile line place other
  rw [same, otherSame, body]
  exact read_elsewhere line start otherStart _

end Words

/-! ## Scans with other indentation -/

namespace Scan

variable {levels : List Nat} {line : Nat} {here next other : List Char}
  {below others : List (List Char)} {tokens otherTokens : List Token} {scan again : Scan}

theorem lineShift_reindents (reindents : Reindents next other) (line : Nat)
    (levels : List Nat) : lineShift line levels other = lineShift line levels next := by
  rw [lineShift, lineShift, reindents.body]
  cases blank : isBlankBody (next.dropWhile isIndentation) with
  | true => rfl
  | false => rw [reindents.width blank]

/-- Scans that find the same in the same lines, and stop alike. -/
structure InLines (scan again : Scan) : Prop where
  tokens : again.tokens.map Token.columnless = scan.tokens.map Token.columnless
  line : again.line = scan.line
  levels : again.levels = scan.levels
  failure : again.failure = scan.failure

theorem InLines.behind (same : InLines scan again)
    (front : otherTokens.map Token.columnless = tokens.map Token.columnless) :
    InLines { scan with tokens := tokens ++ scan.tokens }
      { again with tokens := otherTokens ++ again.tokens } where
  tokens := by rw [List.map_append, List.map_append, front, same.tokens]
  line := same.line
  levels := same.levels
  failure := same.failure

theorem entered_reindents (reindents : Reindents next other)
    (runs : ∀ levels column place, InLines
      (run levels line column (next.dropWhile isIndentation) below)
      (run levels line place (next.dropWhile isIndentation) others)) :
    InLines (entered levels line next below) (entered levels line other others) := by
  rw [entered, entered, lineShift_reindents reindents]
  cases (lineShift line levels next).failure with
  | some failure => exact ⟨rfl, rfl, rfl, rfl⟩
  | none =>
      simp only [fromLine, lineShift_reindents reindents, reindents.body]
      exact (runs _ _ _).behind rfl

theorem run_reindents (reindents : List.Forall₂ Reindents below others)
    (body : other.dropWhile isIndentation = here.dropWhile isIndentation)
    (levels : List Nat) (line column place : Nat) :
    InLines (run levels line column here below) (run levels line place other others) := by
  induction reindents generalizing levels line column place here other with
  | nil =>
      obtain ⟨tokens, rest⟩ := Words.read_of_body body line column place
      exact ⟨tokens, rfl, rfl, congrArg unreadFailure rest⟩
  | cons first _ ih =>
      obtain ⟨tokens, rest⟩ := Words.read_of_body body line column place
      cases unread : unreadFailure (Words.read line column here).rest with
      | some failure =>
          rw [run_unread unread, run_unread ((congrArg unreadFailure rest).trans unread)]
          exact ⟨tokens, rfl, rfl, rfl⟩
      | none =>
          rw [run_entered unread, run_entered ((congrArg unreadFailure rest).trans unread)]
          refine (entered_reindents first fun levels column place => ?_).behind ?_
          · exact ih rfl levels (line + 1) column place
          · rw [List.map_append, List.map_append, tokens]
            rfl

theorem InLines.finished (same : InLines scan again) :
    again.finished.map Token.columnless = scan.finished.map Token.columnless := by
  rw [Scan.finished, Scan.finished, List.map_append, List.map_append, same.tokens,
    columnless_ending, columnless_ending, same.line, same.levels]

end Scan

/-! ## Whole texts -/

/-- The tokens of a text, but for their columns, depend on its indentation only through the widths,
and so does the failure of a scan, but for its column. -/
theorem Reindented.tokenize {text other : String} (reindented : Reindented text other)
    (file : Path) :
    ((tokenize file other).map (List.map Token.columnless)).mapError
        (Failure.resited Site.inLine) =
      ((tokenize file text).map (List.map Token.columnless)).mapError
        (Failure.resited Site.inLine) := by
  have same : Scan.InLines (Scan.ofText text.toList) (Scan.ofText other.toList) :=
    Scan.run_reindents reindented.below reindented.first [0] 1 1 1
  rw [Scan.tokenize_eq, Scan.tokenize_eq, same.failure]
  cases (Scan.ofText text.toList).failure with
  | none => exact congrArg Except.ok same.finished
  | some failure =>
      have place : ((Scan.ofText other.toList).site file other).inLine =
          ((Scan.ofText text.toList).site file text).inLine := by
        rw [Scan.site, Scan.site, same.line]
        rfl
      cases failure with
      | fault diagnostic =>
          exact congrArg (fun site => Except.error (Failure.fault ⟨diagnostic.cause, some site⟩))
            place
      | _ => rfl

end LogicPuzzle
