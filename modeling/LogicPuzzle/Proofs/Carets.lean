import LogicPuzzle.Proofs.Boundaries
import LogicPuzzle.Proofs.Listing

/-!
# Carets under characters

A diagnostic shows the line of its place behind a margin, and below it a marker
line whose first caret stands as far to the right as the place.  So the caret of
an unexpected character stands under this character, wherever it is.
-/

namespace LogicPuzzle

/-! ## Last lines -/

namespace Text

def lastLine (text : List Char) : List Char :=
  (text.reverse.takeWhile (· != '\n')).reverse

theorem lastLine_newline (text : List Char) : lastLine (text ++ ['\n']) = [] := by
  simp [lastLine]

theorem lastLine_concat (text : List Char) {c : Char} (other : c ≠ '\n') :
    lastLine (text ++ [c]) = lastLine text ++ [c] := by
  simp [lastLine, other]

theorem column_behind (text : List Char) :
    (Position.behind text).column = (lastLine text).length + 1 := by
  rw [lastLine, List.length_reverse]
  exact Int.add_comm ..

/-- The last line of a text goes on with the first line of what stands behind it. -/
theorem exists_lines_behind (before after : List Char) :
    ∃ above, lines (before ++ after) =
        above ++ (lastLine before ++ (splitLines after).1) :: (splitLines after).2 ∧
      (Position.behind before).line = above.length + 1 := by
  induction before using List.reverseRecOn generalizing after with
  | nil => exact ⟨[], rfl, rfl⟩
  | append_singleton before c ih =>
      obtain ⟨above, split, line⟩ := ih (c :: after)
      rw [← List.append_cons]
      rcases eq_or_ne c '\n' with rfl | other
      · refine ⟨above ++ [lastLine before], ?_, ?_⟩
        · rw [split, splitLines, lastLine_newline]
          simp
        · rw [Position.behind_newline, line, List.length_append]
          rfl
      · refine ⟨above, ?_, ?_⟩
        · rw [split, splitLines, lastLine_concat _ other]
          simp [other]
        · have inLine : '\n' ∉ [c] := fun member => other (List.mem_singleton.mp member).symm
          rw [Position.behind_unbroken inLine, line]

theorem mem_of_mem_trimReturns {line : List Char} {c : Char} (member : c ∈ trimReturns line) :
    c ∈ line :=
  List.mem_reverse.mp ((List.dropWhile_sublist _).subset (List.mem_reverse.mp member))

/-- Carriage returns at the end of a line do not reach beyond another character. -/
theorem trimReturns_append_cons (front rest : List Char) {c : Char} (other : c ≠ '\r') :
    trimReturns (front ++ c :: rest) = front ++ c :: trimReturns rest := by
  have stops : (rest.reverse ++ c :: front.reverse).dropWhile (· == '\r') =
      rest.reverse.dropWhile (· == '\r') ++ c :: front.reverse := by
    rw [List.dropWhile_append]
    split
    · next all =>
        rw [List.isEmpty_iff.mp all, List.nil_append, List.dropWhile_cons_of_neg]
        exact mt beq_iff_eq.mp other
    · rfl
  rw [trimReturns, List.reverse_append, List.reverse_cons, List.append_assoc,
    List.singleton_append, stops]
  simp [trimReturns]

end Text

/-! ## Marked lines -/

/-- A text shows a character of a line: below a place stands the line behind a margin, then a
marker line whose first caret stands under the character, and then a message. -/
def CaretUnder (shown place : String) (front : List Char) (c : Char) (rest : List Char)
    (message : String) : Prop :=
  ∃ margin marker : List Char,
    shown = place ++ "\n" ++ String.ofList (margin ++ front ++ c :: rest) ++ "\n" ++
      String.ofList marker ++ "\n" ++ message ∧
    '\n' ∉ margin ++ front ++ c :: rest ∧ '\n' ∉ marker ∧
    marker.idxOf? '^' = some (margin ++ front).length

namespace Site

theorem newline_not_mem_gutter (n : Nat) : '\n' ∉ (gutter n).toList := by
  have written : (toString (n : Int)).toList = Nat.toDigits 10 n := by
    change (toString n).toList = _
    rw [Nat.toString_eq_repr, Nat.toList_repr]
  rw [gutter, gutterNumber]
  simp only [String.toList_append, String.toList_ofList, written, List.mem_append,
    List.mem_replicate, not_or]
  exact ⟨⟨by simp, Report.Row.not_mem_toDigits rfl n⟩, by decide⟩

theorem idxOf?_caret (indent : Nat) :
    (List.replicate indent ' ' ++ ['^', '^', '^']).idxOf? '^' = some indent := by
  induction indent with
  | zero => rfl
  | succ indent ih => rw [List.replicate_succ, List.cons_append, List.idxOf?_cons, ih]; rfl

/-- A site whose snippet holds a character in its column marks this character. -/
theorem caretUnder_render {site : Site} {n : Nat} {front rest : List Char} {c : Char}
    (line : site.position.line = n) (column : site.position.column = front.length + 1)
    (snippet : site.snippet = some (String.ofList (front ++ c :: rest)))
    (unbroken : '\n' ∉ front ++ c :: rest) (message : String) :
    CaretUnder (site.render ++ "\n" ++ message) site.label front c rest message := by
  have indent : (gutter site.position.line).length + (max site.position.column 1 - 1).toNat =
      ((gutter n).toList ++ front).length := by
    rw [line, column, List.length_append, String.length_toList]
    omega
  refine ⟨(gutter n).toList,
    List.replicate ((gutter n).toList ++ front).length ' ' ++ ['^', '^', '^'], ?_, ?_, ?_,
    idxOf?_caret _⟩
  · rw [render, snippet, marker, indent, line]
    simp only [← String.toList_inj, String.toList_append, String.toList_ofList, List.append_assoc]
    rfl
  · rw [List.append_assoc, List.mem_append, not_or]
    exact ⟨newline_not_mem_gutter n, unbroken⟩
  · simp [List.mem_replicate]

end Site

/-- What a shown text tells of a character in a text: it is the first one at a place where a word
has to start that starts nothing, what stands before it gives tokens, and the first caret stands
under it. -/
structure Blames (file : Path) (text shown : String) (before : List Char) (c : Char)
    (after : List Char) : Prop where
  split : text.toList = before ++ c :: after
  boundary : Boundary text.toList before (c :: after)
  nothing : StartsNothing c after
  first : ∀ sooner other later, Boundary text.toList sooner (other :: later) →
    sooner.length < before.length → ¬ StartsNothing other later
  cut : ∃ tokens, tokenize file (String.ofList before) = .ok tokens
  caret : CaretUnder shown (Site.label ⟨file, .behind before, none⟩) (Text.lastLine before) c
    (Text.trimReturns (Text.splitLines after).1)
    ("Unexpected character: " ++ Text.quoted (String.singleton c))

/-- The line of a character that starts nothing, as it is shown. -/
theorem exists_shown_line {text : String} {before after : List Char} {c : Char}
    (split : text.toList = before ++ c :: after) (nothing : StartsNothing c after) :
    ∃ n : Nat, (Position.behind before).line = n ∧
      Scanner.lineOf? text.toList (Position.behind before).line = some
        (String.ofList (Text.lastLine before ++ c :: Text.trimReturns (Text.splitLines after).1)) ∧
      '\n' ∉ Text.lastLine before ++ c :: Text.trimReturns (Text.splitLines after).1 := by
  have solid {d : Char} (separates : isSeparator d = true) : c ≠ d := by
    rintro rfl
    cases separates.symm.trans nothing.solid
  obtain ⟨above, lines, line⟩ := Text.exists_lines_behind before (c :: after)
  have goesOn : (Text.splitLines (c :: after)).1 = c :: (Text.splitLines after).1 :=
    (List.cons.inj (Text.lines_cons_of_ne (solid (by decide)) after)).1
  rw [← split, goesOn] at lines
  rw [← Text.trimReturns_append_cons _ _ (solid (by decide))]
  refine ⟨above.length + 1, line, ?_, fun newline => ?_⟩
  · have index : ((Position.behind before).line - 1).toNat = above.length := by omega
    rw [Scanner.lineOf?, if_pos (by omega), index, lines,
      List.getElem?_append_right (Nat.le_refl _), Nat.sub_self]
    rfl
  · have among : Text.lastLine before ++ c :: (Text.splitLines after).1 ∈
        Text.lines text.toList := by
      rw [lines]
      exact List.mem_append_right _ List.mem_cons_self
    exact (Text.mem_of_mem_lines among (Text.mem_of_mem_trimReturns newline)).2 rfl

/-- A text that holds an unexpected character is told of the first one, with the caret under it. -/
theorem blames_unexpected_character {file : Path} {text : String} {diagnostic : Diagnostic Fault}
    {c : Char} (failed : tokenize file text = .error (.fault diagnostic))
    (cause : diagnostic.cause = .unexpectedCharacter c) :
    ∃ before after, Blames file text diagnostic.render before c after := by
  rw [Scan.tokenize_eq] at failed
  split at failed
  · next failure fails =>
      cases failure with
      | numeral => cases failed
      | outOfRange => cases failed
      | fault found =>
          obtain ⟨foundCause, foundSite⟩ := found
          cases failed
          obtain rfl : foundCause = .unexpectedCharacter c := cause
          obtain ⟨before, after, boundary, nothing, place, passes⟩ :=
            Scan.boundary_of_comesUpon ⟨foundSite, fails⟩
          have split : text.toList = before ++ c :: after := (Passes.split boundary).symm
          obtain ⟨n, line, snippet, unbroken⟩ := exists_shown_line split nothing
          refine ⟨before, after, split, boundary, nothing, fun _ _ _ => boundary.earlier,
            ⟨_, Scan.tokenize_ok_iff.mpr ⟨?_, rfl⟩⟩, ?_⟩
          · rwa [String.toList_ofList]
          · have column := Text.column_behind before
            rw [place] at line column snippet ⊢
            exact Site.caretUnder_render line column snippet unbroken _
  · cases failed

def halfText : String :=
  "x½ = 1½\n"

def halfDiagnostic : Diagnostic Fault :=
  ⟨.unexpectedCharacter '½', some ⟨Path.ofString "half.grid", ⟨1, 7⟩, some "x½ = 1½"⟩⟩

theorem blames_unexpected_character_halfText :
    tokenize (Path.ofString "half.grid") halfText = .error (.fault halfDiagnostic) ∧
      halfDiagnostic.render =
        "half.grid:1:7\n   1 | x½ = 1½\n             ^^^\nUnexpected character: '½'" ∧
      ∃ before after,
        Blames (Path.ofString "half.grid") halfText halfDiagnostic.render before '½' after := by
  have failed : tokenize (Path.ofString "half.grid") halfText = .error (.fault halfDiagnostic) := by
    decide +kernel
  exact ⟨failed, by decide +kernel, blames_unexpected_character failed rfl⟩

end LogicPuzzle
