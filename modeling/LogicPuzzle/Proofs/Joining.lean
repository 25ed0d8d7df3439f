import LogicPuzzle.Proofs.JoinedScans
import LogicPuzzle.Proofs.PuzzleReading
import LogicPuzzle.Proofs.TextPuzzles

/-!
# Joining texts

A text that is read to its end can be put below another one, and the joined text
says what both say, with the places of the second one moved down.  Where the
first text ends inside of a block, the end of its last line moves in front of the
end of the block, and so do the empty lines at the start of the second text.
-/

namespace LogicPuzzle

open Grammar Reading

variable {tokens front dedents others gap used : List Token} {newline : Token}
  {first second statements : List Statement} {statement : Statement}

/-! ## Joining programs -/

theorem sequence_append {α : Type} {item : α → List Token → Prop} {values more : List α}
    (sequence : Sequence item values used) (later : Sequence item more tokens) :
    Sequence item (values ++ more) (used ++ tokens) := by
  induction sequence with
  | nil => exact later
  | cons first _ ih =>
      rw [List.append_assoc]
      exact .cons first ih

/-- Empty lines behind some statements belong to the last one. -/
theorem sequence_gap (sequence : Sequence StatementGap statements used) (blank : Gap gap)
    (nonempty : statements ≠ []) : Sequence StatementGap statements (used ++ gap) := by
  induction sequence with
  | nil => exact absurd rfl nonempty
  | @cons _ others _ rest first sequence ih =>
      cases sequence with
      | nil =>
          rcases first with ⟨used, between, spelled, betweenBlank, rfl⟩
          rw [List.append_nil, List.append_assoc, ← List.append_nil (used ++ _)]
          exact .cons ⟨used, _, spelled, gap_append.mpr ⟨betweenBlank, blank⟩, rfl⟩ .nil
      | cons =>
          rw [List.append_assoc]
          exact .cons first (ih (List.cons_ne_nil _ _))

theorem program_append (program : Program first used) (later : Program second tokens) :
    Program (first ++ second) (used ++ tokens) := by
  rcases program with ⟨gap, firstUsed, blank, sequence, rfl⟩
  rcases later with ⟨laterGap, secondUsed, laterBlank, laterSequence, rfl⟩
  cases first with
  | nil =>
      cases sequence
      refine ⟨gap ++ laterGap, secondUsed, gap_append.mpr ⟨blank, laterBlank⟩, laterSequence, ?_⟩
      simp only [List.append_assoc, List.append_nil]
  | cons =>
      refine ⟨gap, _, blank, sequence_append
        (sequence_gap sequence laterBlank (List.cons_ne_nil _ _)) laterSequence, ?_⟩
      simp only [List.append_assoc]

theorem program_gap (blank : Gap gap) : Program [] gap :=
  ⟨gap, [], blank, .nil, (List.append_nil gap).symm⟩

theorem program_statement (spelled : statement.SpelledBy used) : Program [statement] used := by
  have nothing : Gap [] := nofun
  refine ⟨[], _, nothing, .cons ⟨used, [], spelled, nothing, rfl⟩ .nil, ?_⟩
  rw [List.append_nil, List.append_nil, List.nil_append]

/-- Statements start with names and with keywords of declarations only. -/
theorem startsWith_sequence {kind : Kind} (sequence : Sequence StatementGap statements used)
    (unnamed : kind ≠ .identifier) (undeclared : kind ≠ .var) : startsWith kind used = false := by
  cases sequence with
  | nil => rfl
  | cons first _ =>
      rcases first with ⟨used, between, spelled, _, rfl⟩
      obtain ⟨token, others, rfl, names | declares⟩ := statement_cons spelled
      · exact startsWith_cons (names.trans_ne unnamed.symm)
      · exact startsWith_cons (declares.trans_ne undeclared.symm)

theorem startsWith_indent_program (program : Program statements tokens) :
    startsWith .indent (afterNewlines tokens) = false := by
  rcases program with ⟨gap, used, blank, sequence, rfl⟩
  rw [afterNewlines_gap blank,
    afterNewlines_eq_self (startsWith_sequence sequence (by decide) (by decide))]
  exact startsWith_sequence sequence (by decide) (by decide)

/-- The empty lines in front of a program can be left out. -/
theorem program_of_gap_append (blank : Gap gap) (program : Program statements (gap ++ tokens)) :
    Program statements tokens := by
  rcases program with ⟨lead, used, leadBlank, sequence, same⟩
  have visible : afterNewlines used = used :=
    afterNewlines_eq_self (startsWith_sequence sequence (by decide) (by decide))
  have left := congrArg afterNewlines same
  rw [afterNewlines_gap blank, afterNewlines_gap leadBlank, visible] at left
  obtain ⟨between, betweenBlank, split⟩ := exists_gap tokens
  rw [left] at split
  exact ⟨between, used, betweenBlank, sequence, split⟩

/-- A program without statements is blank; another one ends with its last statement. -/
theorem program_cases (program : Program statements tokens) :
    (statements = [] ∧ Gap tokens) ∨
      ∃ earlier last front used gap, statements = earlier ++ [last] ∧ Program earlier front ∧
        last.SpelledBy used ∧ Gap gap ∧ tokens = front ++ (used ++ gap) := by
  rcases program with ⟨lead, rest, leadBlank, sequence, rfl⟩
  induction sequence generalizing lead with
  | nil => exact .inl ⟨rfl, gap_append.mpr ⟨leadBlank, nofun⟩⟩
  | @cons statement others _ rest first _ ih =>
      rcases first with ⟨used, between, spelled, betweenBlank, rfl⟩
      refine .inr ?_
      rcases ih between betweenBlank with
        ⟨rfl, blank⟩ | ⟨earlier, last, front, lastUsed, gap, rfl, program, lastSpelled, blank, same⟩
      · refine ⟨[], statement, lead, used, _, rfl, program_gap leadBlank, spelled, blank, ?_⟩
        rw [List.append_assoc]
      · refine ⟨statement :: earlier, last, lead ++ (used ++ front), lastUsed, gap, rfl,
          program_append (program_gap leadBlank)
            (program_append (program_statement spelled) program), lastSpelled, blank, ?_⟩
        rw [List.append_assoc used, same]
        simp only [List.append_assoc]

/-! ## Ends of statements -/

/-- A token that is neither the end of a line nor that of a block. -/
def Solid (token : Token) : Prop :=
  token.kind ≠ .newline ∧ token.kind ≠ .dedent

theorem solid_of_kind {token : Token} {kind : Kind} (same : token.kind = kind)
    (other : kind ≠ .newline ∧ kind ≠ .dedent) : Solid token := by
  rw [Solid, same]
  exact other

def EndsSolid (tokens : List Token) : Prop :=
  ∃ body last, tokens = body ++ [last] ∧ Solid last

theorem EndsSolid.append (ends : EndsSolid tokens) (front : List Token) :
    EndsSolid (front ++ tokens) := by
  rcases ends with ⟨body, last, rfl, solid⟩
  exact ⟨front ++ body, last, (List.append_assoc ..).symm, solid⟩

theorem endsSolid_singleton {token : Token} (solid : Solid token) : EndsSolid [token] :=
  ⟨[], token, rfl, solid⟩

theorem endsSolid_selector {selector : Selector} (spelled : selector.SpelledBy used) :
    EndsSolid used := by
  cases spelled with
  | @index opening number closing _ _ closes =>
      exact ⟨[opening, number], closing, rfl, solid_of_kind closes (by decide)⟩
  | @field dot name _ names => exact ⟨[dot], name, rfl, solid_of_kind names (by decide)⟩

theorem endsSolid_selectors {selectors : List Selector}
    (selects : Sequence Selector.SpelledBy selectors used) : used = [] ∨ EndsSolid used := by
  induction selects with
  | nil => exact .inl rfl
  | @cons _ _ used rest first _ ih =>
      refine .inr ?_
      rcases ih with rfl | ends
      · rw [List.append_nil]
        exact endsSolid_selector first
      · exact ends.append used

theorem endsSolid_reference {reference : Reference} (spelled : reference.SpelledBy used) :
    EndsSolid used := by
  cases spelled with
  | @intro name _ used names selects =>
      rcases endsSolid_selectors selects with rfl | ends
      · exact endsSolid_singleton (solid_of_kind names (by decide))
      · exact ends.append [name]

theorem endsSolid_comparison {comparison : Comparison} (spelled : comparison.SpelledBy used) :
    EndsSolid used := by
  cases spelled with
  | @intro _ _ _ operator left _ _ _ right =>
      have ends := (endsSolid_reference right).append (left ++ [operator])
      rwa [List.append_assoc, List.singleton_append] at ends

theorem endsSolid_comparisons {separator : List Token → Prop} {comparisons : List Comparison}
    (spelled : Separated separator Comparison.SpelledBy comparisons used) : EndsSolid used := by
  induction spelled with
  | one only => exact endsSolid_comparison only
  | cons _ _ _ ih => exact (ih.append _).append _

/-- How the tokens of a statement end: with the end of a line, or with that of a block, in front
of which there may be any number of empty lines. -/
inductive Ends (statement : Statement) : List Token → Prop where
  | line {body lines : List Token} (solid : EndsSolid body) (ends : LineEnd lines) :
      Ends statement (body ++ lines)
  | block {body after : List Token} {dedent : Token} (solid : EndsSolid body) (blank : Gap after)
      (dedents : dedent.kind = .dedent)
      (again : ∀ {more other}, Gap more → other.kind = .dedent →
        statement.SpelledBy (body ++ (more ++ [other]))) :
      Ends statement (body ++ (after ++ [dedent]))

theorem ends_of_solid {lines : List Token} {closing : Token} (solid : Solid closing)
    (ends : LineEnd lines) : Ends statement (front ++ closing :: lines) := by
  rw [List.append_cons]
  exact .line ⟨front, closing, rfl, solid⟩ ends

theorem ends_statement (spelled : statement.SpelledBy used) : Ends statement used := by
  cases spelled with
  | @domain name equals opening closing _ used lines _ _ _ _ closes ends =>
      change Ends _ ((name :: equals :: opening :: used) ++ closing :: lines)
      exact ends_of_solid (solid_of_kind closes (by decide)) ends
  | @schema name equals opening closing _ used lines _ _ _ _ closes ends =>
      change Ends _ ((name :: equals :: opening :: used) ++ closing :: lines)
      exact ends_of_solid (solid_of_kind closes (by decide)) ends
  | @array keyword name colon type _ used lines _ _ _ types sized ends =>
      cases sized with
      | absent =>
          change Ends _ ([keyword, name, colon] ++ type :: lines)
          exact ends_of_solid (solid_of_kind types (by decide)) ends
      | @given opening number closing _ _ closes =>
          change Ends _ ([keyword, name, colon, type, opening, number] ++ closing :: lines)
          exact ends_of_solid (solid_of_kind closes (by decide)) ends
  | plain spelled _ ends => exact .line (endsSolid_comparison spelled) ends
  | @block _ _ arrow used _ spelled undefining yields follows =>
      cases follows with
      | @intro indent dedent lines before block after ends indents blankBefore consequents
          blankAfter dedents =>
          have solid := (endsSolid_comparisons consequents).append
            (used ++ arrow :: (lines ++ indent :: before))
          have again {more : List Token} {other : Token} (blank : Gap more)
              (closes : other.kind = .dedent) :=
            Statement.SpelledBy.block spelled undefining yields
              (.intro ends indents blankBefore consequents blank closes)
          have split (tokens : List Token) :
              used ++ arrow :: (lines ++ indent :: (before ++ (block ++ tokens))) =
                ((used ++ arrow :: (lines ++ indent :: before)) ++ block) ++ tokens := by
            simp only [List.append_assoc, List.cons_append]
          simp only [split] at again ⊢
          exact .block solid blankAfter dedents again

/-! ## Ends of blocks -/

/-- Empty lines at the end can be told from what stands in front of them. -/
theorem append_gap_inj {first second firstGap secondGap : List Token}
    (same : first ++ firstGap = second ++ secondGap) (firstBlank : Gap firstGap)
    (secondBlank : Gap secondGap) (visible : startsWith .newline first.reverse = false)
    (otherVisible : startsWith .newline second.reverse = false) :
    first = second ∧ firstGap = secondGap := by
  have reversed {gap : List Token} (blank : Gap gap) : Gap gap.reverse :=
    fun token member => blank token (List.mem_reverse.mp member)
  have back := congrArg (fun tokens => afterNewlines tokens.reverse) same
  simp only [List.reverse_append, afterNewlines_gap (reversed firstBlank),
    afterNewlines_gap (reversed secondBlank), afterNewlines_eq_self visible,
    afterNewlines_eq_self otherVisible] at back
  obtain rfl := List.reverse_injective back
  exact ⟨rfl, List.append_cancel_left same⟩

theorem EndsSolid.visible (ends : EndsSolid tokens) :
    startsWith .newline tokens.reverse = false := by
  rcases ends with ⟨body, last, rfl, solid⟩
  rw [List.reverse_append]
  exact startsWith_cons solid.1

theorem visible_concat {token : Token} (other : token.kind ≠ .newline) (front : List Token) :
    startsWith .newline (front ++ [token]).reverse = false := by
  rw [List.reverse_append]
  exact startsWith_cons other

theorem EndsSolid.solid {token : Token} (ends : EndsSolid (front ++ [token])) : Solid token := by
  rcases ends with ⟨body, last, same, solid⟩
  rw [List.singleton_inj.mp (List.append_inj_right' same rfl)]
  exact solid

/-- The end of a block does not follow the end of another block. -/
theorem eq_nil_of_endsSolid {closed body lines : List Token}
    (closes : ∀ token ∈ closed, token.kind = .dedent) (solid : EndsSolid body)
    (blank : Gap lines) (same : front ++ closed = body ++ lines) : closed = [] := by
  rcases List.eq_nil_or_concat closed with empty | ⟨others, dedent, rfl⟩
  · exact empty
  · have kind : dedent.kind = .dedent := closes dedent (by simp)
    have nothing : Gap [] := nofun
    rw [List.concat_eq_append, ← List.append_assoc, ← List.append_nil (_ ++ [dedent])] at same
    obtain ⟨rfl, _⟩ := append_gap_inj same nothing blank
      (visible_concat (by simp [kind]) _) solid.visible
    exact absurd kind solid.solid.2

/-- A statement at the end of which a block is closed allows any number of empty lines in front
of the end of the block. -/
theorem reopened_of_spelled {dedent : Token} {before after : List Token}
    (spelled : statement.SpelledBy used) (afterBlank : Gap after) (ends : newline.kind = .newline)
    (kind : dedent.kind = .dedent)
    (same : front ++ [dedent] ++ [newline] = before ++ used ++ after) :
    ∃ body lines, EndsSolid body ∧ Gap lines ∧ front = before ++ body ++ lines ∧
      ∀ {more other}, Gap more → other.kind = .dedent →
        statement.SpelledBy (body ++ (more ++ [other])) := by
  have line : Gap [newline] := List.forall_mem_singleton.mpr ends
  have visible : startsWith .newline (front ++ [dedent]).reverse = false :=
    visible_concat (by simp [kind]) front
  cases ends_statement spelled with
  | @line body lines solid lineEnds =>
      have split : before ++ (body ++ lines) ++ after = (before ++ body) ++ (lines ++ after) := by
        simp only [List.append_assoc]
      rw [split] at same
      obtain ⟨same, _⟩ := append_gap_inj same line (gap_append.mpr ⟨lineEnds.2, afterBlank⟩)
        visible (solid.append before).visible
      have last := solid.append before
      rw [← same] at last
      exact absurd kind last.solid.2
  | @block body lines dedent solid blank dedents again =>
      have split : before ++ (body ++ (lines ++ [dedent])) ++ after =
          (before ++ body ++ lines) ++ [dedent] ++ after := by
        simp only [List.append_assoc]
      rw [split] at same
      obtain ⟨same, _⟩ := append_gap_inj same line afterBlank visible
        (visible_concat (by simp [dedents]) _)
      exact ⟨body, lines, solid, blank, List.append_inj_left' same rfl, again⟩

/-- If a program ends with the ends of some blocks, there is one block, and the end of the last
line can be moved into it with any number of empty lines. -/
theorem program_closing (program : Program statements (front ++ (dedents ++ [newline])))
    (ends : newline.kind = .newline) (closes : ∀ token ∈ dedents, token.kind = .dedent)
    (blank : Gap gap) (closesLater : ∀ token ∈ others, token.kind = .dedent)
    (count : others.length = dedents.length) :
    Program statements (front ++ newline :: (gap ++ others)) := by
  rcases List.eq_nil_or_concat dedents with rfl | ⟨closed, dedent, rfl⟩
  · obtain rfl : others = [] := List.length_eq_zero_iff.mp count
    have longer := program_append program (program_gap blank)
    simpa using longer
  · rw [List.concat_eq_append] at program closes count
    have kind : dedent.kind = .dedent := closes dedent (by simp)
    rcases program_cases program with
      ⟨_, allBlank⟩ | ⟨earlier, last, before, used, after, rfl, earlierProgram, spelled,
        afterBlank, same⟩
    · have impossible := allBlank dedent (by simp)
      rw [kind] at impossible
      cases impossible
    · rw [← List.append_assoc, ← List.append_assoc, ← List.append_assoc] at same
      obtain ⟨body, lines, solid, linesBlank, split, again⟩ :=
        reopened_of_spelled spelled afterBlank ends kind same
      obtain rfl : closed = [] := eq_nil_of_endsSolid
        (fun token member => closes token (List.mem_append_left _ member))
        (solid.append before) linesBlank split
      obtain ⟨other, rfl⟩ := List.length_eq_one_iff.mp count
      have moreBlank : Gap (lines ++ newline :: gap) :=
        gap_append.mpr ⟨linesBlank, List.forall_mem_cons.mpr ⟨ends, blank⟩⟩
      have reopened := program_append earlierProgram
        (program_statement (again moreBlank (closesLater other List.mem_cons_self)))
      rw [List.append_nil] at split
      rw [split]
      simpa only [List.append_assoc, List.cons_append] using reopened

/-- Programs are joined with the ends of blocks of the first one behind the empty lines in front
of the second one. -/
theorem program_joined {closed : List Token}
    (program : Program first (front ++ (dedents ++ [newline]))) (ends : newline.kind = .newline)
    (closes : ∀ token ∈ dedents, token.kind = .dedent) (later : Program second tokens)
    (closing : Scan.Closing dedents.length tokens closed) :
    Program (first ++ second) (front ++ newline :: closed) := by
  cases closing with
  | @intro gap others rest blank closesLater count =>
      have joined := program_append (program_closing program ends closes blank closesLater count)
        (program_of_gap_append blank later)
      simpa only [List.append_assoc, List.cons_append] using joined

theorem numbersRead_joined {closed : List Token}
    (read : NumbersRead (front ++ (dedents ++ [newline]))) (laterRead : NumbersRead tokens)
    (closing : Scan.Closing dedents.length tokens closed) :
    NumbersRead (front ++ newline :: closed) := by
  cases closing with
  | @intro gap others rest blank closesLater _ =>
      have dedentsRead : NumbersRead others := by
        intro token member number
        rw [closesLater token member] at number
        cases number
      rw [List.append_cons]
      simp only [numbersRead_append] at read laterRead ⊢
      exact ⟨⟨read.1, read.2.2⟩, laterRead.1, dedentsRead, laterRead.2⟩

namespace Puzzle

def append (first second : Puzzle) : Puzzle where
  file := first.file
  domains := first.domains ++ second.domains
  schemas := first.schemas ++ second.schemas
  declarations := first.declarations ++ second.declarations
  rules := first.rules ++ second.rules

theorem ofStatements_append (file : Option Path) (first second : List Statement) :
    ofStatements file (first ++ second) =
      (ofStatements file first).append (ofStatements file second) := by
  simp only [ofStatements, append, List.filterMap_append]

/-- Two texts that are read to their ends can be joined, unless the second one starts with an
indentation: the joined text says what both say, with the second one moved down by the lines of
the first one. -/
theorem readPuzzle_joined {file : Path} {first second : String} {firstPuzzle secondPuzzle : Puzzle}
    (firstRead : readPuzzle file first = .ok (firstPuzzle, []))
    (secondRead : readPuzzle file second = .ok (secondPuzzle, []))
    (unindented : ∀ c ∈ second.toList.head?, c ≠ ' ' ∧ c ≠ '\t') :
    readPuzzle file (first ++ "\n" ++ second) =
      .ok (firstPuzzle.append (secondPuzzle.down (Text.lines first.toList).length), []) := by
  obtain ⟨firstTokens, firstStatements, firstScanned, firstProgram, firstNumbers, firstDistinct,
    rfl⟩ := readPuzzle_ok_iff.mp firstRead
  obtain ⟨secondTokens, secondStatements, secondScanned, secondProgram, secondNumbers,
    secondDistinct, rfl⟩ := readPuzzle_ok_iff.mp secondRead
  have moved : Program _ (secondTokens.map (Token.down (Text.lines first.toList).length)) :=
    program_down secondProgram
  have margin : ∀ c ∈ second.toList.head?, isIndentation c = false := by
    intro c starts
    simpa [isIndentation] using unindented c starts
  obtain ⟨front, newline, dedents, closed, rfl, ends, closes, closing, scanned⟩ :=
    Scan.tokenize_joined firstScanned secondScanned margin (startsWith_indent_program moved)
  refine readPuzzle_ok_iff.mpr ⟨_, _, scanned,
    program_joined firstProgram ends closes moved closing,
    numbersRead_joined firstNumbers (numbersRead_down secondNumbers) closing, ?_, ?_⟩
  · refine List.forall_mem_append.mpr ⟨firstDistinct, ?_⟩
    intro statement member
    obtain ⟨upper, upperMember, rfl⟩ := List.mem_map.mp member
    exact Statement.labelsDistinct_down (secondDistinct upper upperMember)
  · rw [ofStatements_append, ofStatements_down]

/-- A text that ends inside of a block, with a line of blanks. -/
def openText : String :=
  "Color = \x7bred, blue\x7d\nvar Lamp : Color[2]\nLamp[1] = red =>\n    Lamp[0] = blue\n    "

def openPuzzle : Puzzle where
  file := some (Path.ofString "lamp.puzzle")
  domains := [⟨"Color", ["red", "blue"]⟩]
  schemas := []
  declarations := [⟨"Lamp", "Color", some 2, ⟨2, 1⟩⟩]
  rules := [⟨⟨⟨"Lamp", [.index 1], ⟨3, 1⟩⟩, false, ⟨"red", [], ⟨3, 11⟩⟩⟩,
    [⟨⟨"Lamp", [.index 0], ⟨4, 5⟩⟩, false, ⟨"blue", [], ⟨4, 15⟩⟩⟩]⟩]

def shadeText : String :=
  "\n\nvar Shade : Color\nShade[0] = Lamp[1]"

def shadePuzzle : Puzzle where
  file := some (Path.ofString "lamp.puzzle")
  domains := []
  schemas := []
  declarations := [⟨"Shade", "Color", none, ⟨3, 1⟩⟩]
  rules := [⟨⟨⟨"Shade", [.index 0], ⟨4, 1⟩⟩, false, ⟨"Lamp", [.index 1], ⟨4, 12⟩⟩⟩, []⟩]

theorem readPuzzle_openText_shadeText :
    readPuzzle (Path.ofString "lamp.puzzle") openText = .ok (openPuzzle, []) ∧
      readPuzzle (Path.ofString "lamp.puzzle") shadeText = .ok (shadePuzzle, []) ∧
      (∀ c ∈ shadeText.toList.head?, c ≠ ' ' ∧ c ≠ '\t') ∧
      readPuzzle (Path.ofString "lamp.puzzle") (openText ++ "\n" ++ shadeText) =
        .ok (openPuzzle.append (shadePuzzle.down 5), []) ∧
      (shadePuzzle.down 5).declarations = [⟨"Shade", "Color", none, ⟨8, 1⟩⟩] := by
  have openRead : readPuzzle (Path.ofString "lamp.puzzle") openText = .ok (openPuzzle, []) := by
    decide +kernel
  have shadeRead : readPuzzle (Path.ofString "lamp.puzzle") shadeText =
      .ok (shadePuzzle, []) := by
    decide +kernel
  have head : shadeText.toList.head? = some '\n' := by decide +kernel
  have unindented : ∀ c ∈ shadeText.toList.head?, c ≠ ' ' ∧ c ≠ '\t' := by
    rw [head]
    rintro c starts
    cases starts
    decide
  have lines : (Text.lines openText.toList).length = 5 := by decide +kernel
  have joined := readPuzzle_joined openRead shadeRead unindented
  rw [lines] at joined
  exact ⟨openRead, shadeRead, unindented, joined, rfl⟩

end Puzzle

end LogicPuzzle
