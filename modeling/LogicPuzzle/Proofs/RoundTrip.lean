import LogicPuzzle.Proofs.Layout
import LogicPuzzle.Proofs.PuzzleReading
import LogicPuzzle.Proofs.Spelling

/-!
# Reading rendered puzzles

A puzzle that a text can say is read back from its rendered text, without a
notice and up to the places at which its parts stand.
-/

namespace LogicPuzzle

open Grammar

/-! ## The lines and the lexemes of statements -/

def Rule.layout (rule : Rule) : List Line :=
  match rule.consequents with
  | [] => [⟨false, rule.guard.written, rule.guard.lexemes⟩]
  | consequents =>
      ⟨false, rule.guard.written ++ " =>", rule.guard.lexemes ++ [⟨.yields, "=>"⟩]⟩ ::
        consequents.map fun consequent => ⟨true, consequent.written, consequent.lexemes⟩

def Rule.lexemes (rule : Rule) : List Lexeme :=
  match rule.consequents with
  | [] => rule.guard.lexemes ++ [Line.ending]
  | consequents =>
      rule.guard.lexemes ++ ⟨.yields, "=>"⟩ :: Line.ending :: ⟨.indent, ""⟩ ::
        (consequents.flatMap (fun consequent => consequent.lexemes ++ [Line.ending]) ++
          [⟨.dedent, ""⟩])

namespace Statement

def layout : Statement → List Line
  | .definition (.domain found) => [⟨false, found.written, found.lexemes⟩]
  | .definition (.schema found) => [⟨false, found.written, found.lexemes⟩]
  | .declaration found => [⟨false, found.written, found.lexemes⟩]
  | .rule found => found.layout

def lexemes : Statement → List Lexeme
  | .definition (.domain found) => found.lexemes ++ [Line.ending]
  | .definition (.schema found) => found.lexemes ++ [Line.ending]
  | .declaration found => found.lexemes ++ [Line.ending]
  | .rule found => found.lexemes

variable {statement : Statement}

theorem lines_eq_layout (statement : Statement) :
    statement.lines.map String.toList = statement.layout.map Line.characters := by
  cases statement with
  | definition found => cases found <;> rfl
  | declaration found => rfl
  | rule found =>
      rcases found with ⟨guard, consequents⟩
      cases consequents with
      | nil => rfl
      | cons first others =>
          simp only [lines, layout, Rule.lines, Rule.layout, List.map_cons, List.map_map]
          refine congr_arg₂ _ rfl (congr_arg₂ _ ?_ (List.map_congr_left ?_))
          · exact String.toList_append
          · intro consequent _
            exact String.toList_append

theorem starts_name {name : String} (isName : isName name = true) (rest : List Char) :
    ∃ first others, name.toList ++ rest = first :: others ∧ Text.isWordStart first = true := by
  obtain ⟨first, others, same, start, _⟩ := isName_cons isName
  exact ⟨first, others ++ rest, by rw [same, List.cons_append], start⟩

theorem starts_comparison {comparison : Comparison} (writable : comparison.writable = true)
    (rest : List Char) :
    ∃ first others, comparison.written.toList ++ rest = first :: others ∧
      Text.isWordStart first = true := by
  simp only [Comparison.writable, Reference.writable, Bool.and_eq_true] at writable
  simp only [Comparison.written, Reference.written, String.toList_append, List.append_assoc]
  exact starts_name writable.1.1 _

/-- A line with nothing but a comparison. -/
theorem sound_comparison {comparison : Comparison} (writable : comparison.writable = true)
    (deep : Bool) : Line.Sound ⟨deep, comparison.written, comparison.lexemes⟩ := by
  have cuts := Cuts.comparison writable stops_nil Cuts.nil
  have starts := starts_comparison writable []
  rw [List.append_nil, List.append_nil] at cuts
  rw [List.append_nil] at starts
  exact ⟨cuts, starts⟩

theorem sound_definition {definition : Definition}
    (writable : (Statement.definition definition).Writable) :
    ∀ line ∈ (Statement.definition definition).layout, line.Sound := by
  cases definition with
  | domain found =>
      rcases writable with ⟨names, nonempty, _, labels⟩
      refine List.forall_mem_singleton.mpr ⟨Cuts.domain names nonempty labels, ?_⟩
      simp only [Domain.written, String.toList_append, List.append_assoc]
      exact starts_name names _
  | schema found =>
      rcases writable with ⟨names, nonempty, entries⟩
      refine List.forall_mem_singleton.mpr ⟨Cuts.schema names nonempty entries, ?_⟩
      simp only [Schema.written, String.toList_append, List.append_assoc]
      exact starts_name names _

theorem sound_rule {rule : Rule} (writable : (Statement.rule rule).Writable) :
    ∀ line ∈ rule.layout, line.Sound := by
  rcases rule with ⟨guard, consequents⟩
  rcases writable with ⟨guardWritable, _, consequentsWritable⟩
  cases consequents with
  | nil => exact List.forall_mem_singleton.mpr (sound_comparison guardWritable false)
  | cons first others =>
      refine List.forall_mem_cons.mpr ⟨⟨Cuts.guard guardWritable, ?_⟩, ?_⟩
      · simp only [String.toList_append]
        exact starts_comparison guardWritable _
      · intro line member
        obtain ⟨consequent, inConsequents, rfl⟩ := List.mem_map.mp member
        exact sound_comparison (consequentsWritable consequent inConsequents) true

/-- Every line of a statement that a text can say starts with a word and is cut as laid out. -/
theorem sound_layout (writable : statement.Writable) : ∀ line ∈ statement.layout, line.Sound := by
  cases statement with
  | definition found => exact sound_definition writable
  | declaration found =>
      rcases writable with ⟨names, types, sized⟩
      refine List.forall_mem_singleton.mpr ⟨Cuts.declaration names types sized, ?_⟩
      simp only [Declaration.written, String.toList_append, List.append_assoc]
      exact ⟨'v', _, rfl, rfl⟩
  | rule found => exact sound_rule writable

theorem marginal_layout (statement : Statement) :
    ∃ line lines, statement.layout = line :: lines ∧ line.deep = false := by
  cases statement with
  | definition found => cases found <;> exact ⟨_, _, rfl, rfl⟩
  | declaration found => exact ⟨_, _, rfl, rfl⟩
  | rule found =>
      rcases found with ⟨guard, consequents⟩
      cases consequents <;> exact ⟨_, _, rfl, rfl⟩

end Statement

namespace Line

/-- Behind the lines of a block stand their lexemes, each with the end of its line. -/
theorem layout_consequents (consequents : List Comparison) (lines : List Line) :
    layout true (consequents.map (fun consequent =>
        ⟨true, consequent.written, consequent.lexemes⟩) ++ lines) =
      consequents.flatMap (fun consequent => consequent.lexemes ++ [ending]) ++
        layout true lines := by
  induction consequents with
  | nil => rfl
  | cons first others ih =>
      rw [List.map_cons, List.cons_append, layout, ih, List.flatMap_cons, List.append_assoc,
        List.append_assoc]
      rfl

/-- The layout of statements puts their lexemes one after the other. -/
theorem layout_statements (deep : Bool) (statements : List Statement) :
    layout deep (statements.flatMap Statement.layout) =
      shift deep false ++ (statements.flatMap Statement.lexemes ++ [ending]) := by
  induction statements generalizing deep with
  | nil => rfl
  | cons statement statements ih =>
      rw [List.flatMap_cons, List.flatMap_cons]
      cases statement with
      | definition found =>
          cases found <;>
            simp only [Statement.layout, Statement.lexemes, List.cons_append, List.nil_append,
              List.append_assoc, layout, ih] <;> rfl
      | declaration found =>
          simp only [Statement.layout, Statement.lexemes, List.cons_append, List.nil_append,
            List.append_assoc, layout, ih]
          rfl
      | rule found =>
          rcases found with ⟨guard, consequents⟩
          cases consequents with
          | nil =>
              simp only [Statement.layout, Statement.lexemes, Rule.layout, Rule.lexemes,
                List.cons_append, List.nil_append, List.append_assoc, layout, ih]
              rfl
          | cons first others =>
              have block := layout_consequents (first :: others)
                (statements.flatMap Statement.layout)
              rw [ih, List.map_cons, List.cons_append, layout] at block
              simp only [Statement.layout, Statement.lexemes, Rule.layout, Rule.lexemes,
                List.map_cons, List.cons_append, List.nil_append, List.append_assoc, layout, shift]
                at block ⊢
              rw [block]

end Line

/-! ## The statements of some lexemes -/

variable {tokens : List Token}

theorem lineEnd_of_lexemes (same : tokens.map Token.lexeme = [Line.ending]) : LineEnd tokens := by
  obtain ⟨newline, rfl, ends, _⟩ := map_lexeme_singleton same
  exact ⟨List.cons_ne_nil _ _, List.forall_mem_singleton.mpr ends⟩

/-- Consequents on lines of their own, and the end of the last line. -/
theorem consequents_of_lexemes {consequents : List Comparison} (nonempty : consequents ≠ [])
    (writable : ∀ consequent ∈ consequents, consequent.writable = true)
    (same : tokens.map Token.lexeme =
      consequents.flatMap fun consequent => consequent.lexemes ++ [Line.ending]) :
    ∃ results used last, tokens = used ++ last ∧
      Separated LineEnd Comparison.SpelledBy results used ∧ LineEnd last ∧ NumbersRead used ∧
        results.map Comparison.unplaced = consequents.map Comparison.unplaced := by
  induction consequents generalizing tokens with
  | nil => exact absurd rfl nonempty
  | cons first others ih =>
      obtain ⟨firstWritable, othersWritable⟩ := List.forall_mem_cons.mp writable
      rw [List.flatMap_cons, List.append_assoc] at same
      obtain ⟨firstUsed, _, rfl, firstSame, rest⟩ := List.map_eq_append_iff.mp same
      obtain ⟨lines, more, rfl, linesSame, moreSame⟩ := List.map_eq_append_iff.mp rest
      have ends := lineEnd_of_lexemes linesSame
      obtain ⟨result, spelled, unplaced, read⟩ := comparison_of_lexemes firstWritable firstSame
      cases others with
      | nil =>
          rw [List.map_eq_nil_iff.mp moreSame, List.append_nil]
          refine ⟨[result], firstUsed, lines, rfl, .one spelled, ends, read, ?_⟩
          rw [List.map_singleton, List.map_singleton, unplaced]
      | cons second others =>
          obtain ⟨results, used, last, rfl, separated, lastEnds, othersRead, othersUnplaced⟩ :=
            ih (List.cons_ne_nil _ _) othersWritable moreSame
          refine ⟨result :: results, firstUsed ++ (lines ++ used), last, ?_,
            .cons spelled ends separated, lastEnds, ?_, ?_⟩
          · simp only [List.append_assoc]
          · rw [numbersRead_append, numbersRead_append]
            exact ⟨read, Reading.numbersRead_of_gap ends.2, othersRead⟩
          · rw [List.map_cons, List.map_cons, unplaced, othersUnplaced]

theorem size_of_lexemes {size : Option Int} (writable : ∀ n ∈ size, isWritableNumber n = true)
    (same : tokens.map Token.lexeme = sizeLexemes size) :
    Grammar.Size size tokens ∧ NumbersRead tokens := by
  cases size with
  | none =>
      rw [List.map_eq_nil_iff.mp same]
      exact ⟨.absent, numbersRead_nil⟩
  | some n =>
      obtain ⟨opening, number, closing, rfl, opens, counts, closes, rfl, read⟩ :=
        brackets_of_lexemes (writable n rfl) same
      exact ⟨.given opens counts closes, read⟩

/-- A statement that is spelled by some tokens, up to places, and can be read. -/
def SpellsReadably (statement : Statement) (tokens : List Token) : Prop :=
  ∃ result : Statement, result.SpelledBy tokens ∧ result.unplaced = statement.unplaced ∧
    NumbersRead tokens ∧ result.LabelsDistinct

/-- The name of a definition, its brackets and what they enclose. -/
theorem defined_of_lexemes {name : String} {opens closes : Lexeme} {inner : List Lexeme}
    (same : tokens.map Token.lexeme = ⟨.identifier, name⟩ :: ⟨.equals, "="⟩ :: opens ::
      (inner ++ closes :: [Line.ending])) :
    ∃ named equals opening used closing lines,
      tokens = named :: equals :: opening :: (used ++ closing :: lines) ∧
        named.kind = .identifier ∧ named.text = name ∧ equals.kind = .equals ∧
        opening.kind = opens.kind ∧ used.map Token.lexeme = inner ∧
        closing.kind = closes.kind ∧ LineEnd lines := by
  obtain ⟨named, _, rfl, namedSame, rest⟩ := List.map_eq_cons_iff.mp same
  obtain ⟨equals, _, rfl, equalsSame, rest⟩ := List.map_eq_cons_iff.mp rest
  obtain ⟨opening, _, rfl, openingSame, rest⟩ := List.map_eq_cons_iff.mp rest
  obtain ⟨used, _, rfl, usedSame, rest⟩ := List.map_eq_append_iff.mp rest
  obtain ⟨closing, lines, rfl, closingSame, linesSame⟩ := List.map_eq_cons_iff.mp rest
  obtain ⟨names, text⟩ := lexeme_eq_iff.mp namedSame
  exact ⟨named, equals, opening, used, closing, lines, rfl, names, text,
    (lexeme_eq_iff.mp equalsSame).1, (lexeme_eq_iff.mp openingSame).1, usedSame,
    (lexeme_eq_iff.mp closingSame).1, lineEnd_of_lexemes linesSame⟩

theorem definition_of_lexemes {definition : Definition}
    (writable : (Statement.definition definition).Writable)
    (same : tokens.map Token.lexeme = (Statement.definition definition).lexemes) :
    SpellsReadably (.definition definition) tokens := by
  cases definition with
  | domain found =>
      rcases writable with ⟨_, nonempty, distinct, _⟩
      simp only [Statement.lexemes, Domain.lexemes, List.cons_append, List.append_assoc,
        List.nil_append] at same
      obtain ⟨name, equals, opening, used, closing, lines, rfl, names, text, defines, opens,
        usedSame, closes, ends⟩ := defined_of_lexemes same
      obtain ⟨labels, lists, texts⟩ :=
        separated_of_lexemes nonempty (fun label _ _ => label_of_lexemes) usedSame
      have spelled := Statement.SpelledBy.domain names defines opens lists closes ends
      rw [text, texts] at spelled
      refine ⟨_, spelled, rfl, Reading.numbersRead_of_definition spelled, ?_⟩
      intro domain defined
      cases defined
      exact distinct
  | schema found =>
      rcases writable with ⟨_, nonempty, _⟩
      simp only [Statement.lexemes, Schema.lexemes, List.cons_append, List.append_assoc,
        List.nil_append] at same
      obtain ⟨name, equals, opening, used, closing, lines, rfl, names, text, defines, opens,
        usedSame, closes, ends⟩ := defined_of_lexemes same
      obtain ⟨entries, lists, same⟩ :=
        separated_of_lexemes nonempty (fun entry _ _ => entry_of_lexemes) usedSame
      have spelled := Statement.SpelledBy.schema names defines opens lists closes ends
      rw [List.map_id] at same
      rw [text, same] at spelled
      exact ⟨_, spelled, rfl, Reading.numbersRead_of_definition spelled, nofun⟩

theorem declaration_of_lexemes {declaration : Declaration}
    (writable : (Statement.declaration declaration).Writable)
    (same : tokens.map Token.lexeme = (Statement.declaration declaration).lexemes) :
    SpellsReadably (.declaration declaration) tokens := by
  rcases writable with ⟨_, _, sized⟩
  simp only [Statement.lexemes, Declaration.lexemes, List.cons_append] at same
  obtain ⟨keyword, _, rfl, keywordSame, rest⟩ := List.map_eq_cons_iff.mp same
  obtain ⟨name, _, rfl, nameSame, rest⟩ := List.map_eq_cons_iff.mp rest
  obtain ⟨colon, _, rfl, colonSame, rest⟩ := List.map_eq_cons_iff.mp rest
  obtain ⟨type, _, rfl, typeSame, rest⟩ := List.map_eq_cons_iff.mp rest
  obtain ⟨used, lines, rfl, usedSame, linesSame⟩ := List.map_eq_append_iff.mp rest
  obtain ⟨declares, _⟩ := lexeme_eq_iff.mp keywordSame
  obtain ⟨names, nameText⟩ := lexeme_eq_iff.mp nameSame
  obtain ⟨separates, _⟩ := lexeme_eq_iff.mp colonSame
  obtain ⟨types, typeText⟩ := lexeme_eq_iff.mp typeSame
  have ends := lineEnd_of_lexemes linesSame
  obtain ⟨spelled, read⟩ := size_of_lexemes sized usedSame
  refine ⟨_, .array declares names separates types spelled ends, ?_, ?_, nofun⟩
  · rw [Statement.unplaced, Statement.unplaced, Declaration.unplaced, Declaration.unplaced,
      nameText, typeText]
  · rw [numbersRead_cons_of_ne (by simp [declares]), numbersRead_cons_of_ne (by simp [names]),
      numbersRead_cons_of_ne (by simp [separates]), numbersRead_cons_of_ne (by simp [types]),
      numbersRead_append]
    exact ⟨read, Reading.numbersRead_of_gap ends.2⟩

/-- The block of consequents behind the arrow of a rule. -/
theorem block_of_lexemes {consequents : List Comparison} (nonempty : consequents ≠ [])
    (writable : ∀ consequent ∈ consequents, consequent.writable = true)
    (same : tokens.map Token.lexeme = Line.ending :: ⟨.indent, ""⟩ ::
      (consequents.flatMap (fun consequent => consequent.lexemes ++ [Line.ending]) ++
        [⟨.dedent, ""⟩])) :
    ∃ results, Block results tokens ∧ NumbersRead tokens ∧
      results.map Comparison.unplaced = consequents.map Comparison.unplaced := by
  obtain ⟨newline, _, rfl, newlineSame, rest⟩ := List.map_eq_cons_iff.mp same
  obtain ⟨indent, _, rfl, indentSame, rest⟩ := List.map_eq_cons_iff.mp rest
  obtain ⟨inside, _, rfl, insideSame, rest⟩ := List.map_eq_append_iff.mp rest
  obtain ⟨dedent, rfl, dedents, _⟩ := map_lexeme_singleton rest
  obtain ⟨results, used, last, rfl, separated, lastEnds, read, unplaced⟩ :=
    consequents_of_lexemes nonempty writable insideSame
  have indents := (lexeme_eq_iff.mp indentSame).1
  have ends : LineEnd [newline] :=
    ⟨List.cons_ne_nil _ _, List.forall_mem_singleton.mpr (lexeme_eq_iff.mp newlineSame).1⟩
  have nothing : Gap [] := nofun
  have follows : Block results ([newline] ++ indent :: ([] ++ (used ++ (last ++ [dedent])))) :=
    .intro ends indents nothing separated lastEnds.2 dedents
  have followsRead :=
    (Reading.numbersRead_of_block ends indents nothing lastEnds.2 dedents).mpr read
  rw [List.append_assoc]
  exact ⟨results, follows, followsRead, unplaced⟩

theorem rule_of_lexemes {rule : Rule} (writable : (Statement.rule rule).Writable)
    (same : tokens.map Token.lexeme = (Statement.rule rule).lexemes) :
    SpellsReadably (.rule rule) tokens := by
  rcases rule with ⟨guard, consequents⟩
  rcases writable with ⟨guardWritable, undefining, consequentsWritable⟩
  cases consequents with
  | nil =>
      obtain ⟨used, lines, rfl, usedSame, linesSame⟩ := List.map_eq_append_iff.mp same
      obtain ⟨result, spelled, unplaced, read⟩ := comparison_of_lexemes guardWritable usedSame
      have ends := lineEnd_of_lexemes linesSame
      refine ⟨_, .plain spelled (startsDefinition_of_lexemes undefining usedSame) ends, ?_, ?_,
        nofun⟩
      · rw [Statement.unplaced, Statement.unplaced, Rule.unplaced, Rule.unplaced, unplaced]
      · exact numbersRead_append.mpr ⟨read, Reading.numbersRead_of_gap ends.2⟩
  | cons first others =>
      obtain ⟨used, _, rfl, usedSame, rest⟩ := List.map_eq_append_iff.mp same
      obtain ⟨arrow, block, rfl, arrowSame, blockSame⟩ := List.map_eq_cons_iff.mp rest
      have yields := (lexeme_eq_iff.mp arrowSame).1
      obtain ⟨result, spelled, unplaced, read⟩ := comparison_of_lexemes guardWritable usedSame
      obtain ⟨results, follows, followsRead, othersUnplaced⟩ :=
        block_of_lexemes (List.cons_ne_nil _ _) consequentsWritable blockSame
      refine ⟨_, .block spelled (startsDefinition_of_lexemes undefining usedSame) yields follows,
        ?_, ?_, nofun⟩
      · rw [Statement.unplaced, Statement.unplaced, Rule.unplaced, Rule.unplaced, unplaced,
          othersUnplaced]
      · rw [numbersRead_append, numbersRead_cons_of_ne (by simp [yields])]
        exact ⟨read, followsRead⟩

theorem statement_of_lexemes {statement : Statement} (writable : statement.Writable)
    (same : tokens.map Token.lexeme = statement.lexemes) : SpellsReadably statement tokens := by
  cases statement with
  | definition found => exact definition_of_lexemes writable same
  | declaration found => exact declaration_of_lexemes writable same
  | rule found => exact rule_of_lexemes writable same

/-- The lexemes of statements, with the end of a line behind them, spell a program. -/
theorem program_of_lexemes {statements : List Statement}
    (writable : ∀ statement ∈ statements, statement.Writable)
    (same : tokens.map Token.lexeme = statements.flatMap Statement.lexemes ++ [Line.ending]) :
    ∃ results, Program results tokens ∧ NumbersRead tokens ∧
      (∀ result ∈ results, result.LabelsDistinct) ∧
        results.map Statement.unplaced = statements.map Statement.unplaced := by
  induction statements generalizing tokens with
  | nil =>
      have blank := (lineEnd_of_lexemes same).2
      exact ⟨[], ⟨tokens, [], blank, .nil, (List.append_nil _).symm⟩,
        Reading.numbersRead_of_gap blank, nofun, rfl⟩
  | cons statement statements ih =>
      obtain ⟨firstWritable, othersWritable⟩ := List.forall_mem_cons.mp writable
      rw [List.flatMap_cons, List.append_assoc] at same
      obtain ⟨used, others, rfl, usedSame, othersSame⟩ := List.map_eq_append_iff.mp same
      obtain ⟨result, spelled, unplaced, read, distinct⟩ :=
        statement_of_lexemes firstWritable usedSame
      obtain ⟨results, ⟨gap, rest, blank, sequence, rfl⟩, othersRead, othersDistinct,
        othersUnplaced⟩ := ih othersWritable othersSame
      -- The empty lines in front of the other statements are consumed with this one.
      refine ⟨result :: results, ⟨[], (used ++ gap) ++ rest, nofun,
        .cons ⟨used, gap, spelled, blank, rfl⟩ sequence, ?_⟩, numbersRead_append.mpr
        ⟨read, othersRead⟩, List.forall_mem_cons.mpr ⟨distinct, othersDistinct⟩, ?_⟩
      · rw [List.nil_append, List.append_assoc]
      · rw [List.map_cons, List.map_cons, unplaced, othersUnplaced]

namespace Puzzle

variable {puzzle : Puzzle}

def layout (puzzle : Puzzle) : List Line :=
  puzzle.statements.flatMap Statement.layout

theorem toList_rendered (puzzle : Puzzle) :
    puzzle.rendered.toList = Line.textOf puzzle.layout := by
  have lines : (puzzle.statements.flatMap Statement.lines).map String.toList =
      puzzle.layout.map Line.characters := by
    rw [layout, List.map_flatMap, List.map_flatMap]
    congr 1
    funext statement
    exact statement.lines_eq_layout
  calc puzzle.rendered.toList
      = ((puzzle.statements.flatMap Statement.lines).map String.toList).flatMap
          (· ++ ['\n']) := by
        rw [rendered, String.toList_join, List.flatMap_map, List.flatMap_map]
        congr 1
        funext line
        exact String.toList_append
    _ = Line.textOf puzzle.layout := by rw [lines, List.flatMap_map, Line.textOf]

theorem sound_layout (writable : puzzle.Writable) : ∀ line ∈ puzzle.layout, line.Sound := by
  intro line member
  obtain ⟨statement, inStatements, inLayout⟩ := List.mem_flatMap.mp member
  exact Statement.sound_layout (writable statement inStatements) line inLayout

theorem marginal_layout (puzzle : Puzzle) : ∀ line ∈ puzzle.layout.head?, line.deep = false := by
  rw [layout]
  cases puzzle.statements with
  | nil => nofun
  | cons statement statements =>
      obtain ⟨line, lines, same, shallow⟩ := statement.marginal_layout
      rw [List.flatMap_cons, same]
      rintro _ found
      cases found
      exact shallow

/-- A puzzle that a text can say is read back from its rendered text, up to places. -/
theorem readPuzzle_rendered (file : Path) (writable : puzzle.Writable) :
    ∃ result, readPuzzle file puzzle.rendered = .ok (result, []) ∧ result.file = some file ∧
      result.unplaced = puzzle.unplaced := by
  obtain ⟨tokens, tokenized, lexemes⟩ := Line.tokenize_layout file (sound_layout writable)
    puzzle.marginal_layout puzzle.toList_rendered
  rw [layout, Line.layout_statements] at lexemes
  obtain ⟨results, program, read, distinct, same⟩ := program_of_lexemes writable lexemes
  have whole : (Reader.ofTokens file (some puzzle.rendered) tokens).ReadsWhole
      (Puzzle.ofStatements (some file) results) :=
    Reader.readsWhole_iff.mpr
      ⟨results, Reading.statements_ok_iff.mpr ⟨rfl, program, read, distinct⟩, rfl⟩
  refine ⟨Puzzle.ofStatements (some file) results, ?_, rfl, ?_⟩
  · rw [readPuzzle, tokenized]
    exact congrArg Prod.fst whole
  · rw [unplaced_ofStatements, same, ← unplaced_ofStatements puzzle.file, ofStatements_statements]

def housePuzzle : Puzzle where
  file := none
  domains := [⟨"Color", ["red", "blue"]⟩]
  schemas := [⟨"House", [⟨"Color", "wall", true⟩, ⟨"Color", "door", false⟩]⟩]
  declarations := [⟨"Houses", "House", some 12, ⟨0, 0⟩⟩, ⟨"Lamp", "Color", none, ⟨0, 0⟩⟩]
  rules := [
    ⟨⟨⟨"Houses", [.index 10, .field "wall"], ⟨0, 0⟩⟩, true, ⟨"red", [], ⟨0, 0⟩⟩⟩, []⟩,
    ⟨⟨⟨"Houses", [.field "wall"], ⟨0, 0⟩⟩, false, ⟨"red", [], ⟨0, 0⟩⟩⟩,
      [⟨⟨"Houses", [.field "door"], ⟨0, 0⟩⟩, false, ⟨"blue", [], ⟨0, 0⟩⟩⟩,
        ⟨⟨"Lamp", [.index 0], ⟨0, 0⟩⟩, true, ⟨"blue", [], ⟨0, 0⟩⟩⟩]⟩]

theorem readPuzzle_housePuzzle :
    housePuzzle.Writable ∧
      housePuzzle.rendered = "Color = \x7bred, blue\x7d\n" ++
        "House = [unique Color wall, Color door]\nvar Houses : House[12]\nvar Lamp : Color\n" ++
        "Houses[10].wall != red\nHouses.wall = red =>\n" ++
        "    Houses.door = blue\n    Lamp[0] != blue\n" ∧
      ∃ result, readPuzzle (Path.ofString "houses.puzzle") housePuzzle.rendered =
        .ok (result, []) ∧ result.file = some (Path.ofString "houses.puzzle") ∧
          result.unplaced = housePuzzle.unplaced := by
  have writable : housePuzzle.Writable := by decide
  exact ⟨writable, by decide +kernel, readPuzzle_rendered _ writable⟩

end Puzzle

end LogicPuzzle
