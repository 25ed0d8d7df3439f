import LogicPuzzle.Proofs.Grammar
import LogicPuzzle.Proofs.Lexemes
import LogicPuzzle.Scanner

/-!
# Texts further down

Lines that stand further down in a text give the same tokens at lower places,
and these spell the same statements with lower places.  Columns, indentation and
failures do not depend on the line.
-/

namespace LogicPuzzle

/-! ## Lower places -/

def Position.down (lines : Nat) (position : Position) : Position :=
  { position with line := position.line + lines }

def Token.down (lines : Nat) (token : Token) : Token :=
  { token with position := token.position.down lines }

def Reference.down (lines : Nat) (reference : Reference) : Reference :=
  { reference with position := reference.position.down lines }

def Comparison.down (lines : Nat) (comparison : Comparison) : Comparison where
  left := comparison.left.down lines
  negated := comparison.negated
  right := comparison.right.down lines

def Rule.down (lines : Nat) (rule : Rule) : Rule where
  guard := rule.guard.down lines
  consequents := rule.consequents.map (Comparison.down lines)

def Declaration.down (lines : Nat) (declaration : Declaration) : Declaration :=
  { declaration with position := declaration.position.down lines }

/-- A statement some lines further down.  Definitions have no position. -/
def Statement.down (lines : Nat) : Statement → Statement
  | .definition found => .definition found
  | .declaration found => .declaration (found.down lines)
  | .rule found => .rule (found.down lines)

def Puzzle.down (lines : Nat) (puzzle : Puzzle) : Puzzle where
  file := puzzle.file
  domains := puzzle.domains
  schemas := puzzle.schemas
  declarations := puzzle.declarations.map (Declaration.down lines)
  rules := puzzle.rules.map (Rule.down lines)

/-! ## Scanning further down -/

theorem Words.read_none {cs : List Char} (unfound : Piece.first? cs = none) (line column : Nat) :
    Words.read line column cs = ⟨[], column, cs⟩ := by
  rw [Words.read]
  split
  · rfl
  · next found =>
      rw [unfound] at found
      cases found

theorem Words.read_down (lines line column : Nat) (cs : List Char) :
    read (line + lines) column cs = { read line column cs with
      tokens := (read line column cs).tokens.map (Token.down lines) } := by
  fun_induction read line column cs with
  | case1 column cs unfound => exact read_none unfound _ _
  | case2 column cs piece found later gap ih =>
      rw [Cuts.read_piece found, gap]
      exact ih
  | case3 column cs piece found later kind word ih =>
      rw [Cuts.read_piece found, word]
      simp only [ih]
      rfl

theorem Shift.ofWidth_down (lines line : Nat) (levels : List Nat) (width : Int) :
    Shift.ofWidth (line + lines) levels width = { Shift.ofWidth line levels width with
      tokens := (Shift.ofWidth line levels width).tokens.map (Token.down lines) } := by
  unfold ofWidth closing
  split
  · rfl
  · split
    · rfl
    · split
      · rfl
      · split
        · simp only [List.map_map]
          rfl
        · split <;>
          · simp only [List.map_map]
            rfl

theorem Scan.lineShift_down (lines line : Nat) (levels : List Nat) (characters : List Char) :
    lineShift (line + lines) levels characters = { lineShift line levels characters with
      tokens := (lineShift line levels characters).tokens.map (Token.down lines) } := by
  unfold lineShift
  split
  · rfl
  · exact Shift.ofWidth_down _ _ _ _

/-- A scan that starts further down finds the same. -/
theorem Scan.run_down (lines : Nat) (levels : List Nat) (line column : Nat) (here : List Char)
    (below : List (List Char)) :
    run levels (line + lines) column here below = { run levels line column here below with
      tokens := (run levels line column here below).tokens.map (Token.down lines)
      line := (run levels line column here below).line + lines } := by
  fun_induction run levels line column here below with
  | case1 levels line column here words =>
      rw [run, Words.read_down]
  | case2 levels line column here next below words failure unread =>
      have sameUnread :
          unreadFailure (Words.read (line + lines) column here).rest = some failure := by
        rw [Words.read_down]
        exact unread
      rw [run]
      simp only [sameUnread]
      rw [Words.read_down]
  | case3 levels line column here next below words whole shift body start tokens failure failed =>
      have lower : line + lines + 1 = line + 1 + lines := Nat.add_right_comm line lines 1
      simp only [words, shift] at whole failed
      rw [run, Words.read_down, lower, lineShift_down]
      simp only [whole, failed, tokens, List.map_append, List.map_cons]
      rfl
  | case4 levels line column here next below words whole shift body start tokens proceeds later
      ih =>
      have lower : line + lines + 1 = line + 1 + lines := Nat.add_right_comm line lines 1
      simp only [words, shift] at whole proceeds
      rw [run, Words.read_down, lower, lineShift_down]
      simp only [shift, start, body] at ih
      simp only [whole, proceeds, ih, tokens, later, List.map_append, List.map_cons]
      rfl

theorem Scan.ending_down (lines : Nat) (levels : List Nat) (line column : Nat) :
    ending levels (line + lines) column = (ending levels line column).map (Token.down lines) := by
  rw [ending, ending, List.map_append, List.map_map]
  rfl

/-! ## Spelling further down -/

section Spelling

open Grammar Reading

variable {tokens : List Token} {lines : Nat}

theorem numbersRead_down (read : NumbersRead tokens) :
    NumbersRead (tokens.map (Token.down lines)) := by
  intro token member number
  obtain ⟨upper, upperMember, rfl⟩ := List.mem_map.mp member
  exact read upper upperMember number

theorem gap_down (gap : Gap tokens) : Gap (tokens.map (Token.down lines)) := by
  intro token member
  obtain ⟨upper, upperMember, rfl⟩ := List.mem_map.mp member
  exact gap upper upperMember

theorem lineEnd_down (ends : LineEnd tokens) : LineEnd (tokens.map (Token.down lines)) :=
  ⟨mt List.map_eq_nil_iff.mp ends.1, gap_down ends.2⟩

theorem comma_down (comma : Comma tokens) : Comma (tokens.map (Token.down lines)) := by
  rcases comma with ⟨token, kind, rfl⟩
  exact ⟨token.down lines, kind, rfl⟩

theorem identifier_down {name : Token} (identifier : Identifier name tokens) :
    Identifier (name.down lines) (tokens.map (Token.down lines)) := by
  rcases identifier with ⟨kind, rfl⟩
  exact ⟨kind, rfl⟩

variable {α : Type} {item : α → List Token → Prop} {separator : List Token → Prop} {move : α → α}
  {values : List α}

theorem sequence_down (sequence : Sequence item values tokens)
    (moves : ∀ {value used}, item value used → item (move value) (used.map (Token.down lines))) :
    Sequence item (values.map move) (tokens.map (Token.down lines)) := by
  induction sequence with
  | nil => exact .nil
  | cons first _ ih =>
      rw [List.map_append]
      exact .cons (moves first) ih

theorem separated_down (separated : Separated separator item values tokens)
    (parts : ∀ {between}, separator between → separator (between.map (Token.down lines)))
    (moves : ∀ {value used}, item value used → item (move value) (used.map (Token.down lines))) :
    Separated separator item (values.map move) (tokens.map (Token.down lines)) := by
  induction separated with
  | one only => exact .one (moves only)
  | cons first separates _ ih =>
      rw [List.map_append, List.map_append]
      exact .cons (moves first) (parts separates) ih

theorem startsDefinition_down (tokens : List Token) :
    startsDefinition (tokens.map (Token.down lines)) = startsDefinition tokens := by
  rcases tokens with _ | ⟨first, _ | ⟨second, others⟩⟩ <;> rfl

theorem Selector.SpelledBy.down {selector : Selector} (spelled : selector.SpelledBy tokens) :
    selector.SpelledBy (tokens.map (Token.down lines)) := by
  cases spelled with
  | @index opening number closing opens counts closes =>
      exact @SpelledBy.index (opening.down lines) (number.down lines) (closing.down lines)
        opens counts closes
  | @field dot name selects names =>
      exact @SpelledBy.field (dot.down lines) (name.down lines) selects names

theorem Reference.SpelledBy.down {reference : Reference} (spelled : reference.SpelledBy tokens) :
    (reference.down lines).SpelledBy (tokens.map (Token.down lines)) := by
  cases spelled with
  | @intro name selectors used names selects =>
      have moved : Sequence Selector.SpelledBy (selectors.map id) (used.map (Token.down lines)) :=
        sequence_down selects Selector.SpelledBy.down
      rw [List.map_id] at moved
      exact @SpelledBy.intro (name.down lines) _ _ names moved

theorem Comparison.SpelledBy.down {comparison : Comparison}
    (spelled : comparison.SpelledBy tokens) :
    (comparison.down lines).SpelledBy (tokens.map (Token.down lines)) := by
  cases spelled with
  | @intro left right negated operator leftUsed rightUsed left compares right =>
      rw [List.map_append, List.map_cons]
      exact @SpelledBy.intro _ _ _ (operator.down lines) _ _ left.down compares right.down

theorem Entry.SpelledBy.down {entry : Entry} (spelled : entry.SpelledBy tokens) :
    entry.SpelledBy (tokens.map (Token.down lines)) := by
  cases spelled with
  | @plain type name types names =>
      exact @SpelledBy.plain (type.down lines) (name.down lines) types names
  | @unique keyword type name marks types names =>
      exact @SpelledBy.unique (keyword.down lines) (type.down lines) (name.down lines) marks types
        names

theorem size_down {size : Option Int} (sized : Grammar.Size size tokens) :
    Grammar.Size size (tokens.map (Token.down lines)) := by
  cases sized with
  | absent => exact .absent
  | @given opening number closing opens counts closes =>
      exact @Grammar.Size.given (opening.down lines) (number.down lines) (closing.down lines)
        opens counts closes

theorem block_down {consequents : List Comparison} (block : Block consequents tokens) :
    Block (consequents.map (Comparison.down lines)) (tokens.map (Token.down lines)) := by
  cases block with
  | @intro indent dedent ends before used after lineEnds indents blankBefore spelled blankAfter
      dedents =>
      simp only [List.map_append, List.map_cons, List.map_nil]
      exact @Block.intro _ (indent.down lines) (dedent.down lines) _ _ _ _
        (lineEnd_down lineEnds) indents (gap_down blankBefore)
        (separated_down spelled lineEnd_down Comparison.SpelledBy.down) (gap_down blankAfter)
        dedents

theorem Statement.SpelledBy.down {statement : Statement} (spelled : statement.SpelledBy tokens) :
    (statement.down lines).SpelledBy (tokens.map (Token.down lines)) := by
  cases spelled with
  | @domain name equals opening closing labels used ends names defines opens lists closes
      lineEnds =>
      have moved : Separated Comma Identifier (labels.map (Token.down lines))
          (used.map (Token.down lines)) :=
        separated_down lists comma_down identifier_down
      have texts : (labels.map (Token.down lines)).map (·.text) = labels.map (·.text) :=
        List.map_map
      have movedEnds : LineEnd (ends.map (Token.down lines)) := lineEnd_down lineEnds
      have spelled := @SpelledBy.domain (name.down lines) (equals.down lines)
        (opening.down lines) (closing.down lines) _ _ _ names defines opens moved closes movedEnds
      simp only [List.map_append, List.map_cons]
      rwa [texts] at spelled
  | @schema name equals opening closing entries used ends names defines opens lists closes
      lineEnds =>
      have moved : Separated Comma Entry.SpelledBy (entries.map id)
          (used.map (Token.down lines)) :=
        separated_down lists comma_down Entry.SpelledBy.down
      rw [List.map_id] at moved
      simp only [List.map_append, List.map_cons]
      exact @SpelledBy.schema (name.down lines) (equals.down lines) (opening.down lines)
        (closing.down lines) _ _ _ names defines opens moved closes (lineEnd_down lineEnds)
  | @array keyword name colon type size used ends declares names separates types sized lineEnds =>
      simp only [List.map_append, List.map_cons]
      exact @SpelledBy.array (keyword.down lines) (name.down lines) (colon.down lines)
        (type.down lines) _ _ _ declares names separates types (size_down sized)
        (lineEnd_down lineEnds)
  | plain spelled undefining lineEnds =>
      rw [List.map_append]
      exact .plain spelled.down ((startsDefinition_down _).trans undefining)
        (lineEnd_down lineEnds)
  | @block guard consequents arrow used rest spelled undefining yields follows =>
      rw [List.map_append, List.map_cons]
      exact @SpelledBy.block _ _ (arrow.down lines) _ _ spelled.down
        ((startsDefinition_down _).trans undefining) yields (block_down follows)

/-- A program that stands further down spells the same statements further down. -/
theorem program_down {statements : List Statement} (program : Program statements tokens) :
    Program (statements.map (Statement.down lines)) (tokens.map (Token.down lines)) := by
  rcases program with ⟨gap, rest, blank, sequence, rfl⟩
  refine ⟨_, _, gap_down blank, sequence_down sequence ?_, List.map_append⟩
  rintro statement _ ⟨used, gap, spelled, blank, rfl⟩
  exact ⟨_, _, spelled.down, gap_down blank, List.map_append⟩

end Spelling

/-! ## Puzzles further down -/

theorem Statement.labelsDistinct_down {statement : Statement} {lines : Nat}
    (distinct : statement.LabelsDistinct) : (statement.down lines).LabelsDistinct := by
  cases statement with
  | definition => exact distinct
  | declaration => exact nofun
  | rule => exact nofun

theorem Puzzle.ofStatements_down (file : Option Path) (statements : List Statement)
    (lines : Nat) :
    ofStatements file (statements.map (Statement.down lines)) =
      (ofStatements file statements).down lines := by
  have domains : Statement.domain? ∘ Statement.down lines = Statement.domain? := by
    funext statement
    cases statement <;> rfl
  have schemas : Statement.schema? ∘ Statement.down lines = Statement.schema? := by
    funext statement
    cases statement <;> rfl
  have declarations : Statement.declaration? ∘ Statement.down lines =
      fun statement => statement.declaration?.map (Declaration.down lines) := by
    funext statement
    cases statement <;> rfl
  have rules : Statement.rule? ∘ Statement.down lines =
      fun statement => statement.rule?.map (Rule.down lines) := by
    funext statement
    cases statement <;> rfl
  simp only [ofStatements, Puzzle.down, List.filterMap_map, List.map_filterMap, domains, schemas,
    declarations, rules]

end LogicPuzzle
