import LogicPuzzle.Proofs.Lexemes
import LogicPuzzle.Scanner

/-!
# The layout of a text

A text whose lines stand at the margin or in a block below it is scanned line by
line.  Between the lexemes of its lines stand the ends of lines, and the start
and the end of each block.
-/

namespace LogicPuzzle

/-! ## Lines -/

theorem lines_append_newline {line rest : List Char} (unbroken : '\n' ∉ line) :
    Text.lines (line ++ '\n' :: rest) = line :: Text.lines rest := by
  induction line with
  | nil => simp [Text.lines, Text.splitLines]
  | cons c line ih =>
      obtain ⟨other, unbroken⟩ := not_or.mp (mt List.mem_cons.mpr unbroken)
      have later := ih unbroken
      simp only [Text.lines, List.cons.injEq] at later
      simp only [Text.lines, List.cons_append, Text.splitLines, if_neg (Ne.symm other), later.1,
        later.2]

/-- A line of a text: whether it stands in a block, what follows its indentation, and the
lexemes of that. -/
structure Line where
  deep : Bool
  text : String
  lexemes : List Lexeme
  deriving DecidableEq, Repr

namespace Line

def indentation (deep : Bool) : List Char :=
  if deep then [' ', ' ', ' ', ' '] else []

def characters (line : Line) : List Char :=
  indentation line.deep ++ line.text.toList

structure Sound (line : Line) : Prop where
  cuts : Cuts line.text.toList line.lexemes
  starts : ∃ first others, line.text.toList = first :: others ∧ Text.isWordStart first = true

def levels (deep : Bool) : List Nat :=
  if deep then [4, 0] else [0]

/-- What stands between two lines that do not stand at the same margin. -/
def shift : Bool → Bool → List Lexeme
  | false, true => [⟨.indent, ""⟩]
  | true, false => [⟨.dedent, ""⟩]
  | _, _ => []

def ending : Lexeme :=
  ⟨.newline, "\\n"⟩

def layout (deep : Bool) : List Line → List Lexeme
  | [] => shift deep false ++ [ending]
  | line :: lines => shift deep line.deep ++ (line.lexemes ++ ending :: layout line.deep lines)

variable {line : Line} {lines : List Line}

theorem Sound.unbroken (sound : line.Sound) : '\n' ∉ line.characters := by
  rw [characters, List.mem_append, not_or]
  refine ⟨?_, sound.cuts.unbroken⟩
  cases line.deep <;> decide

/-- The indentation of a line can be told from its text. -/
theorem Sound.indented (sound : line.Sound) :
    line.characters.takeWhile isIndentation = indentation line.deep ∧
      line.characters.dropWhile isIndentation = line.text.toList := by
  obtain ⟨first, others, same, start⟩ := sound.starts
  have inside : (indentation line.deep).all isIndentation = true := by
    cases line.deep <;> rfl
  apply takeWhile_stops (List.all_eq_true.mp inside)
  rw [same]
  rintro c equal
  cases equal
  exact (Bool.or_eq_false_iff.mp (wordStart_starts start).1).1

theorem Sound.not_blank (sound : line.Sound) :
    Scan.isBlankBody (line.characters.dropWhile isIndentation) = false := by
  obtain ⟨first, others, same, start⟩ := sound.starts
  rw [sound.indented.2, same]
  exact Scan.isBlankBody_of_solid (wordStart_starts start).1 others

/-- What the indentation of a line does to the levels of the line above. -/
theorem Sound.lineShift (sound : line.Sound) (number : Nat) (deep : Bool) :
    (Scan.lineShift number (levels deep) line.characters).failure = none ∧
      (Scan.lineShift number (levels deep) line.characters).levels = levels line.deep ∧
        (Scan.lineShift number (levels deep) line.characters).tokens.map Token.lexeme =
          shift deep line.deep := by
  rw [Scan.lineShift_of_full sound.not_blank, sound.indented.1]
  cases deep <;> cases line.deep <;> exact ⟨rfl, rfl, rfl⟩

/-! ## Scanning -/

theorem unreadFailure_of_cuts {here : List Char} {lexemes : List Lexeme} (cuts : Cuts here lexemes)
    (number column : Nat) :
    Scan.unreadFailure (Words.read number column here).rest = none := by
  rw [cuts.whole]
  rfl

/-- A scan goes on at the next line. -/
theorem run_next {levels : List Nat} {number column : Nat} {here next : List Char}
    (below : List (List Char))
    (whole : Scan.unreadFailure (Words.read number column here).rest = none)
    (proceeds : (Scan.lineShift (number + 1) levels next).failure = none) :
    ∃ start, Scan.run levels number column here (next :: below) =
      { Scan.run (Scan.lineShift (number + 1) levels next).levels (number + 1) start
          (next.dropWhile isIndentation) below with
        tokens := ((Words.read number column here).tokens ++
          Token.newline number (Words.read number column here).column ::
            (Scan.lineShift (number + 1) levels next).tokens) ++
          (Scan.run (Scan.lineShift (number + 1) levels next).levels (number + 1) start
            (next.dropWhile isIndentation) below).tokens } := by
  refine ⟨1 + (next.takeWhile isIndentation).length, ?_⟩
  rw [Scan.run]
  simp only [whole, proceeds]

/-- A scan gives some lexemes, with those that end the text, and does not fail. -/
def Gives (scan : Scan) (lexemes : List Lexeme) : Prop :=
  scan.failure = none ∧
    (scan.tokens ++ Scan.ending scan.levels scan.line scan.column).map Token.lexeme = lexemes

theorem gives_last (deep : Bool) {here : List Char} {lexemes : List Lexeme}
    (cuts : Cuts here lexemes) (number column : Nat) :
    Gives (Scan.run (levels deep) number column here [])
      (lexemes ++ (shift deep false ++ [ending])) := by
  rw [Gives, Scan.run, unreadFailure_of_cuts cuts, List.map_append, cuts.cut]
  cases deep <;> exact ⟨rfl, rfl⟩

/-- The rest of a line and the lines below it are scanned without a failure. -/
theorem gives_layout (sound : ∀ line ∈ lines, line.Sound) (deep : Bool) {here : List Char}
    {lexemes : List Lexeme} (cuts : Cuts here lexemes) (number column : Nat) :
    Gives (Scan.run (levels deep) number column here (lines.map characters ++ [[]]))
      (lexemes ++ ending :: layout deep lines) := by
  induction lines generalizing deep here lexemes number column with
  | nil =>
      have blank : (Scan.lineShift (number + 1) (levels deep) []).failure = none := rfl
      obtain ⟨start, next⟩ := run_next [] (unreadFailure_of_cuts cuts number column) blank
      obtain ⟨none, last⟩ := gives_last deep Cuts.nil (number + 1) start
      rw [List.map_nil, List.nil_append, next]
      refine ⟨none, ?_⟩
      simp only [List.map_append, List.map_cons, List.append_assoc, cuts.cut] at last ⊢
      exact congrArg (lexemes ++ ending :: ·) last
  | cons line lines ih =>
      obtain ⟨lineSound, others⟩ := List.forall_mem_cons.mp sound
      obtain ⟨proceeds, levelsAfter, shiftTokens⟩ := lineSound.lineShift (number + 1) deep
      obtain ⟨start, next⟩ := run_next (lines.map characters ++ [[]])
        (unreadFailure_of_cuts cuts number column) proceeds
      obtain ⟨none, later⟩ := ih others line.deep lineSound.cuts (number + 1) start
      rw [List.map_cons, List.cons_append, next, levelsAfter, lineSound.indented.2]
      refine ⟨none, ?_⟩
      simp only [List.map_append, List.map_cons, List.append_assoc, cuts.cut, shiftTokens]
        at later ⊢
      rw [List.cons_append, later]
      rfl

/-! ## Texts -/

def textOf (lines : List Line) : List Char :=
  lines.flatMap fun line => line.characters ++ ['\n']

theorem lines_textOf (sound : ∀ line ∈ lines, line.Sound) :
    Text.lines (textOf lines) = lines.map characters ++ [[]] := by
  induction lines with
  | nil => rfl
  | cons line lines ih =>
      obtain ⟨lineSound, others⟩ := List.forall_mem_cons.mp sound
      rw [textOf, List.flatMap_cons, List.append_assoc, List.singleton_append,
        lines_append_newline lineSound.unbroken, List.map_cons, List.cons_append]
      exact congrArg (_ :: ·) (ih others)

/-- A text whose first line stands at the margin has the lexemes of its layout. -/
theorem tokenize_layout (file : Path) {text : String} (sound : ∀ line ∈ lines, line.Sound)
    (marginal : ∀ line ∈ lines.head?, line.deep = false) (written : text.toList = textOf lines) :
    ∃ tokens, tokenize file text = .ok tokens ∧ tokens.map Token.lexeme = layout false lines := by
  have split := lines_textOf sound
  rw [← written, Text.lines] at split
  have gives : Gives (Scan.run [0] 1 1 (Text.splitLines text.toList).1
      (Text.splitLines text.toList).2) (layout false lines) := by
    cases lines with
    | nil =>
        obtain ⟨first, below⟩ := List.cons.inj split
        rw [first, below]
        exact gives_last false Cuts.nil 1 1
    | cons line lines =>
        obtain ⟨lineSound, others⟩ := List.forall_mem_cons.mp sound
        have shallow : line.deep = false := marginal line rfl
        obtain ⟨first, below⟩ := List.cons.inj split
        rw [first, below, characters, layout, shallow]
        exact gives_layout others false lineSound.cuts 1 1
  rcases gives with ⟨none, lexemes⟩
  refine ⟨_, ?_, lexemes⟩
  rw [tokenize, Scanner.tokenize]
  simp only [Scanner.ofText, none]
  rfl

end Line

end LogicPuzzle
