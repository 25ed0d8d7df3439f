import LogicPuzzle.Proofs.AlikeTexts
import LogicPuzzle.Proofs.JoinedScans
import LogicPuzzle.Proofs.Layout
import LogicPuzzle.Proofs.Pieces

/-!
# Canonical texts

The tokens of a text can be written down again in one canonical way: four blanks
for each block that a line stands in, one blank between the words of a line.
The scan of the canonical text gives the same tokens in the same lines.  Every
word stands for itself, wherever it is put between blanks, and the depth of a
line counts the open levels, whatever their widths are.
-/

namespace LogicPuzzle

/-! ## Writing tokens down -/

def hasNewline (lexemes : List Lexeme) : Bool :=
  lexemes.any fun lexeme => lexeme.kind == .newline

/-- The characters for some lexemes, in a block of a depth, behind the start of a line or behind
a word of it.  The last line does not end with a newline. -/
def canonicalFrom (depth : Nat) (begun : Bool) : List Lexeme → List Char
  | [] => []
  | lexeme :: rest =>
      match lexeme.kind with
      | .indent => canonicalFrom (depth + 1) begun rest
      | .dedent => canonicalFrom (depth - 1) begun rest
      | .newline => (if hasNewline rest then ['\n'] else []) ++ canonicalFrom depth false rest
      | _ =>
          (if begun then [' '] else List.replicate (Fault.indentStep * depth) ' ') ++
            lexeme.text.toList ++ canonicalFrom depth true rest

def canonicalText (tokens : List Token) : String :=
  String.ofList (canonicalFrom 0 false (tokens.map Token.lexeme))

section Writing

variable {depth : Nat} {begun : Bool} {rest : List Lexeme}

theorem canonicalFrom_word {lexeme : Lexeme} (word : lexeme.kind.isLayout = false) :
    canonicalFrom depth begun (lexeme :: rest) =
      (if begun then [' '] else List.replicate (Fault.indentStep * depth) ' ') ++
        lexeme.text.toList ++ canonicalFrom depth true rest := by
  rw [canonicalFrom]
  split
  · next kind =>
      rw [kind] at word
      cases word
  · next kind =>
      rw [kind] at word
      cases word
  · next kind =>
      rw [kind] at word
      cases word
  · rfl

theorem canonicalFrom_newline {line column : Nat} (more : hasNewline rest = true) :
    canonicalFrom depth begun ((Token.newline line column).lexeme :: rest) =
      '\n' :: canonicalFrom depth false rest := by
  change (if _ then _ else _) ++ _ = _
  rw [if_pos more, List.singleton_append]

theorem canonicalFrom_dedents (closed line : Nat) :
    canonicalFrom depth begun (List.replicate closed (Token.dedent line).lexeme ++ rest) =
      canonicalFrom (depth - closed) begun rest := by
  induction closed generalizing depth with
  | zero => rfl
  | succ closed ih =>
      rw [List.replicate_succ, List.cons_append, Nat.add_comm, ← Nat.sub_sub, ← ih]
      rfl

end Writing

/-! ## Words between blanks -/

/-- A lexeme that is cut off by anything that does not prolong a word. -/
structure Lexeme.Stands (lexeme : Lexeme) : Prop where
  unbroken : '\n' ∉ lexeme.text.toList
  found : ∀ rest, (∀ c ∈ rest.head?, isNeutral c = true) →
    Piece.first? (lexeme.text.toList ++ rest) =
      some ⟨some lexeme.kind, lexeme.text.toList, rest⟩

/-- The words of a line stand for themselves. -/
theorem Words.stands_read (line column : Nat) {cs : List Char} (unbroken : '\n' ∉ cs) :
    ∀ token ∈ (read line column cs).tokens, token.lexeme.Stands := by
  fun_induction read line column cs with
  | case1 => exact List.forall_mem_nil _
  | case2 column cs piece found later gap ih =>
      rw [← (Piece.first?_text_append_rest found).1, List.mem_append, not_or] at unbroken
      exact ih unbroken.2
  | case3 column cs piece found later kind word ih =>
      rw [← (Piece.first?_text_append_rest found).1, List.mem_append, not_or] at unbroken
      refine List.forall_mem_cons.mpr ⟨⟨?_, ?_⟩, ih unbroken.2⟩
      · rw [Token.lexeme, String.toList_ofList]
        exact unbroken.1
      · intro rest neutral
        rw [Token.lexeme, String.toList_ofList]
        rw [Piece.first?_replace found fun c next => .inl (neutral c next), word]

def behindBlanks (lexemes : List Lexeme) : List Char :=
  lexemes.flatMap fun lexeme => ' ' :: lexeme.text.toList

def spaced : List Lexeme → List Char
  | [] => []
  | first :: others => first.text.toList ++ behindBlanks others

theorem behindBlanks_cons (lexeme : Lexeme) (lexemes : List Lexeme) :
    behindBlanks (lexeme :: lexemes) = ' ' :: (lexeme.text.toList ++ behindBlanks lexemes) := rfl

theorem neutral_behindBlanks (lexemes : List Lexeme) :
    ∀ c ∈ (behindBlanks lexemes).head?, isNeutral c = true := by
  intro c next
  cases lexemes with
  | nil => cases next
  | cons =>
      cases next
      decide

section Spacing

variable {lexemes : List Lexeme} (stand : ∀ lexeme ∈ lexemes, lexeme.Stands)
include stand

theorem cuts_behindBlanks : Cuts (behindBlanks lexemes) lexemes := by
  induction lexemes with
  | nil => exact .nil
  | cons lexeme lexemes ih =>
      obtain ⟨stands, others⟩ := List.forall_mem_cons.mp stand
      have cuts := Cuts.word (stands.found _ (neutral_behindBlanks lexemes)) stands.unbroken
        (ih others)
      rw [String.ofList_toList] at cuts
      exact cuts.space

/-- Words with single blanks between them are cut again into the same words. -/
theorem cuts_spaced : Cuts (spaced lexemes) lexemes := by
  cases lexemes with
  | nil => exact .nil
  | cons lexeme lexemes =>
      obtain ⟨stands, others⟩ := List.forall_mem_cons.mp stand
      have cuts := Cuts.word (stands.found _ (neutral_behindBlanks lexemes)) stands.unbroken
        (cuts_behindBlanks others)
      rwa [String.ofList_toList] at cuts

end Spacing

theorem Lexeme.Stands.starts {lexeme : Lexeme} (stands : lexeme.Stands) :
    lexeme.kind.isLayout = false ∧
      ∃ first others, lexeme.text.toList = first :: others ∧ isGap first = false := by
  have found := stands.found [] nofun
  refine ⟨Piece.first?_isLayout found rfl, ?_⟩
  rw [List.append_nil] at found
  cases text : lexeme.text.toList with
  | nil =>
      rw [text] at found
      cases found
  | cons first others =>
      rw [text] at found
      exact ⟨first, others, rfl, (Piece.isNone_kind found).symm⟩

/-! ## Levels of equal steps -/

/-- The levels of so many blocks, each one step deeper than the one around it. -/
def ladder : Nat → List Nat
  | 0 => [0]
  | depth + 1 => Fault.indentStep * (depth + 1) :: ladder depth

theorem ladder_eq_cons (depth : Nat) :
    ∃ outer, ladder depth = Fault.indentStep * depth :: outer := by
  cases depth with
  | zero => exact ⟨[], rfl⟩
  | succ depth => exact ⟨ladder depth, rfl⟩

theorem closes_ladder (depth closed : Nat) :
    ((ladder (depth + closed)).takeWhile fun (level : Nat) =>
        ((Fault.indentStep * depth : Nat) : Int) < level).length = closed ∧
      ((ladder (depth + closed)).dropWhile fun (level : Nat) =>
        ((Fault.indentStep * depth : Nat) : Int) < level) = ladder depth := by
  induction closed with
  | zero =>
      obtain ⟨outer, same⟩ := ladder_eq_cons depth
      rw [Nat.add_zero, same]
      simp
  | succ closed ih =>
      have closes : ((Fault.indentStep * depth : Nat) : Int) <
          (Fault.indentStep * (depth + closed + 1) : Nat) := by
        apply Int.ofNat_lt.mpr
        exact Nat.mul_lt_mul_of_pos_left (by omega) (by decide)
      have innermost : ladder (depth + (closed + 1)) =
          Fault.indentStep * (depth + closed + 1) :: ladder (depth + closed) := rfl
      simp only [innermost, List.takeWhile_cons, List.dropWhile_cons, closes, decide_true, if_true,
        List.length_cons, ih, and_self]

def depthOf (levels : List Nat) : Nat :=
  levels.length - 1

theorem depthOf_ladder (depth : Nat) : depthOf (ladder depth) = depth := by
  have length : (ladder depth).length = depth + 1 := by
    induction depth with
    | zero => rfl
    | succ depth ih => rw [ladder, List.length_cons, ih]
  rw [depthOf, length, Nat.add_sub_cancel]

namespace Shift

variable {line : Nat} {levels : List Nat} {width : Int}

theorem ofWidth_steps (line : Nat) (levels : List Nat) (steps : Nat) :
    ofWidth line levels (Fault.indentStep * steps : Nat) =
      match levels with
      | [] => ⟨[], [], some .outOfRange⟩
      | level :: outer =>
          if level < Fault.indentStep * steps then
            ⟨[Token.indent line], Fault.indentStep * steps :: level :: outer, none⟩
          else closing line (level :: outer) (Fault.indentStep * steps : Nat) := by
  have even : ((Fault.indentStep * steps : Nat) : Int) % (Fault.indentStep : Nat) = 0 := by
    rw [← Int.natCast_mod, Nat.mul_mod_right]
    rfl
  unfold ofWidth
  rw [if_neg (not_not.mpr even)]
  cases levels with
  | nil => rfl
  | cons level outer => simp only [Int.ofNat_lt, Int.toNat_natCast]

theorem ofWidth_ladder_deeper (line depth : Nat) :
    ofWidth line (ladder depth) (Fault.indentStep * (depth + 1) : Nat) =
      ⟨[Token.indent line], ladder (depth + 1), none⟩ := by
  obtain ⟨outer, same⟩ := ladder_eq_cons depth
  have deeper : Fault.indentStep * depth < Fault.indentStep * (depth + 1) :=
    Nat.mul_lt_mul_of_pos_left (Nat.lt_succ_self _) (by decide)
  rw [ofWidth_steps, same]
  simp only [if_pos deeper, ladder, same]

theorem ofWidth_ladder_closing (line depth closed : Nat) :
    ofWidth line (ladder (depth + closed)) (Fault.indentStep * depth : Nat) =
      ⟨List.replicate closed (Token.dedent line), ladder depth, none⟩ := by
  obtain ⟨taken, left⟩ := closes_ladder depth closed
  obtain ⟨outer, same⟩ := ladder_eq_cons depth
  obtain ⟨upper, start⟩ := ladder_eq_cons (depth + closed)
  have notDeeper : ¬ Fault.indentStep * (depth + closed) < Fault.indentStep * depth :=
    Nat.not_lt.mpr (Nat.mul_le_mul_left _ (Nat.le_add_right _ _))
  rw [ofWidth_steps, start]
  simp only [if_neg notDeeper]
  rw [← start, closing, left, List.map_const', taken, same]
  simp only [if_true]

/-- What a line does to the open levels when it fits. -/
theorem ofWidth_cases (proceeds : (ofWidth line levels width).failure = none) :
    (levels ≠ [] ∧ ∃ level, ofWidth line levels width =
      ⟨[Token.indent line], level :: levels, none⟩) ∨
    ∃ closed level outer, levels = closed ++ level :: outer ∧ ofWidth line levels width =
      ⟨List.replicate closed.length (Token.dedent line), level :: outer, none⟩ := by
  generalize shifted : ofWidth line levels width = shift at proceeds ⊢
  unfold ofWidth at shifted
  split at shifted
  · rcases shifted with rfl
    cases proceeds
  · split at shifted
    · rcases shifted with rfl
      cases proceeds
    · next level outer =>
        split at shifted
        · exact .inl ⟨List.cons_ne_nil _ _, _, shifted.symm⟩
        · right
          have halves := List.takeWhile_append_dropWhile
            (p := fun (level : Nat) => decide (width < level)) (l := level :: outer)
          unfold closing at shifted
          split at shifted
          · rcases shifted with rfl
            cases proceeds
          · next last rest left =>
              rw [left] at halves
              refine ⟨_, last, rest, halves.symm, ?_⟩
              split at shifted
              · rw [← shifted, List.map_const']
              · rcases shifted with rfl
                cases proceeds

/-- Measured against a ladder, as many steps as there are blocks behind a line do what the line
does, and so do its tokens to the depth. -/
theorem ofWidth_ladder (full : levels ≠ [])
    (proceeds : (ofWidth line levels width).failure = none) :
    (ofWidth line levels width).levels ≠ [] ∧
    ofWidth line (ladder (depthOf levels))
        (Fault.indentStep * depthOf (ofWidth line levels width).levels : Nat) =
      ⟨(ofWidth line levels width).tokens, ladder (depthOf (ofWidth line levels width).levels),
        none⟩ ∧
    ∀ begun rest, canonicalFrom (depthOf levels) begun
        ((ofWidth line levels width).tokens.map Token.lexeme ++ rest) =
      canonicalFrom (depthOf (ofWidth line levels width).levels) begun rest := by
  rcases ofWidth_cases proceeds with ⟨_, level, indents⟩ | ⟨closed, level, outer, rfl, closes⟩
  · rw [indents]
    have deeper : depthOf (level :: levels) = depthOf levels + 1 := by
      have positive := List.length_pos_iff.mpr full
      rw [depthOf, depthOf, List.length_cons]
      omega
    refine ⟨List.cons_ne_nil _ _, ?_, ?_⟩
    · rw [deeper]
      exact ofWidth_ladder_deeper line (depthOf levels)
    · intro begun rest
      rw [deeper]
      rfl
  · rw [closes]
    have depth : depthOf (closed ++ level :: outer) =
        depthOf (level :: outer) + closed.length := by
      rw [depthOf, depthOf, List.length_append, List.length_cons]
      omega
    refine ⟨List.cons_ne_nil _ _, ?_, ?_⟩
    · rw [depth]
      exact ofWidth_ladder_closing line _ closed.length
    · intro begun rest
      rw [depth, List.map_replicate, canonicalFrom_dedents, Nat.add_sub_cancel]

end Shift

/-! ## Canonical lines -/

def canonicalLine (depth : Nat) (words : List Lexeme) : List Char :=
  if words = [] then [] else List.replicate (Fault.indentStep * depth) ' ' ++ spaced words

section Lines

variable {depth : Nat} {words rest : List Lexeme}

theorem canonicalFrom_begun (isWord : ∀ word ∈ words, word.kind.isLayout = false) :
    canonicalFrom depth true (words ++ rest) =
      behindBlanks words ++ canonicalFrom depth true rest := by
  induction words with
  | nil => rfl
  | cons word words ih =>
      obtain ⟨first, others⟩ := List.forall_mem_cons.mp isWord
      rw [List.cons_append, canonicalFrom_word first, ih others, behindBlanks_cons]
      simp only [if_true, List.append_assoc, List.cons_append, List.nil_append]

/-- The words of a line are written down as a canonical line. -/
theorem canonicalFrom_line (isWord : ∀ word ∈ words, word.kind.isLayout = false)
    {written : List Char} (others : ∀ begun, canonicalFrom depth begun rest = written) :
    canonicalFrom depth false (words ++ rest) = canonicalLine depth words ++ written := by
  cases words with
  | nil => exact others false
  | cons word words =>
      obtain ⟨first, more⟩ := List.forall_mem_cons.mp isWord
      rw [List.cons_append, canonicalFrom_word first, canonicalFrom_begun more, others,
        canonicalLine, if_neg (List.cons_ne_nil _ _), spaced]
      simp only [Bool.false_eq_true, if_false, List.append_assoc]

theorem indentationWidth_replicate (n : Nat) : indentationWidth (List.replicate n ' ') = n := by
  induction n with
  | zero => rfl
  | succ n ih =>
      rw [List.replicate_succ, indentationWidth, List.foldr_cons, ← indentationWidth, ih]
      exact Nat.add_comm 1 n

/-- Words with blanks between them do not start with a gap. -/
theorem spaced_starts (stand : ∀ word ∈ words, word.Stands) (nonempty : words ≠ []) :
    ∃ first others, spaced words = first :: others ∧ isGap first = false := by
  cases words with
  | nil => exact absurd rfl nonempty
  | cons word words =>
      obtain ⟨_, first, others, text, solid⟩ := (stand word List.mem_cons_self).starts
      refine ⟨first, others ++ behindBlanks words, ?_, solid⟩
      rw [spaced, text, List.cons_append]

/-- The indentation of a canonical line can be told from its words. -/
theorem canonicalLine_indented (stand : ∀ word ∈ words, word.Stands) (nonempty : words ≠ []) :
    (canonicalLine depth words).takeWhile isIndentation =
        List.replicate (Fault.indentStep * depth) ' ' ∧
      (canonicalLine depth words).dropWhile isIndentation = spaced words := by
  have blanks : ∀ c ∈ List.replicate (Fault.indentStep * depth) ' ', isIndentation c = true := by
    intro c member
    rw [(List.mem_replicate.mp member).2]
    rfl
  obtain ⟨first, others, starts, solid⟩ := spaced_starts stand nonempty
  rw [canonicalLine, if_neg nonempty]
  refine takeWhile_stops blanks ?_
  rw [starts]
  intro c next
  cases next
  exact (Bool.or_eq_false_iff.mp solid).1

theorem lineShift_canonicalLine (stand : ∀ word ∈ words, word.Stands) (nonempty : words ≠ [])
    (line : Nat) (levels : List Nat) :
    Scan.lineShift line levels (canonicalLine depth words) =
      Shift.ofWidth line levels (Fault.indentStep * depth : Nat) := by
  obtain ⟨width, body⟩ := @canonicalLine_indented depth words stand nonempty
  obtain ⟨first, others, starts, solid⟩ := spaced_starts stand nonempty
  have full : Scan.isBlankBody ((canonicalLine depth words).dropWhile isIndentation) = false := by
    rw [body, starts]
    exact Scan.isBlankBody_of_solid solid others
  rw [Scan.lineShift_of_full full, width, indentationWidth_replicate]

theorem dropWhile_canonicalLine (stand : ∀ word ∈ words, word.Stands) :
    (canonicalLine depth words).dropWhile isIndentation = spaced words := by
  rcases eq_or_ne words [] with rfl | nonempty
  · rfl
  · exact (canonicalLine_indented stand nonempty).2

theorem unbroken_canonicalLine (stand : ∀ word ∈ words, word.Stands) :
    '\n' ∉ canonicalLine depth words := by
  rw [canonicalLine]
  split
  · exact List.not_mem_nil
  · rw [List.mem_append, not_or]
    refine ⟨?_, (cuts_spaced stand).unbroken⟩
    intro member
    cases (List.mem_replicate.mp member).2

end Lines

/-! ## Scanning a canonical text -/

def Lexeme.inLine (line : Nat) (lexeme : Lexeme) : Token :=
  ⟨lexeme.kind, lexeme.text, ⟨line, 0⟩⟩

theorem Words.columnless_read (line column : Nat) (cs : List Char) :
    (read line column cs).tokens.map Token.columnless =
      ((read line column cs).tokens.map Token.lexeme).map (Lexeme.inLine line) := by
  rw [List.map_map]
  refine List.map_congr_left fun token member => ?_
  exact congrArg (fun place => Token.mk token.kind token.text ⟨place, 0⟩)
    (line_read line column cs token member)

/-- Only a blank line has no words. -/
theorem Words.tokens_eq_nil_iff {line column : Nat} {cs : List Char}
    (whole : (read line column cs).rest = []) (bare : '\r' ∉ cs)
    (body : ∀ c ∈ cs.head?, isIndentation c = false) :
    (read line column cs).tokens = [] ↔ Scan.isBlankBody cs = true := by
  constructor
  · intro wordless
    cases cs with
    | nil => rfl
    | cons c cs =>
        exfalso
        cases found : Piece.first? (c :: cs) with
        | none =>
            rw [read_none found] at whole
            cases whole
        | some piece =>
            rw [Cuts.read_piece found] at wordless
            cases word : piece.kind with
            | some kind =>
                rw [word] at wordless
                cases wordless
            | none =>
                have other : (c == '\r') = false :=
                  beq_eq_false_iff_ne.mpr fun same => bare (same ▸ List.mem_cons_self)
                have solid : isGap c = false := Bool.or_eq_false_iff.mpr ⟨body c rfl, other⟩
                rw [← Piece.isNone_kind found, word] at solid
                cases solid
  · intro blank
    rw [Scan.read_blank blank]

namespace Scan

variable {levels : List Nat} {line column : Nat} {here next : List Char}
  {below : List (List Char)} {tokens words tail : List Token}

/-- A line that fits does to equal steps what it does to the open levels. -/
theorem lineShift_ladder {wordsBelow : List Lexeme} (full : levels ≠ [])
    (proceeds : (lineShift line levels next).failure = none)
    (stand : ∀ word ∈ wordsBelow, word.Stands)
    (blank : wordsBelow = [] ↔ isBlankBody (next.dropWhile isIndentation) = true) :
    (lineShift line levels next).levels ≠ [] ∧
    lineShift line (ladder (depthOf levels))
        (canonicalLine (depthOf (lineShift line levels next).levels) wordsBelow) =
      ⟨(lineShift line levels next).tokens, ladder (depthOf (lineShift line levels next).levels),
        none⟩ ∧
    ∀ begun rest, canonicalFrom (depthOf levels) begun
        ((lineShift line levels next).tokens.map Token.lexeme ++ rest) =
      canonicalFrom (depthOf (lineShift line levels next).levels) begun rest := by
  rcases eq_or_ne wordsBelow [] with rfl | nonempty
  · rw [lineShift_blank (blank.mp rfl)]
    exact ⟨full, rfl, fun begun rest => rfl⟩
  · rw [lineShift_canonicalLine stand nonempty]
    rw [lineShift_of_full (Bool.eq_false_iff.mpr (mt blank.mpr nonempty)) line] at proceeds ⊢
    exact Shift.ofWidth_ladder full proceeds

/-- Behind the words of a line, the tokens of a text are written down as canonical lines, and
scanned again from there. -/
structure Rescans (levels : List Nat) (line : Nat) (words tail : List Token)
    (lines : List (List Char)) : Prop where
  unbroken : ∀ next ∈ lines, '\n' ∉ next
  ends : hasNewline (tail.map Token.lexeme) = true
  written : ∀ begun, canonicalFrom (depthOf levels) begun (tail.map Token.lexeme) =
    lines.flatMap fun next => '\n' :: next
  scanned : ∀ place, ∃ again, (run (ladder (depthOf levels)) line place
      (spaced (words.map Token.lexeme)) lines).Completes again ∧
    again.map Token.columnless = (words ++ tail).map Token.columnless

theorem ending_eq (levels : List Nat) (line column : Nat) :
    ending levels line column =
      List.replicate (depthOf levels) (Token.dedent line) ++ [Token.newline line column] := by
  rw [ending, List.map_const', List.length_drop, depthOf]

theorem columnless_ending (levels : List Nat) (line column : Nat) :
    (ending levels line column).map Token.columnless =
      List.replicate (depthOf levels) ⟨.dedent, "", ⟨line, 0⟩⟩ ++
        [⟨.newline, "\\n", ⟨line, 0⟩⟩] := by
  rw [ending_eq, List.map_append, List.map_replicate]
  rfl

section Spaced

variable (stand : ∀ token ∈ words, token.lexeme.Stands)
  (inLine : words.map Token.columnless = (words.map Token.lexeme).map (Lexeme.inLine line))
include stand

theorem cuts_words : Cuts (spaced (words.map Token.lexeme)) (words.map Token.lexeme) :=
  cuts_spaced (List.forall_mem_map.mpr stand)

theorem unread_spaced (place : Nat) :
    unreadFailure (Words.read line place (spaced (words.map Token.lexeme))).rest = none := by
  rw [(cuts_words stand).whole]
  rfl

include inLine

theorem columnless_spaced (place : Nat) :
    (Words.read line place (spaced (words.map Token.lexeme))).tokens.map Token.columnless =
      words.map Token.columnless := by
  rw [Words.columnless_read, (cuts_words stand).cut, inLine]

/-- The last line of a text. -/
theorem rescans_nil (levels : List Nat) (column : Nat) :
    Rescans levels line words (ending levels line column) [] := by
  refine ⟨nofun, ?_, ?_, ?_⟩
  · rw [ending_eq, List.map_append, hasNewline, List.any_append]
    exact Bool.or_true _
  · intro begun
    rw [ending_eq, List.map_append, List.map_replicate, canonicalFrom_dedents]
    rfl
  · intro place
    refine ⟨_, ⟨unread_spaced stand place, rfl⟩, ?_⟩
    rw [finished, run, List.map_append, List.map_append, columnless_spaced stand inLine,
      columnless_ending, columnless_ending, depthOf_ladder]

/-- A line that stands above others. -/
theorem rescans_cons {column : Nat} {nextWords : List Token} {lines : List (List Char)}
    (full : levels ≠ []) (proceeds : (lineShift (line + 1) levels next).failure = none)
    (nextStand : ∀ token ∈ nextWords, token.lexeme.Stands)
    (blank : nextWords = [] ↔ isBlankBody (next.dropWhile isIndentation) = true)
    (rescans : Rescans (lineShift (line + 1) levels next).levels (line + 1) nextWords tail lines) :
    Rescans levels line words
      (Token.newline line column :: ((lineShift (line + 1) levels next).tokens ++
        (nextWords ++ tail)))
      (canonicalLine (depthOf (lineShift (line + 1) levels next).levels)
        (nextWords.map Token.lexeme) :: lines) := by
  have lexemesStand : ∀ lexeme ∈ nextWords.map Token.lexeme, lexeme.Stands :=
    List.forall_mem_map.mpr nextStand
  have isWord : ∀ lexeme ∈ nextWords.map Token.lexeme, lexeme.kind.isLayout = false :=
    fun lexeme member => (lexemesStand lexeme member).starts.1
  obtain ⟨_, shifts, passes⟩ := lineShift_ladder full proceeds lexemesStand
    (List.map_eq_nil_iff.trans blank)
  have more : hasNewline ((lineShift (line + 1) levels next).tokens.map Token.lexeme ++
      (nextWords.map Token.lexeme ++ tail.map Token.lexeme)) = true := by
    have tailEnds := rescans.ends
    rw [hasNewline] at tailEnds
    rw [hasNewline, List.any_append, List.any_append, tailEnds, Bool.or_true, Bool.or_true]
  refine ⟨?_, ?_, ?_, ?_⟩
  · exact List.forall_mem_cons.mpr ⟨unbroken_canonicalLine lexemesStand, rescans.unbroken⟩
  · rfl
  · intro begun
    rw [List.map_cons, List.map_append, List.map_append, canonicalFrom_newline more, passes,
      canonicalFrom_line isWord rescans.written, List.flatMap_cons, List.cons_append]
  · intro place
    obtain ⟨again, completes, same⟩ := rescans.scanned
      (1 + ((canonicalLine (depthOf (lineShift (line + 1) levels next).levels)
        (nextWords.map Token.lexeme)).takeWhile isIndentation).length)
    refine ⟨_, completes_cons_iff.mpr ⟨unread_spaced stand place, by rw [shifts], _,
      fromLine_completes_iff.mpr ⟨again, ?_, rfl⟩, rfl⟩, ?_⟩
    · rw [shifts, dropWhile_canonicalLine lexemesStand]
      exact completes
    · rw [shifts]
      simp only [List.map_append, List.map_cons, columnless_spaced stand inLine, same]
      rfl

end Spaced

/-- The tokens behind the first line of a scan are written down as canonical lines. -/
theorem exists_rescans (unbroken : ∀ cs ∈ here :: below, '\n' ∉ cs)
    (bare : ∀ cs ∈ below, '\r' ∉ cs) (full : levels ≠ [])
    (completes : (run levels line column here below).Completes tokens) :
    ∃ tail lines, tokens = (Words.read line column here).tokens ++ tail ∧
      Rescans levels line (Words.read line column here).tokens tail lines := by
  induction below generalizing levels line column here tokens with
  | nil =>
      obtain ⟨hereUnbroken, _⟩ := List.forall_mem_cons.mp unbroken
      refine ⟨_, [], completes.finishes.symm, rescans_nil ?_ ?_ levels _⟩
      · exact Words.stands_read line column hereUnbroken
      · exact Words.columnless_read line column here
  | cons next below ih =>
      obtain ⟨hereUnbroken, othersUnbroken⟩ := List.forall_mem_cons.mp unbroken
      obtain ⟨nextBare, belowBare⟩ := List.forall_mem_cons.mp bare
      obtain ⟨whole, proceeds, later, laterCompletes, rfl⟩ := completes_cons_iff.mp completes
      obtain ⟨lowest, lowestCompletes, rfl⟩ := fromLine_completes_iff.mp laterCompletes
      obtain ⟨nextUnbroken, belowUnbroken⟩ := List.forall_mem_cons.mp othersUnbroken
      have bodyUnbroken : '\n' ∉ next.dropWhile isIndentation :=
        fun member => nextUnbroken (List.dropWhile_subset _ member)
      have bodyBare : '\r' ∉ next.dropWhile isIndentation :=
        fun member => nextBare (List.dropWhile_subset _ member)
      have nextStand := Words.stands_read (line + 1)
        (1 + (next.takeWhile isIndentation).length) bodyUnbroken
      have blank := Words.tokens_eq_nil_iff (whole_of_completes lowestCompletes) bodyBare
        (dropWhile_stops isIndentation next)
      obtain ⟨nextFull, _⟩ := lineShift_ladder full proceeds (List.forall_mem_map.mpr nextStand)
        (List.map_eq_nil_iff.trans blank)
      obtain ⟨tail, lines, rfl, rescans⟩ :=
        ih (List.forall_mem_cons.mpr ⟨bodyUnbroken, belowUnbroken⟩) belowBare nextFull
          lowestCompletes
      refine ⟨_, _, rfl, rescans_cons ?_ ?_ full proceeds nextStand blank rescans⟩
      · exact Words.stands_read line column hereUnbroken
      · exact Words.columnless_read line column here

end Scan

/-! ## Whole texts -/

theorem Text.lines_of_unbroken {line : List Char} (unbroken : '\n' ∉ line) :
    lines line = [line] := by
  induction line with
  | nil => rfl
  | cons c line ih =>
      obtain ⟨other, unbroken⟩ := not_or.mp (mt List.mem_cons.mpr unbroken)
      obtain ⟨first, below⟩ := List.cons.inj (ih unbroken)
      rw [lines_cons_of_ne (Ne.symm other), first, below]

theorem Text.lines_joinLines {first : List Char} {below : List (List Char)}
    (unbroken : ∀ line ∈ first :: below, '\n' ∉ line) :
    lines (joinLines first below) = first :: below := by
  induction below generalizing first with
  | nil =>
      rw [joinLines, List.flatMap_nil, List.append_nil]
      exact lines_of_unbroken (unbroken first List.mem_cons_self)
  | cons next below ih =>
      obtain ⟨firstUnbroken, others⟩ := List.forall_mem_cons.mp unbroken
      have joined : joinLines first (next :: below) = first ++ '\n' :: joinLines next below := by
        rw [joinLines, joinLines, List.flatMap_cons, List.cons_append]
      rw [joined, lines_append_newline firstUnbroken, ih others]

theorem canonicalLine_zero (words : List Lexeme) : canonicalLine 0 words = spaced words := by
  cases words with
  | nil => rfl
  | cons word words => rw [canonicalLine, if_neg (List.cons_ne_nil _ _)]; rfl

/-- The canonical text of the tokens of a text has the same tokens in the same lines. -/
theorem Scan.tokenize_canonicalText {file : Path} {text : String} {tokens : List Token}
    (bare : '\r' ∉ text.toList) (scanned : tokenize file text = .ok tokens) :
    ∃ again, tokenize file (canonicalText tokens) = .ok again ∧
      again.map Token.columnless = tokens.map Token.columnless := by
  have completes := tokenize_ok_iff.mp scanned
  have unbroken : ∀ line ∈ Text.lines text.toList, '\n' ∉ line :=
    fun line member newline => (Text.mem_of_mem_lines member newline).2 rfl
  have belowBare : ∀ line ∈ (Text.splitLines text.toList).2, '\r' ∉ line :=
    fun line member carriage =>
      bare (Text.mem_of_mem_lines (List.mem_cons_of_mem _ member) carriage).1
  obtain ⟨tail, lines, rfl, rescans⟩ :=
    exists_rescans unbroken belowBare (List.cons_ne_nil _ _) completes
  obtain ⟨again, againCompletes, same⟩ := rescans.scanned 1
  have stand := Words.stands_read 1 1 (unbroken _ List.mem_cons_self)
  have lexemesStand := List.forall_mem_map.mpr stand
  have isWord := fun lexeme member => (lexemesStand lexeme member).starts.1
  have written : (canonicalText ((Words.read 1 1 (Text.splitLines text.toList).1).tokens ++
      tail)).toList = Text.joinLines (spaced ((Words.read 1 1
        (Text.splitLines text.toList).1).tokens.map Token.lexeme)) lines := by
    rw [canonicalText, String.toList_ofList, List.map_append, Text.joinLines,
      ← canonicalLine_zero]
    exact canonicalFrom_line isWord rescans.written
  have split := Text.lines_joinLines
    (List.forall_mem_cons.mpr ⟨(cuts_spaced lexemesStand).unbroken, rescans.unbroken⟩)
  obtain ⟨first, others⟩ := List.cons.inj split
  refine ⟨again, tokenize_ok_iff.mpr ?_, same⟩
  rw [ofText, written, first, others]
  exact againCompletes

/-! ## Reading a canonical text -/

def Site.inLine (site : Site) : Site :=
  ⟨site.file, site.position.columnless, none⟩

theorem canonicalText_columnless {tokens again : List Token}
    (same : again.map Token.columnless = tokens.map Token.columnless) :
    canonicalText again = canonicalText tokens := by
  have lexemes (found : List Token) :
      (found.map Token.columnless).map Token.lexeme = found.map Token.lexeme := List.map_map
  rw [canonicalText, canonicalText, ← lexemes again, same, lexemes]

theorem alike_canonicalText {file : Path} {text canonical : String} {tokens again : List Token}
    (scanned : tokenize file text = .ok tokens)
    (rescanned : tokenize file canonical = .ok again)
    (same : again.map Token.columnless = tokens.map Token.columnless) :
    Alike file canonical text .columnless .columnless Site.inLine Site.inLine again tokens := by
  refine ⟨rescanned, scanned, Scan.ne_nil_of_tokenize rescanned, ?_, ?_, ?_, ?_⟩
  · exact congrArg Reading.singleEnds same
  · have last := congrArg List.getLast? same
    rwa [List.getLast?_map, List.getLast?_map] at last
  · intro one two agree
    have place : one.position.columnless = two.position.columnless := congrArg Token.position agree
    exact congrArg (Site.mk file · none) place
  · intro one two agree
    have line := congrArg (fun token : Token => token.position.line) agree
    exact line

/-- Canonical formatting is faithful. -/
theorem canonicalText_faithful {file : Path} {text : String} {tokens : List Token}
    (bare : '\r' ∉ text.toList) (scanned : tokenize file text = .ok tokens) :
    (∃ again, tokenize file (canonicalText tokens) = .ok again ∧
      again.map Token.columnless = tokens.map Token.columnless ∧
      canonicalText again = canonicalText tokens) ∧
    readMoved Position.columnless Site.inLine (readPuzzle file (canonicalText tokens)) =
      readMoved Position.columnless Site.inLine (readPuzzle file text) := by
  obtain ⟨again, rescanned, same⟩ := Scan.tokenize_canonicalText bare scanned
  exact ⟨⟨again, rescanned, same, canonicalText_columnless same⟩,
    (alike_canonicalText scanned rescanned same).readPuzzle⟩

def denseText : String :=
  "A=\x7bx1,y\x7d\nvar a:A[2]\n\na[0]!=y=>\n        a[1]=x1"

def denseTokens : List Token :=
  [⟨.identifier, "A", ⟨1, 1⟩⟩, ⟨.equals, "=", ⟨1, 2⟩⟩, ⟨.openBrace, "\x7b", ⟨1, 3⟩⟩,
   ⟨.identifier, "x1", ⟨1, 4⟩⟩, ⟨.comma, ",", ⟨1, 6⟩⟩, ⟨.identifier, "y", ⟨1, 7⟩⟩,
   ⟨.closeBrace, "\x7d", ⟨1, 8⟩⟩, .newline 1 9,
   ⟨.var, "var", ⟨2, 1⟩⟩, ⟨.identifier, "a", ⟨2, 5⟩⟩, ⟨.colon, ":", ⟨2, 6⟩⟩,
   ⟨.identifier, "A", ⟨2, 7⟩⟩, ⟨.openBracket, "[", ⟨2, 8⟩⟩, ⟨.number, "2", ⟨2, 9⟩⟩,
   ⟨.closeBracket, "]", ⟨2, 10⟩⟩, .newline 2 11, .newline 3 1,
   ⟨.identifier, "a", ⟨4, 1⟩⟩, ⟨.openBracket, "[", ⟨4, 2⟩⟩, ⟨.number, "0", ⟨4, 3⟩⟩,
   ⟨.closeBracket, "]", ⟨4, 4⟩⟩, ⟨.differs, "!=", ⟨4, 5⟩⟩, ⟨.identifier, "y", ⟨4, 7⟩⟩,
   ⟨.yields, "=>", ⟨4, 8⟩⟩, .newline 4 10, .indent 5,
   ⟨.identifier, "a", ⟨5, 9⟩⟩, ⟨.openBracket, "[", ⟨5, 10⟩⟩, ⟨.number, "1", ⟨5, 11⟩⟩,
   ⟨.closeBracket, "]", ⟨5, 12⟩⟩, ⟨.equals, "=", ⟨5, 13⟩⟩, ⟨.identifier, "x1", ⟨5, 14⟩⟩,
   .dedent 5, .newline 5 16]

theorem canonicalText_denseText :
    '\r' ∉ denseText.toList ∧
      tokenize (Path.ofString "dense.puzzle") denseText = .ok denseTokens ∧
      canonicalText denseTokens =
        "A = \x7b x1 , y \x7d\nvar a : A [ 2 ]\n\na [ 0 ] != y =>\n    a [ 1 ] = x1" ∧
      (∃ again, tokenize (Path.ofString "dense.puzzle") (canonicalText denseTokens) = .ok again ∧
        again.map Token.columnless = denseTokens.map Token.columnless ∧
        canonicalText again = canonicalText denseTokens) ∧
      readMoved Position.columnless Site.inLine
          (readPuzzle (Path.ofString "dense.puzzle") (canonicalText denseTokens)) =
        readMoved Position.columnless Site.inLine
          (readPuzzle (Path.ofString "dense.puzzle") denseText) := by
  have bare : '\r' ∉ denseText.toList := by decide +kernel
  have scanned : tokenize (Path.ofString "dense.puzzle") denseText = .ok denseTokens := by
    decide +kernel
  exact ⟨bare, scanned, by decide +kernel, canonicalText_faithful bare scanned⟩

end LogicPuzzle
