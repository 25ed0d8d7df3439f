import LogicPuzzle.Proofs.Numerals
import LogicPuzzle.Proofs.Rendering
import LogicPuzzle.Scanner.Words

/-!
# Lexemes

A line is cut into the same lexemes wherever it stands.  The lexemes of a phrase
come first in a line that starts with the text of the phrase, as long as what
follows does not prolong its last word.
-/

namespace LogicPuzzle

structure Lexeme where
  kind : Kind
  text : String
  deriving DecidableEq, Repr

def Token.lexeme (token : Token) : Lexeme :=
  ⟨token.kind, token.text⟩

/-! ## Characters -/

/-- A decimal digit starts a number and nothing else. -/
theorem digit_starts {c : Char} (digit : c.isDigit = true) :
    Text.isDigit c = true ∧ Text.isWordStart c = false ∧ isGap c = false ∧ markKind? c = none ∧
      c ≠ '\n' ∧ c ≠ '=' ∧ c ≠ '!' :=
  of_isDigit (p := fun c => Text.isDigit c = true ∧ Text.isWordStart c = false ∧
    isGap c = false ∧ markKind? c = none ∧ c ≠ '\n' ∧ c ≠ '=' ∧ c ≠ '!') (by decide) digit

/-- A character that starts a word starts nothing else. -/
theorem wordStart_starts {c : Char} (start : Text.isWordStart c = true) :
    isGap c = false ∧ markKind? c = none ∧ c ≠ '=' ∧ c ≠ '!' := by
  have other : ∀ d : Char, Text.isWordStart d = false → c ≠ d := by
    rintro d no rfl
    rw [start] at no
    cases no
  refine ⟨?_, ?_, other _ (by decide), other _ (by decide)⟩
  · simp only [isGap, Bool.or_eq_false_iff, beq_eq_false_iff_ne]
    exact ⟨⟨other _ (by decide), other _ (by decide)⟩, other _ (by decide)⟩
  · unfold markKind?
    split
    all_goals first | exact absurd rfl (other _ (by decide)) | rfl

theorem first?_cons {c : Char} {rest : List Char} (noEquals : c ≠ '=') (noBang : c ≠ '!') :
    Piece.first? (c :: rest) = Piece.startingWith? c rest := by
  unfold Piece.first?
  split
  · contradiction
  · next same =>
      cases same
      exact absurd rfl noEquals
  · next same =>
      cases same
      exact absurd rfl noBang
  · next same =>
      cases same
      rfl

/-- What follows does not prolong a word. -/
def Stops (cs : List Char) : Prop :=
  ∀ c ∈ cs.head?, Text.isWordPart c = false

theorem stops_nil : Stops [] := by
  intro c none
  cases none

theorem takeWhile_stops {p : Char → Bool} {word rest : List Char}
    (inside : ∀ c ∈ word, p c = true) (stops : ∀ c ∈ rest.head?, p c = false) :
    (word ++ rest).takeWhile p = word ∧ (word ++ rest).dropWhile p = rest := by
  rw [List.takeWhile_append_of_pos inside, List.dropWhile_append_of_pos inside]
  cases rest with
  | nil => simp
  | cons c rest =>
      have stop := stops c rfl
      rw [List.takeWhile_cons_of_neg (by simp [stop]), List.dropWhile_cons_of_neg (by simp [stop])]
      simp

/-! ## Cutting a line -/

/-- A line is cut into lexemes, wherever it stands. -/
structure Cuts (cs : List Char) (lexemes : List Lexeme) : Prop where
  unbroken : '\n' ∉ cs
  whole : ∀ line column, (Words.read line column cs).rest = []
  cut : ∀ line column, (Words.read line column cs).tokens.map Token.lexeme = lexemes

namespace Cuts

variable {cs text rest : List Char} {lexemes : List Lexeme}

theorem nil : Cuts [] [] := by
  have done : ∀ line column, Words.read line column [] = ⟨[], column, []⟩ := by
    intro line column
    rw [Words.read]
    rfl
  constructor
  · exact List.not_mem_nil
  · intro line column
    rw [done]
  · intro line column
    rw [done]
    rfl

theorem unbroken_piece {piece : Piece} (found : Piece.first? cs = some piece)
    (unbroken : '\n' ∉ piece.text) (later : Cuts piece.rest lexemes) : '\n' ∉ cs := by
  rw [← (Piece.first?_text_append_rest found).1, List.mem_append, not_or]
  exact ⟨unbroken, later.unbroken⟩

theorem read_piece {piece : Piece} (found : Piece.first? cs = some piece) (line column : Nat) :
    Words.read line column cs =
      match piece.kind with
      | none => Words.read line (column + piece.text.length) piece.rest
      | some kind =>
          { Words.read line (column + piece.text.length) piece.rest with
            tokens := ⟨kind, String.ofList piece.text, ⟨line, column⟩⟩ ::
              (Words.read line (column + piece.text.length) piece.rest).tokens } := by
  rw [Words.read]
  split
  · next none =>
      rw [found] at none
      cases none
  · next other same =>
      rw [found] at same
      cases same
      rfl

/-- A piece that is a word gives a lexeme. -/
theorem word {kind : Kind} (found : Piece.first? cs = some ⟨some kind, text, rest⟩)
    (unbroken : '\n' ∉ text) (later : Cuts rest lexemes) :
    Cuts cs (⟨kind, String.ofList text⟩ :: lexemes) := by
  refine ⟨unbroken_piece found unbroken later, ?_, ?_⟩
  · intro line column
    rw [read_piece found]
    exact later.whole _ _
  · intro line column
    rw [read_piece found]
    exact congrArg (_ :: ·) (later.cut _ _)

/-- A piece that is a gap gives none. -/
theorem gap (found : Piece.first? cs = some ⟨none, text, rest⟩) (unbroken : '\n' ∉ text)
    (later : Cuts rest lexemes) : Cuts cs lexemes := by
  refine ⟨unbroken_piece found unbroken later, ?_, ?_⟩
  · intro line column
    rw [read_piece found]
    exact later.whole _ _
  · intro line column
    rw [read_piece found]
    exact later.cut _ _

theorem space (later : Cuts rest lexemes) : Cuts (' ' :: rest) lexemes := by
  have found : Piece.first? (' ' :: rest) = some ⟨none, [' '], rest⟩ := rfl
  exact gap found (by decide) later

/-- A mark of one character. -/
theorem mark {c : Char} {kind : Kind}
    (found : Piece.first? (c :: rest) = some ⟨some kind, [c], rest⟩)
    (later : Cuts rest lexemes) : Cuts (c :: rest) (⟨kind, String.ofList [c]⟩ :: lexemes) := by
  refine word found ?_ later
  intro newline
  -- A newline starts no piece.
  have nothing : Piece.first? ('\n' :: rest) = none := rfl
  rw [← List.mem_singleton.mp newline, nothing] at found
  cases found

/-- A word of letters, with its kind. -/
theorem letters {c : Char} {others : List Char} (start : Text.isWordStart c = true)
    (parts : ∀ d ∈ others, Text.isWordPart d = true) (stops : Stops rest)
    (later : Cuts rest lexemes) :
    Cuts (c :: (others ++ rest))
      (⟨Kind.ofWord (c :: others), String.ofList (c :: others)⟩ :: lexemes) := by
  obtain ⟨noGap, noMark, noEquals, noBang⟩ := wordStart_starts start
  obtain ⟨taken, dropped⟩ := takeWhile_stops parts stops
  have found : Piece.first? (c :: (others ++ rest)) =
      some ⟨some (Kind.ofWord (c :: others)), c :: others, rest⟩ := by
    rw [first?_cons noEquals noBang, Piece.startingWith?, noGap, noMark]
    simp only [Bool.false_eq_true, if_false, start, if_true, taken, dropped]
  refine word found ?_ later
  intro newline
  have part : Text.isWordPart '\n' = true := by
    rcases List.mem_cons.mp newline with same | inside
    · rw [same]
      exact Text.isWordPart_of_isWordStart start
    · exact parts _ inside
  exact absurd part (by decide)

/-- A run of decimal digits is a number. -/
theorem digits {digits : List Char} (nonempty : digits ≠ [])
    (decimal : ∀ d ∈ digits, d.isDigit = true) (stops : ∀ c ∈ rest.head?, Text.isDigit c = false)
    (later : Cuts rest lexemes) :
    Cuts (digits ++ rest) (⟨.number, String.ofList digits⟩ :: lexemes) := by
  cases digits with
  | nil => exact absurd rfl nonempty
  | cons c others =>
      obtain ⟨first, more⟩ := List.forall_mem_cons.mp decimal
      obtain ⟨isDigit, noWord, noGap, noMark, _, noEquals, noBang⟩ := digit_starts first
      obtain ⟨taken, dropped⟩ :=
        takeWhile_stops (fun d member => (digit_starts (more d member)).1) stops
      have found : Piece.first? (c :: (others ++ rest)) =
          some ⟨some .number, c :: others, rest⟩ := by
        rw [first?_cons noEquals noBang, Piece.startingWith?, noGap, noMark]
        simp only [Bool.false_eq_true, if_false, noWord, isDigit, if_true, taken, dropped]
      refine word found ?_ later
      intro newline
      exact (digit_starts (decimal _ newline)).2.2.2.2.1 rfl

end Cuts

/-! ## Names and numbers -/

theorem isName_cons {name : String} (isName : isName name = true) :
    ∃ first others, name.toList = first :: others ∧ Text.isWordStart first = true ∧
      (∀ c ∈ others, Text.isWordPart c = true) ∧ Kind.ofWord (first :: others) = .identifier := by
  rw [LogicPuzzle.isName] at isName
  split at isName
  · cases isName
  · next first others same =>
      simp only [Bool.and_eq_true, bne_iff_ne, List.all_eq_true] at isName
      rcases isName with ⟨⟨⟨start, parts⟩, noVar⟩, noUnique⟩
      refine ⟨first, others, same, start, parts, ?_⟩
      rw [Kind.ofWord, ← same, if_neg, if_neg]
      · intro keyword
        exact noUnique (String.toList_inj.mp keyword)
      · intro keyword
        exact noVar (String.toList_inj.mp keyword)

/-- A number that can be written is written in decimal digits, not too many of them. -/
theorem isWritableNumber_toDigits {n : Int} (writable : isWritableNumber n = true) :
    ∃ natural : Nat, n = natural ∧ (toString n).toList = Nat.toDigits 10 natural ∧
      (Nat.toDigits 10 natural).length ≤ Numeral.digitLimit := by
  simp only [isWritableNumber, Bool.and_eq_true, decide_eq_true_eq, Bool.not_eq_true',
    Numeral.tooLong, decide_eq_false_iff_not, Nat.not_lt] at writable
  obtain ⟨natural, rfl⟩ := Int.eq_ofNat_of_zero_le writable.1
  refine ⟨natural, rfl, ?_, writable.2⟩
  change (toString natural).toList = _
  rw [Nat.toString_eq_repr, Nat.toList_repr]

namespace Cuts

variable {rest : List Char} {lexemes : List Lexeme}

theorem name {name : String} (isName : isName name = true) (stops : Stops rest)
    (later : Cuts rest lexemes) :
    Cuts (name.toList ++ rest) (⟨.identifier, name⟩ :: lexemes) := by
  obtain ⟨first, others, same, start, parts, kind⟩ := isName_cons isName
  have cuts := letters start parts stops later
  rw [kind, ← same, String.ofList_toList] at cuts
  rwa [same]

theorem number {n : Int} (writable : isWritableNumber n = true)
    (stops : ∀ c ∈ rest.head?, Text.isDigit c = false) (later : Cuts rest lexemes) :
    Cuts ((toString n).toList ++ rest) (⟨.number, toString n⟩ :: lexemes) := by
  obtain ⟨natural, rfl, written, _⟩ := isWritableNumber_toDigits writable
  have cuts := digits (Nat.toDigits_ne_nil (n := natural) (b := 10))
    (fun c member => Nat.isDigit_of_mem_toDigits (by decide) (by decide) member) stops later
  rwa [← written, String.ofList_toList] at cuts

end Cuts

/-! ## Phrases -/

def Selector.lexemes : Selector → List Lexeme
  | .index n => [⟨.openBracket, "["⟩, ⟨.number, toString n⟩, ⟨.closeBracket, "]"⟩]
  | .field name => [⟨.dot, "."⟩, ⟨.identifier, name⟩]

def Reference.lexemes (reference : Reference) : List Lexeme :=
  ⟨.identifier, reference.name⟩ :: reference.selectors.flatMap Selector.lexemes

def Comparison.lexemes (comparison : Comparison) : List Lexeme :=
  comparison.left.lexemes ++
    ⟨if comparison.negated then .differs else .equals, comparison.operator⟩ ::
      comparison.right.lexemes

def commas (pieces : List (List Lexeme)) : List Lexeme :=
  List.intercalate [⟨.comma, ","⟩] pieces

def Entry.lexemes (entry : Entry) : List Lexeme :=
  (if entry.unique then [⟨.unique, "unique"⟩] else []) ++
    [⟨.identifier, entry.type⟩, ⟨.identifier, entry.name⟩]

def Domain.lexemes (domain : Domain) : List Lexeme :=
  ⟨.identifier, domain.name⟩ :: ⟨.equals, "="⟩ :: ⟨.openBrace, "\x7b"⟩ ::
    (commas (domain.labels.map fun label => [⟨.identifier, label⟩]) ++ [⟨.closeBrace, "\x7d"⟩])

def Schema.lexemes (schema : Schema) : List Lexeme :=
  ⟨.identifier, schema.name⟩ :: ⟨.equals, "="⟩ :: ⟨.openBracket, "["⟩ ::
    (commas (schema.entries.map Entry.lexemes) ++ [⟨.closeBracket, "]"⟩])

def sizeLexemes : Option Int → List Lexeme
  | some size => [⟨.openBracket, "["⟩, ⟨.number, toString size⟩, ⟨.closeBracket, "]"⟩]
  | none => []

def Declaration.lexemes (declaration : Declaration) : List Lexeme :=
  ⟨.var, "var"⟩ :: ⟨.identifier, declaration.name⟩ :: ⟨.colon, ":"⟩ ::
    ⟨.identifier, declaration.type⟩ :: sizeLexemes declaration.size

namespace Cuts

variable {rest : List Char} {lexemes : List Lexeme}

theorem selector {selector : Selector} (writable : selector.writable = true) (stops : Stops rest)
    (later : Cuts rest lexemes) :
    Cuts (selector.written.toList ++ rest) (selector.lexemes ++ lexemes) := by
  cases selector with
  | index n =>
      have closed : Cuts (']' :: rest) (⟨.closeBracket, "]"⟩ :: lexemes) :=
        mark rfl later
      have counted := number writable (by simp; decide) closed
      simp only [Selector.written, String.toList_append, List.append_assoc]
      exact mark rfl counted
  | field name =>
      have named := Cuts.name writable stops later
      simp only [Selector.written, String.toList_append, List.append_assoc]
      exact mark rfl named

theorem stops_selectors {selectors : List Selector} (stops : Stops rest) :
    Stops (selectors.flatMap (fun selector => selector.written.toList) ++ rest) := by
  cases selectors with
  | nil => exact stops
  | cons selector others =>
      cases selector <;> simp [Stops, Selector.written, String.toList_append] <;> decide

theorem selectors {selectors : List Selector}
    (writable : ∀ selector ∈ selectors, selector.writable = true) (stops : Stops rest)
    (later : Cuts rest lexemes) :
    Cuts (selectors.flatMap (fun selector => selector.written.toList) ++ rest)
      (selectors.flatMap Selector.lexemes ++ lexemes) := by
  induction selectors with
  | nil => exact later
  | cons first others ih =>
      obtain ⟨firstWritable, othersWritable⟩ := List.forall_mem_cons.mp writable
      rw [List.flatMap_cons, List.flatMap_cons, List.append_assoc, List.append_assoc]
      exact selector firstWritable (stops_selectors stops) (ih othersWritable)

theorem reference {reference : Reference} (writable : reference.writable = true)
    (stops : Stops rest) (later : Cuts rest lexemes) :
    Cuts (reference.written.toList ++ rest) (reference.lexemes ++ lexemes) := by
  simp only [Reference.writable, Bool.and_eq_true, List.all_eq_true] at writable
  have chain := selectors writable.2 stops later
  rw [Reference.written, String.toList_append, String.toList_join, List.flatMap_map,
    List.append_assoc]
  exact name writable.1 (stops_selectors stops) chain

theorem stops_space : Stops (' ' :: rest) := by
  rintro c same
  cases same
  decide

theorem comparison {comparison : Comparison} (writable : comparison.writable = true)
    (stops : Stops rest) (later : Cuts rest lexemes) :
    Cuts (comparison.written.toList ++ rest) (comparison.lexemes ++ lexemes) := by
  rw [Comparison.writable, Bool.and_eq_true] at writable
  have right := space (reference writable.2 stops later)
  rw [Comparison.written, Comparison.lexemes, Comparison.operator]
  simp only [String.toList_append, List.append_assoc]
  refine reference writable.1 stops_space (space ?_)
  cases comparison.negated with
  | false => exact mark rfl right
  | true => exact word rfl (by decide) right

/-- A list with commas, item by item. -/
theorem commaList {α : Type} {written : α → String} {lexemesOf : α → List Lexeme}
    {items : List α} (nonempty : items ≠ [])
    (each : ∀ item ∈ items, ∀ rest lexemes, Stops rest → Cuts rest lexemes →
      Cuts ((written item).toList ++ rest) (lexemesOf item ++ lexemes))
    (stops : Stops rest) (later : Cuts rest lexemes) :
    Cuts ((", ".intercalate (items.map written)).toList ++ rest)
      (commas (items.map lexemesOf) ++ lexemes) := by
  rw [String.toList_intercalate, List.map_map, commas]
  induction items with
  | nil => exact absurd rfl nonempty
  | cons first others ih =>
      obtain ⟨firstCuts, othersCut⟩ := List.forall_mem_cons.mp each
      cases others with
      | nil =>
          simp only [List.map_cons, List.map_nil, List.intercalate_singleton]
          exact firstCuts _ _ stops later
      | cons second others =>
          have more := space (ih (List.cons_ne_nil _ _) othersCut)
          simp only [List.map_cons, List.intercalate_cons_cons, List.append_assoc] at more ⊢
          refine firstCuts _ _ ?_ (mark rfl more)
          rintro c same
          cases same
          decide

/-! ## Lines -/

theorem entry {entry : Entry} (types : isName entry.type = true) (names : isName entry.name = true)
    (stops : Stops rest) (later : Cuts rest lexemes) :
    Cuts (entry.written.toList ++ rest) (entry.lexemes ++ lexemes) := by
  have pair := name types stops_space (space (name names stops later))
  rw [Entry.written, Entry.lexemes]
  simp only [String.toList_append, List.append_assoc]
  cases entry.unique with
  | false => exact pair
  | true =>
      have marked : Cuts ('u' :: (['n', 'i', 'q', 'u', 'e'] ++ ' ' :: _))
          (⟨.unique, "unique"⟩ :: _) :=
        letters rfl (List.all_eq_true.mp rfl) stops_space (space pair)
      exact marked

theorem stops_mark {c : Char} (other : Text.isWordPart c = false) : Stops (c :: rest) := by
  rintro d same
  cases same
  exact other

theorem domain {domain : Domain} (names : isName domain.name = true)
    (nonempty : domain.labels ≠ []) (labels : ∀ label ∈ domain.labels, isName label = true) :
    Cuts domain.written.toList domain.lexemes := by
  have closed : Cuts ['\x7d'] [⟨.closeBrace, "\x7d"⟩] := mark rfl nil
  have listed : Cuts ((", ".intercalate (domain.labels.map id)).toList ++ ['\x7d'])
      (commas (domain.labels.map fun label => [⟨.identifier, label⟩]) ++
        [⟨.closeBrace, "\x7d"⟩]) :=
    commaList nonempty (fun label member _ _ => name (labels label member))
      (stops_mark (by decide)) closed
  rw [List.map_id] at listed
  have opened := space (mark (c := '\x7b') rfl listed)
  have defined := space (mark (c := '=') rfl opened)
  rw [Domain.written]
  simp only [String.toList_append, List.append_assoc]
  exact name names stops_space defined

theorem schema {schema : Schema} (names : isName schema.name = true)
    (nonempty : schema.entries ≠ [])
    (entries : ∀ entry ∈ schema.entries, isName entry.type = true ∧ isName entry.name = true) :
    Cuts schema.written.toList schema.lexemes := by
  have closed : Cuts [']'] [⟨.closeBracket, "]"⟩] := mark rfl nil
  have listed := commaList nonempty
    (fun item member _ _ => entry (entries item member).1 (entries item member).2)
    (stops_mark (by decide)) closed
  have opened := space (mark (c := '[') rfl listed)
  have defined := space (mark (c := '=') rfl opened)
  rw [Schema.written]
  simp only [String.toList_append, List.append_assoc]
  exact name names stops_space defined

theorem declaration {declaration : Declaration} (names : isName declaration.name = true)
    (types : isName declaration.type = true)
    (sized : ∀ size ∈ declaration.size, isWritableNumber size = true) :
    Cuts declaration.written.toList declaration.lexemes := by
  have typed : Cuts (declaration.type.toList ++ (match declaration.size with
      | some size => "[" ++ toString size ++ "]"
      | none => "").toList) (⟨.identifier, declaration.type⟩ :: sizeLexemes declaration.size) := by
    cases given : declaration.size with
    | none => exact name types stops_nil nil
    | some size =>
        have closed : Cuts [']'] [⟨.closeBracket, "]"⟩] := mark rfl nil
        have counted := number (sized size given) (by simp; decide) closed
        simp only [String.toList_append, List.append_assoc]
        exact name types (stops_mark (by decide)) (mark rfl counted)
  have separated := space (mark (c := ':') rfl (space typed))
  have named := space (name names stops_space separated)
  rw [Declaration.written]
  simp only [String.toList_append, List.append_assoc]
  have declared : Cuts ('v' :: (['a', 'r'] ++ ' ' :: _)) (⟨.var, "var"⟩ :: _) :=
    letters rfl (List.all_eq_true.mp rfl) stops_space named
  exact declared

/-- A guard before a block. -/
theorem guard {guard : Comparison} (writable : guard.writable = true) :
    Cuts (guard.written ++ " =>").toList (guard.lexemes ++ [⟨.yields, "=>"⟩]) := by
  have arrow : Cuts ['=', '>'] [⟨.yields, "=>"⟩] := word rfl (by decide) nil
  rw [String.toList_append]
  exact comparison writable stops_space (space arrow)

end Cuts

end LogicPuzzle
