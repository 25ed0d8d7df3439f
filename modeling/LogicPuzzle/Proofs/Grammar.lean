import LogicPuzzle.Reading.Statement

/-!
# The grammar of puzzles

Which tokens spell a puzzle is stated by their kinds alone, production by
production, together with what they spell.  A number that cannot be read and a
domain with a repeated label are spelled like any other; that they are refused
is a condition of its own.
-/

namespace LogicPuzzle

def Token.value (token : Token) : Int :=
  (Numeral.read? token.text.toList).getD 0

def NumbersRead (tokens : List Token) : Prop :=
  ∀ token ∈ tokens, token.kind = .number → (Numeral.read? token.text.toList).isSome

namespace Grammar

variable {α : Type}

def Gap (tokens : List Token) : Prop :=
  ∀ token ∈ tokens, token.kind = .newline

def LineEnd (tokens : List Token) : Prop :=
  tokens ≠ [] ∧ Gap tokens

def Comma (tokens : List Token) : Prop :=
  ∃ comma : Token, comma.kind = .comma ∧ tokens = [comma]

def Identifier (token : Token) (tokens : List Token) : Prop :=
  token.kind = .identifier ∧ tokens = [token]

inductive Sequence (item : α → List Token → Prop) : List α → List Token → Prop where
  | nil : Sequence item [] []
  | cons {value : α} {values : List α} {used rest : List Token} (first : item value used)
      (others : Sequence item values rest) : Sequence item (value :: values) (used ++ rest)

inductive Separated (separator : List Token → Prop) (item : α → List Token → Prop) :
    List α → List Token → Prop where
  | one {value : α} {used : List Token} (only : item value used) :
      Separated separator item [value] used
  | cons {value : α} {values : List α} {used between rest : List Token} (first : item value used)
      (separates : separator between) (others : Separated separator item values rest) :
      Separated separator item (value :: values) (used ++ (between ++ rest))

end Grammar

open Grammar

/-- `'[' NUMBER ']'` or `'.' IDENT`. -/
inductive Selector.SpelledBy : Selector → List Token → Prop where
  | index {opening number closing : Token} (opens : opening.kind = .openBracket)
      (counts : number.kind = .number) (closes : closing.kind = .closeBracket) :
      SpelledBy (.index number.value) [opening, number, closing]
  | field {dot name : Token} (selects : dot.kind = .dot) (names : name.kind = .identifier) :
      SpelledBy (.field name.text) [dot, name]

/-- `IDENT Selector*`. -/
inductive Reference.SpelledBy : Reference → List Token → Prop where
  | intro {name : Token} {selectors : List Selector} {used : List Token}
      (names : name.kind = .identifier) (selects : Sequence Selector.SpelledBy selectors used) :
      SpelledBy ⟨name.text, selectors, name.position⟩ (name :: used)

/-- `Reference ('=' | '!=') Reference`. -/
inductive Comparison.SpelledBy : Comparison → List Token → Prop where
  | intro {left right : Reference} {negated : Bool} {operator : Token}
      {leftUsed rightUsed : List Token} (leftSpelled : left.SpelledBy leftUsed)
      (compares : operator.kind = if negated then .differs else .equals)
      (rightSpelled : right.SpelledBy rightUsed) :
      SpelledBy ⟨left, negated, right⟩ (leftUsed ++ operator :: rightUsed)

/-- `['unique'] IDENT IDENT`. -/
inductive Entry.SpelledBy : Entry → List Token → Prop where
  | plain {type name : Token} (types : type.kind = .identifier)
      (names : name.kind = .identifier) : SpelledBy ⟨type.text, name.text, false⟩ [type, name]
  | unique {keyword type name : Token} (marks : keyword.kind = .unique)
      (types : type.kind = .identifier) (names : name.kind = .identifier) :
      SpelledBy ⟨type.text, name.text, true⟩ [keyword, type, name]

namespace Grammar

/-- `['[' NUMBER ']']`. -/
inductive Size : Option Int → List Token → Prop where
  | absent : Size none []
  | given {opening number closing : Token} (opens : opening.kind = .openBracket)
      (counts : number.kind = .number) (closes : closing.kind = .closeBracket) :
      Size (some number.value) [opening, number, closing]

/-- `NEWLINE+ INDENT NEWLINE* Comparison (NEWLINE+ Comparison)* NEWLINE* DEDENT`. -/
inductive Block : List Comparison → List Token → Prop where
  | intro {consequents : List Comparison} {indent dedent : Token}
      {lines before used after : List Token} (ends : LineEnd lines)
      (indents : indent.kind = .indent) (blankBefore : Gap before)
      (spelled : Separated LineEnd Comparison.SpelledBy consequents used)
      (blankAfter : Gap after) (dedents : dedent.kind = .dedent) :
      Block consequents (lines ++ indent :: (before ++ (used ++ (after ++ [dedent]))))

end Grammar

/-- One statement with the end of its last line.  A rule does not start like a definition. -/
inductive Statement.SpelledBy : Statement → List Token → Prop where
  | domain {name equals opening closing : Token} {labels used lines : List Token}
      (names : name.kind = .identifier) (defines : equals.kind = .equals)
      (opens : opening.kind = .openBrace) (lists : Separated Comma Identifier labels used)
      (closes : closing.kind = .closeBrace) (ends : LineEnd lines) :
      SpelledBy (.definition (.domain ⟨name.text, labels.map (·.text)⟩))
        (name :: equals :: opening :: (used ++ closing :: lines))
  | schema {name equals opening closing : Token} {entries : List Entry} {used lines : List Token}
      (names : name.kind = .identifier) (defines : equals.kind = .equals)
      (opens : opening.kind = .openBracket)
      (lists : Separated Comma Entry.SpelledBy entries used)
      (closes : closing.kind = .closeBracket) (ends : LineEnd lines) :
      SpelledBy (.definition (.schema ⟨name.text, entries⟩))
        (name :: equals :: opening :: (used ++ closing :: lines))
  | array {keyword name colon type : Token} {size : Option Int} {used lines : List Token}
      (declares : keyword.kind = .var) (names : name.kind = .identifier)
      (separates : colon.kind = .colon) (types : type.kind = .identifier)
      (sized : Grammar.Size size used) (ends : LineEnd lines) :
      SpelledBy (.declaration ⟨name.text, type.text, size, keyword.position⟩)
        (keyword :: name :: colon :: type :: (used ++ lines))
  | plain {guard : Comparison} {used lines : List Token} (spelled : guard.SpelledBy used)
      (undefining : Reading.startsDefinition used = false) (ends : LineEnd lines) :
      SpelledBy (.rule ⟨guard, []⟩) (used ++ lines)
  | block {guard : Comparison} {consequents : List Comparison} {arrow : Token}
      {used rest : List Token} (spelled : guard.SpelledBy used)
      (undefining : Reading.startsDefinition used = false) (yields : arrow.kind = .yields)
      (follows : Grammar.Block consequents rest) :
      SpelledBy (.rule ⟨guard, consequents⟩) (used ++ arrow :: rest)

namespace Grammar

/-- `Statement NEWLINE*`. -/
def StatementGap (statement : Statement) (tokens : List Token) : Prop :=
  ∃ used gap, statement.SpelledBy used ∧ Gap gap ∧ tokens = used ++ gap

/-- `NEWLINE* (Statement NEWLINE*)*`. -/
def Program (statements : List Statement) (tokens : List Token) : Prop :=
  ∃ gap rest, Gap gap ∧ Sequence StatementGap statements rest ∧ tokens = gap ++ rest

end Grammar

/-- No domain that a statement defines repeats a label. -/
def Statement.LabelsDistinct (statement : Statement) : Prop :=
  ∀ domain ∈ statement.domain?, domain.labels.Nodup

end LogicPuzzle
