import LogicPuzzle.Reading.Statement
import LogicPuzzle.Text.Word

/-!
# Rendered puzzles

A puzzle is rendered as a text with its definitions first, then its declarations
and its rules.  A text says less than a puzzle can hold: names must be words that
are no keywords, numbers must have no sign, and no guard may look like a
definition.  It does not say where the parts of the puzzle have been read.
-/

namespace LogicPuzzle

/-! ## Texts -/

def Entry.written (entry : Entry) : String :=
  (if entry.unique then "unique " else "") ++ entry.type ++ " " ++ entry.name

def Domain.written (domain : Domain) : String :=
  domain.name ++ " = \x7b" ++ ", ".intercalate domain.labels ++ "\x7d"

def Schema.written (schema : Schema) : String :=
  schema.name ++ " = [" ++ ", ".intercalate (schema.entries.map Entry.written) ++ "]"

def Declaration.written (declaration : Declaration) : String :=
  "var " ++ declaration.name ++ " : " ++ declaration.type ++
    match declaration.size with
    | some size => "[" ++ toString size ++ "]"
    | none => ""

/-- The lines of a rule: the guard, and the consequents in a block below it. -/
def Rule.lines (rule : Rule) : List String :=
  match rule.consequents with
  | [] => [rule.guard.written]
  | consequents =>
      (rule.guard.written ++ " =>") ::
        consequents.map fun consequent => "    " ++ consequent.written

def Statement.lines : Statement → List String
  | .definition (.domain found) => [found.written]
  | .definition (.schema found) => [found.written]
  | .declaration found => [found.written]
  | .rule found => found.lines

namespace Puzzle

def statements (puzzle : Puzzle) : List Statement :=
  puzzle.domains.map (fun domain => .definition (.domain domain)) ++
    puzzle.schemas.map (fun schema => .definition (.schema schema)) ++
      puzzle.declarations.map .declaration ++ puzzle.rules.map .rule

def rendered (puzzle : Puzzle) : String :=
  String.join ((puzzle.statements.flatMap Statement.lines).map (· ++ "\n"))

theorem ofStatements_statements (puzzle : Puzzle) :
    ofStatements puzzle.file puzzle.statements = puzzle := by
  unfold ofStatements statements
  have none : ∀ {α β : Type} (elements : List α),
      elements.filterMap (fun _ => (none : Option β)) = [] :=
    fun _ => List.filterMap_eq_nil_iff.mpr fun _ _ => rfl
  simp only [List.filterMap_append, List.filterMap_map, Function.comp_def, Statement.domain?,
    Statement.schema?, Statement.declaration?, Statement.rule?, List.filterMap_some, none,
    List.append_nil, List.nil_append]

end Puzzle

/-! ## What can be written -/

/-- A word that is no keyword. -/
def isName (name : String) : Bool :=
  match name.toList with
  | [] => false
  | first :: rest =>
      Text.isWordStart first && rest.all Text.isWordPart && name != "var" && name != "unique"

namespace Selector

def writable : Selector → Bool
  | .index n => isWritableNumber n
  | .field name => isName name

end Selector

namespace Reference

def writable (reference : Reference) : Bool :=
  isName reference.name && reference.selectors.all Selector.writable

end Reference

namespace Comparison

def writable (comparison : Comparison) : Bool :=
  comparison.left.writable && comparison.right.writable

/-- A bare name that is compared for equality, as in a definition. -/
def looksDefining (comparison : Comparison) : Bool :=
  comparison.left.selectors.isEmpty && !comparison.negated

end Comparison

namespace Statement

def Writable : Statement → Prop
  | .definition (.domain found) =>
      isName found.name ∧ found.labels ≠ [] ∧ found.labels.Nodup ∧
        ∀ label ∈ found.labels, isName label
  | .definition (.schema found) =>
      isName found.name ∧ found.entries ≠ [] ∧
        ∀ entry ∈ found.entries, isName entry.type ∧ isName entry.name
  | .declaration found =>
      isName found.name ∧ isName found.type ∧ ∀ size ∈ found.size, isWritableNumber size
  | .rule found =>
      found.guard.writable ∧ found.guard.looksDefining = false ∧
        ∀ consequent ∈ found.consequents, consequent.writable

instance : (statement : Statement) → Decidable statement.Writable
  | .definition (.domain found) =>
      inferInstanceAs (Decidable (isName found.name ∧ found.labels ≠ [] ∧ found.labels.Nodup ∧
        ∀ label ∈ found.labels, isName label))
  | .definition (.schema found) =>
      inferInstanceAs (Decidable (isName found.name ∧ found.entries ≠ [] ∧
        ∀ entry ∈ found.entries, isName entry.type ∧ isName entry.name))
  | .declaration found =>
      inferInstanceAs (Decidable (isName found.name ∧ isName found.type ∧
        ∀ size ∈ found.size, isWritableNumber size))
  | .rule found =>
      inferInstanceAs (Decidable (found.guard.writable ∧ found.guard.looksDefining = false ∧
        ∀ consequent ∈ found.consequents, consequent.writable))

end Statement

def Puzzle.Writable (puzzle : Puzzle) : Prop :=
  ∀ statement ∈ puzzle.statements, statement.Writable

instance (puzzle : Puzzle) : Decidable puzzle.Writable :=
  inferInstanceAs (Decidable (∀ statement ∈ puzzle.statements, statement.Writable))

/-! ## Places -/

def Reference.unplaced (reference : Reference) : Reference :=
  { reference with position := ⟨0, 0⟩ }

def Comparison.unplaced (comparison : Comparison) : Comparison :=
  ⟨comparison.left.unplaced, comparison.negated, comparison.right.unplaced⟩

def Rule.unplaced (rule : Rule) : Rule :=
  ⟨rule.guard.unplaced, rule.consequents.map Comparison.unplaced⟩

def Declaration.unplaced (declaration : Declaration) : Declaration :=
  { declaration with position := ⟨0, 0⟩ }

def Statement.unplaced : Statement → Statement
  | .definition found => .definition found
  | .declaration found => .declaration found.unplaced
  | .rule found => .rule found.unplaced

def Puzzle.unplaced (puzzle : Puzzle) : Puzzle where
  file := none
  domains := puzzle.domains
  schemas := puzzle.schemas
  declarations := puzzle.declarations.map Declaration.unplaced
  rules := puzzle.rules.map Rule.unplaced

theorem Puzzle.unplaced_ofStatements (file : Option Path) (statements : List Statement) :
    (Puzzle.ofStatements file statements).unplaced =
      Puzzle.ofStatements none (statements.map Statement.unplaced) := by
  have domains : Statement.domain? ∘ Statement.unplaced = Statement.domain? := by
    funext statement
    cases statement <;> rfl
  have schemas : Statement.schema? ∘ Statement.unplaced = Statement.schema? := by
    funext statement
    cases statement <;> rfl
  unfold Puzzle.unplaced Puzzle.ofStatements
  simp only [List.filterMap_map, domains, schemas, List.map_filterMap]
  congr 1
  · congr 1
    funext statement
    cases statement <;> rfl
  · congr 1
    funext statement
    cases statement <;> rfl

end LogicPuzzle
