import LogicPuzzle.Diagnostic

/-!
# Puzzles

A puzzle names domains of labels and schemas of records, declares arrays over
them, and states rules about the arrays.  References, comparisons and rules have
a written form, in which messages quote them.
-/

namespace LogicPuzzle

structure Domain where
  name : String
  labels : List String
  deriving DecidableEq, Repr

/-- A field of a record schema: the domain it takes its labels from, its name,
and whether the records of one array must differ in it. -/
structure Entry where
  type : String
  name : String
  unique : Bool
  deriving DecidableEq, Repr

structure Schema where
  name : String
  entries : List Entry
  deriving DecidableEq, Repr

/-- A declared array: its name, the name of its domain or schema, and its size. -/
structure Declaration where
  name : String
  type : String
  size : Option Int
  position : Position
  deriving DecidableEq, Repr

/-- A part of a reference: an element by its number, or a field by its name. -/
inductive Selector where
  | index (n : Int)
  | field (name : String)
  deriving DecidableEq, Repr

/-- A name with selectors.  It stands for a cell of an array, or for a label. -/
structure Reference where
  name : String
  selectors : List Selector
  position : Position
  deriving DecidableEq, Repr

/-- Two references that are compared; a negated comparison asks for a difference. -/
structure Comparison where
  left : Reference
  negated : Bool
  right : Reference
  deriving DecidableEq, Repr

/-- A guard and its consequents.  A rule without consequents states its guard. -/
structure Rule where
  guard : Comparison
  consequents : List Comparison
  deriving DecidableEq, Repr

structure Puzzle where
  file : Option Path
  domains : List Domain
  schemas : List Schema
  declarations : List Declaration
  rules : List Rule
  deriving DecidableEq, Repr

namespace Domain

/-- The place of a label in a domain, or `-1` for a label that is not there. -/
def indexOf (domain : Domain) (label : String) : Int :=
  match domain.labels.idxOf? label with
  | some place => place
  | none => -1

/-- The label at a place, taken into the domain when it lies outside. -/
def labelAt? (domain : Domain) (place : Int) : Option String :=
  domain.labels[min place.toNat (domain.labels.length - 1)]?

end Domain

namespace Schema

def fieldNames (schema : Schema) : List String :=
  schema.entries.map (·.name)

def uniqueEntries (schema : Schema) : List Entry :=
  schema.entries.filter (·.unique)

end Schema

namespace Declaration

/-- The size that counts: an array without a size has one element. -/
def effectiveSize (declaration : Declaration) : Int :=
  declaration.size.getD 1

/-- How many elements the declared array gets; a negative size gives none. -/
def length (declaration : Declaration) : Nat :=
  declaration.effectiveSize.toNat

end Declaration

namespace Selector

def written : Selector → String
  | .index n => "[" ++ toString n ++ "]"
  | .field name => "." ++ name

def index? : Selector → Option Int
  | .index n => some n
  | .field _ => none

def field? : Selector → Option String
  | .index _ => none
  | .field name => some name

end Selector

namespace Reference

/-- The element a reference selects; the last of several selections counts. -/
def index? (reference : Reference) : Option Int :=
  (reference.selectors.filterMap Selector.index?).getLast?

/-- The field a reference selects; the last of several selections counts. -/
def field? (reference : Reference) : Option String :=
  (reference.selectors.filterMap Selector.field?).getLast?

def written (reference : Reference) : String :=
  reference.name ++ String.join (reference.selectors.map Selector.written)

end Reference

namespace Comparison

def operator (comparison : Comparison) : String :=
  if comparison.negated then "!=" else "="

def written (comparison : Comparison) : String :=
  comparison.left.written ++ " " ++ comparison.operator ++ " " ++ comparison.right.written

end Comparison

namespace Rule

def quantified (rule : Rule) : Bool :=
  !rule.consequents.isEmpty

def written (rule : Rule) : String :=
  if rule.quantified then
    rule.guard.written ++ " => " ++ "; ".intercalate (rule.consequents.map Comparison.written)
  else rule.guard.written

end Rule

namespace Puzzle

def nameOf (file : Option Path) : String :=
  match file with
  | some path => path.stem
  | none => "<string>"

def name (puzzle : Puzzle) : String :=
  nameOf puzzle.file

end Puzzle

/-- Something worth telling that does not end the work: a text that was read only
up to a rule that makes no sense, or a rule whose consequents are never tested. -/
inductive Notice where
  | stopped (file : Path) (line : Int) (message : String)
  | unquantified (rule : Rule)
  deriving DecidableEq, Repr

namespace Notice

def message : Notice → String
  | .stopped file line message =>
      "Stopped parsing " ++ file.toString ++ " at line " ++ toString line ++ ": " ++ message
  | .unquantified rule =>
      "Rule '" ++ rule.written ++
        "' does not quantify over a record array; only its guard is checked"

end Notice

end LogicPuzzle
