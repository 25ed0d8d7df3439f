import LogicPuzzle.Reading.Phrase

/-!
# Statements

A puzzle text is a sequence of definitions, declarations and rules.  A fault in
the head of a rule does not fail the reading: it ends the sequence there, and
the fault is handed on with what was read.
-/

namespace LogicPuzzle

/-- A definition: a name for a domain or for a schema. -/
inductive Definition where
  | domain (domain : Domain)
  | schema (schema : Schema)
  deriving DecidableEq, Repr

inductive Statement where
  | definition (definition : Definition)
  | declaration (declaration : Declaration)
  | rule (rule : Rule)
  deriving DecidableEq, Repr

namespace Reading

/-- The first token whose text has been seen before. -/
def firstRepeated? (seen : List String) : List Token → Option Token
  | [] => none
  | token :: rest =>
      if token.text ∈ seen then some token else firstRepeated? (token.text :: seen) rest

def startsDefinition : List Token → Bool
  | first :: second :: _ => first.kind == .identifier && second.kind == .equals
  | _ => false

/-- Reads the labels of a domain, from behind the opening brace. -/
def domainBody (name : String) : Reading Domain := do
  let labels ← commaList (expect .identifier)
  let _ ← expect .closeBrace
  endLine
  match firstRepeated? [] labels with
  | some token => failAt token (.duplicateLabel token.text name)
  | none => return ⟨name, labels.map (·.text)⟩

/-- Reads the fields of a schema, from behind the opening bracket. -/
def schemaBody (name : String) : Reading Schema := do
  let entries ← commaList entry
  let _ ← expect .closeBracket
  endLine
  return ⟨name, entries⟩

def definition : Reading Definition := do
  let name ← expect .identifier
  let _ ← expect .equals
  if ← accept .openBrace then
    return .domain (← domainBody name.text)
  else if ← accept .openBracket then
    return .schema (← schemaBody name.text)
  else fail (.missingBody name.text)

def size? : Reading (Option Int) := do
  if ← accept .openBracket then
    let n ← number
    let _ ← expect .closeBracket
    return some n
  else return none

def declaration : Reading Declaration := do
  let keyword ← expect .var
  let name ← expect .identifier
  let _ ← expect .colon
  let type ← expect .identifier
  let size ← size?
  endLine
  return ⟨name.text, type.text, size, keyword.position⟩

def ruleHead : Reading (Comparison × Bool) := do
  let guard ← comparison
  if ← accept .yields then return (guard, true)
  else
    endLine
    return (guard, false)

def consequentRound : Reading (Round Comparison Unit) := do
  skipNewlines
  if ← sees .dedent then return .done ()
  else
    let consequent ← comparison
    if ← sees .dedent then return .again consequent
    else
      endLine
      return .again consequent

def ruleBlock (guard : Comparison) : Reading Rule := do
  endLine
  let _ ← expect .indent
  let (consequents, _) ← collect consequentRound
  if consequents.isEmpty then fail .missingConsequent
  else
    let _ ← expect .dedent
    return ⟨guard, consequents⟩

abbrev Stop := Fault × Option Token

/-- Reads a rule; a fault in its head ends the repetition. -/
def ruleRound : Reading (Round Statement (Option Stop)) := fun tokens =>
  match ruleHead tokens with
  | .error (.fault cause token) rest => .ok (.done (some (cause, token))) rest
  | .error misreading rest => .error misreading rest
  | .ok (guard, false) rest => .ok (.again (.rule ⟨guard, []⟩)) rest
  | .ok (guard, true) rest =>
      match ruleBlock guard rest with
      | .error misreading rest => .error misreading rest
      | .ok rule rest => .ok (.again (.rule rule)) rest

def statementRound : Reading (Round Statement (Option Stop)) := do
  skipNewlines
  let tokens ← get
  if tokens.isEmpty then return .done none
  else if startsDefinition tokens then return .again (.definition (← definition))
  else if startsWith .var tokens then return .again (.declaration (← declaration))
  else ruleRound

/-- Reads all statements, and the fault that ended them early, if any. -/
def statements : Reading (List Statement × Option Stop) :=
  collect statementRound

end Reading

namespace Statement

def domain? : Statement → Option Domain
  | .definition (.domain found) => some found
  | _ => none

def schema? : Statement → Option Schema
  | .definition (.schema found) => some found
  | _ => none

def declaration? : Statement → Option Declaration
  | .declaration found => some found
  | _ => none

def rule? : Statement → Option Rule
  | .rule found => some found
  | _ => none

end Statement

def Puzzle.ofStatements (file : Option Path) (statements : List Statement) : Puzzle where
  file := file
  domains := statements.filterMap Statement.domain?
  schemas := statements.filterMap Statement.schema?
  declarations := statements.filterMap Statement.declaration?
  rules := statements.filterMap Statement.rule?

end LogicPuzzle
