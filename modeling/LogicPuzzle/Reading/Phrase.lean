import LogicPuzzle.Reading

/-!
# Phrases

The parts that statements are made of: numbers, references, comparisons, and the
lists between brackets and braces.
-/

namespace LogicPuzzle.Reading

variable {α : Type}

def number : Reading Int := do
  let token ← expect .number
  match Numeral.read? token.text.toList with
  | some n => return n
  | none => throw (.numeral token.text)

def selectorRound : Reading (Round Selector Unit) := do
  if ← accept .openBracket then
    let n ← number
    let _ ← expect .closeBracket
    return .again (.index n)
  else if ← accept .dot then
    let field ← expect .identifier
    return .again (.field field.text)
  else return .done ()

def reference : Reading Reference := do
  let name ← expect .identifier
  let (selectors, _) ← collect selectorRound
  return ⟨name.text, selectors, name.position⟩

def comparisonOperator : Reading Bool := do
  if ← accept .equals then return false
  else if ← accept .differs then return true
  else fail .missingComparison

def comparison : Reading Comparison := do
  let left ← reference
  let negated ← comparisonOperator
  let right ← reference
  return ⟨left, negated, right⟩

def commaRound (item : Reading α) : Reading (Round α Unit) := do
  if ← accept .comma then return .again (← item) else return .done ()

def commaList (item : Reading α) : Reading (List α) := do
  let first ← item
  let (more, _) ← collect (commaRound item)
  return first :: more

def entry : Reading Entry := do
  let unique ← accept .unique
  let type ← expect .identifier
  let name ← expect .identifier
  return ⟨type.text, name.text, unique⟩

end LogicPuzzle.Reading
