import LogicPuzzle.Model.Arrays
import LogicPuzzle.Model.Fault

/-!
# Models

A model holds the types of a puzzle, its arrays and its rules, and numbers all
cells: those of the scalar arrays first, then those of the record arrays, each
in order of declaration.  Building a model checks the types first and then the
declarations, and stops at the first fault.
-/

namespace LogicPuzzle

structure Model where
  file : Option Path
  domains : List Domain
  schemas : List Schema
  scalars : List ScalarArray
  records : List RecordArray
  rules : List Rule
  cells : List Cell
  peers : Peers
  deriving DecidableEq, Repr

namespace Model

def empty (file : Option Path) : Model where
  file := file
  domains := []
  schemas := []
  scalars := []
  records := []
  rules := []
  cells := []
  peers := []

def hasType (model : Model) (name : String) : Bool :=
  (model.domains.any fun domain => domain.name == name) ||
    model.schemas.any fun schema => schema.name == name

def hasArray (model : Model) (name : String) : Bool :=
  (model.scalars.any fun array => array.name == name) ||
    model.records.any fun array => array.name == name

def domain? (model : Model) (name : String) : Option Domain :=
  model.domains.find? fun domain => domain.name == name

def schema? (model : Model) (name : String) : Option Schema :=
  model.schemas.find? fun schema => schema.name == name

def unplaced (fault : ModelFault) : Diagnostic ModelFault :=
  ⟨fault, none⟩

/-- A fault at a position of the model's file, when both are known.  Lines and columns are taken
to be places of a text, where none has more digits than can be written. -/
def placed (model : Model) (fault : ModelFault) (position : Position) : Diagnostic ModelFault :=
  ⟨fault, Site.known? model.file position⟩

def addDomain (model : Model) (domain : Domain) : Except (Diagnostic ModelFault) Model :=
  if model.hasType domain.name then .error (unplaced (.duplicateType domain.name))
  else .ok { model with domains := model.domains ++ [domain] }

def addSchema (model : Model) (schema : Schema) : Except (Diagnostic ModelFault) Model :=
  if model.hasType schema.name then .error (unplaced (.duplicateType schema.name))
  else .ok { model with schemas := model.schemas ++ [schema] }

def entryCell (model : Model) (schema : Schema) (entry : Entry) :
    Except (Diagnostic ModelFault) (String × Cell) :=
  match model.domain? entry.type with
  | some domain => .ok (entry.name, ⟨entry.type, domain⟩)
  | none => .error (unplaced (.unknownFieldType entry.type entry.name schema.name))

def declare (model : Model) (declaration : Declaration) :
    Except (Diagnostic ModelFault) Model :=
  if model.hasArray declaration.name then
    .error (model.placed (.duplicateArray declaration.name) declaration.position)
  else match model.schema? declaration.type with
    | some schema => do
        let cells ← schema.entries.mapM (model.entryCell schema)
        let array : RecordArray :=
          ⟨declaration.name, schema, Table.ofList cells, declaration.length⟩
        return { model with records := model.records ++ [array] }
    | none =>
        match model.domain? declaration.type with
        | some domain =>
            let array : ScalarArray :=
              ⟨declaration.name, ⟨declaration.type, domain⟩, declaration.length⟩
            .ok { model with scalars := model.scalars ++ [array] }
        | none =>
            .error (model.placed (.unknownType declaration.type) declaration.position)

def allCells (model : Model) : List Cell :=
  model.scalars.flatMap ScalarArray.cells ++ model.records.flatMap RecordArray.cells

/-- Arrays with the number of their first cell. -/
def numbered {α : Type} (extent : α → Nat) (start : Nat) : List α → List (Nat × α)
  | [] => []
  | array :: rest => (start, array) :: numbered extent (start + extent array) rest

def scalarCount (model : Model) : Nat :=
  model.scalars.foldr (fun array count => array.size + count) 0

def numberedScalars (model : Model) : List (Nat × ScalarArray) :=
  numbered ScalarArray.size 0 model.scalars

def numberedRecords (model : Model) : List (Nat × RecordArray) :=
  numbered RecordArray.extent model.scalarCount model.records

def scalar? (model : Model) (name : String) : Option (Nat × ScalarArray) :=
  model.numberedScalars.find? fun numbered => numbered.2.name == name

def record? (model : Model) (name : String) : Option (Nat × RecordArray) :=
  model.numberedRecords.find? fun numbered => numbered.2.name == name

def allPeers (model : Model) : Peers :=
  List.replicate model.scalarCount [] ++
    model.numberedRecords.flatMap fun numbered =>
      numbered.2.peers.map fun peers => peers.map (numbered.1 + ·)

def collect (model : Model) : Model :=
  { model with cells := model.allCells, peers := model.allPeers }

/-- How many assignments there are: the product of the sizes of all numbered cells. -/
def searchSpace (model : Model) : Nat :=
  model.cells.foldr (fun cell count => cell.size * count) 1

def addLabelledDomain (model : Model) (domain : Domain) : Except (Diagnostic ModelFault) Model :=
  if domain.labels.isEmpty then .error (unplaced (.emptyDomain domain.name))
  else model.addDomain domain

def build (puzzle : Puzzle) : Except (Diagnostic ModelFault) Model := do
  let model := { empty puzzle.file with rules := puzzle.rules }
  let model ← puzzle.domains.foldlM addLabelledDomain model
  let model ← puzzle.schemas.foldlM addSchema model
  let model ← puzzle.declarations.foldlM declare model
  return model.collect

end Model

end LogicPuzzle
