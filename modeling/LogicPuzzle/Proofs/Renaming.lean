import LogicPuzzle.Outcome
import LogicPuzzle.Proofs.Numbering

/-!
# Puzzles under other names

One map renames everything that has a name: types, arrays, fields and labels.
Sizes, positions and the file of a puzzle stay.  Names are only ever compared,
so under an injective map a puzzle is built step by step as before, into the
renamed model or up to the renamed fault at the same place.
-/

namespace LogicPuzzle

section Renamed

variable (rename : String → String)

def Domain.renamed (domain : Domain) : Domain :=
  ⟨rename domain.name, domain.labels.map rename⟩

def Entry.renamed (entry : Entry) : Entry :=
  ⟨rename entry.type, rename entry.name, entry.unique⟩

def Schema.renamed (schema : Schema) : Schema :=
  ⟨rename schema.name, schema.entries.map (Entry.renamed rename)⟩

def Declaration.renamed (declaration : Declaration) : Declaration :=
  { declaration with name := rename declaration.name, type := rename declaration.type }

def Selector.renamed : Selector → Selector
  | .index n => .index n
  | .field name => .field (rename name)

/-- A reference under other names; its own name is that of an array or of a label. -/
def Reference.renamed (reference : Reference) : Reference :=
  ⟨rename reference.name, reference.selectors.map (Selector.renamed rename), reference.position⟩

def Comparison.renamed (comparison : Comparison) : Comparison :=
  ⟨comparison.left.renamed rename, comparison.negated, comparison.right.renamed rename⟩

def Rule.renamed (rule : Rule) : Rule :=
  ⟨rule.guard.renamed rename, rule.consequents.map (Comparison.renamed rename)⟩

def Puzzle.renamed (puzzle : Puzzle) : Puzzle where
  file := puzzle.file
  domains := puzzle.domains.map (Domain.renamed rename)
  schemas := puzzle.schemas.map (Schema.renamed rename)
  declarations := puzzle.declarations.map (Declaration.renamed rename)
  rules := puzzle.rules.map (Rule.renamed rename)

def Table.renamed {β γ : Type} (image : β → γ) (table : Table β) : Table γ :=
  table.map fun entry => (rename entry.1, image entry.2)

def Cell.renamed (cell : Cell) : Cell :=
  ⟨rename cell.type, cell.domain.renamed rename⟩

def ScalarArray.renamed (array : ScalarArray) : ScalarArray :=
  ⟨rename array.name, array.cell.renamed rename, array.size⟩

def RecordArray.renamed (array : RecordArray) : RecordArray where
  name := rename array.name
  schema := array.schema.renamed rename
  fields := Table.renamed rename (Cell.renamed rename) array.fields
  size := array.size

/-- A model under other names.  Its cells keep their numbers and their peers. -/
def Model.renamed (model : Model) : Model where
  file := model.file
  domains := model.domains.map (Domain.renamed rename)
  schemas := model.schemas.map (Schema.renamed rename)
  scalars := model.scalars.map (ScalarArray.renamed rename)
  records := model.records.map (RecordArray.renamed rename)
  rules := model.rules.map (Rule.renamed rename)
  cells := model.cells.map (Cell.renamed rename)
  peers := model.peers

def ModelFault.renamed : ModelFault → ModelFault
  | .emptyDomain name => .emptyDomain (rename name)
  | .duplicateType name => .duplicateType (rename name)
  | .duplicateArray name => .duplicateArray (rename name)
  | .unknownType name => .unknownType (rename name)
  | .unknownFieldType type field schema =>
      .unknownFieldType (rename type) (rename field) (rename schema)
  | .unknownArray name => .unknownArray (rename name)
  | .missingElement array => .missingElement (rename array)
  | .badElement index array => .badElement index (rename array)
  | .missingField array => .missingField (rename array)
  | .unknownField field array => .unknownField (rename field) (rename array)
  | .missingScalarElement array => .missingScalarElement (rename array)
  | .badScalarElement index array => .badScalarElement index (rename array)

def Diagnostic.renamed (diagnostic : Diagnostic ModelFault) : Diagnostic ModelFault :=
  ⟨diagnostic.cause.renamed rename, diagnostic.site⟩

end Renamed

variable {rename : String → String}

/-! ## Lookups under other names -/

section Lookups

variable (injective : Function.Injective rename)

include injective in
theorem beq_renamed (name other : String) : (rename name == rename other) = (name == other) := by
  rw [Bool.eq_iff_iff, beq_iff_eq, beq_iff_eq, injective.eq_iff]

variable {α β : Type} (key : α → String) {named : α → α}

include injective in
/-- What is found under a name is found under the new name. -/
theorem find?_renamed (keys : ∀ element, key (named element) = rename (key element))
    (elements : List α) (name : String) :
    ((elements.map named).find? fun element => key element == rename name) =
      (elements.find? fun element => key element == name).map named := by
  rw [List.find?_map]
  congr 2
  funext element
  exact (congrArg (· == rename name) (keys element)).trans (beq_renamed injective _ _)

include injective in
theorem any_renamed (keys : ∀ element, key (named element) = rename (key element))
    (elements : List α) (name : String) :
    ((elements.map named).any fun element => key element == rename name) =
      elements.any fun element => key element == name := by
  rw [List.any_map]
  congr 1
  funext element
  exact (congrArg (· == rename name) (keys element)).trans (beq_renamed injective _ _)

include injective in
theorem idxOf?_renamed (names : List String) (name : String) :
    (names.map rename).idxOf? (rename name) = names.idxOf? name := by
  induction names with
  | nil => rfl
  | cons first rest ih =>
      rw [List.map_cons, List.idxOf?_cons, List.idxOf?_cons, beq_renamed injective, ih]

namespace Table

theorem names_renamed (image : α → β) (table : Table α) :
    (table.renamed rename image).names = table.names.map rename := by
  rw [names, names, renamed, List.map_map, List.map_map]
  rfl

include injective in
theorem put_renamed (image : α → β) (name : String) (value : α) (table : Table α) :
    (table.renamed rename image).put (rename name) (image value) =
      (table.put name value).renamed rename image := by
  induction table with
  | nil => rfl
  | cons entry rest ih =>
      obtain ⟨other, old⟩ := entry
      have unfolded : renamed rename image ((other, old) :: rest) =
        (rename other, image old) :: renamed rename image rest := rfl
      rw [unfolded, put, put]
      by_cases same : other = name
      · rw [if_pos same, if_pos (congrArg rename same)]
        rfl
      · rw [if_neg same, if_neg (injective.ne same), ih]
        rfl

include injective in
/-- Entries with other names make the table with the other names. -/
theorem ofList_renamed (image : α → β) (entries : List (String × α)) :
    ofList (renamed rename image entries) = (ofList entries).renamed rename image := by
  rw [ofList, ofList, renamed, List.foldl_map]
  change List.foldl _ (renamed rename image []) entries = _
  apply List.foldl_hom
  intro table entry
  exact put_renamed injective image entry.1 entry.2 table

end Table

end Lookups

/-! ## Steps with images -/

section Steps

variable {ε δ α β γ θ : Type} {translate : ε → δ} {image : α → β} {onward : γ → θ}

/-- Two steps that follow each other commute with an image when each of them does. -/
theorem bind_image {first : Except ε α} {other : Except δ β} {next : α → Except ε γ}
    {after : β → Except δ θ} (same : other = (first.map image).mapError translate)
    (follows : ∀ value, after (image value) = ((next value).map onward).mapError translate) :
    (other >>= after) = ((first >>= next).map onward).mapError translate := by
  rw [same]
  cases first with
  | error fault => rfl
  | ok value => exact follows value

/-- A run over a list commutes with an image when every step does. -/
theorem foldlM_image {step : α → γ → Except ε α} {twin : β → θ → Except δ β}
    (steps : ∀ state element,
      twin (image state) (onward element) = ((step state element).map image).mapError translate)
    (elements : List γ) (state : α) :
    (elements.map onward).foldlM twin (image state) =
      ((elements.foldlM step state).map image).mapError translate := by
  induction elements generalizing state with
  | nil => rfl
  | cons element rest ih =>
      rw [List.map_cons, List.foldlM_cons, List.foldlM_cons]
      exact bind_image (steps state element) ih

theorem mapM_image {step : α → Except ε γ} {twin : β → Except δ θ}
    (steps : ∀ element, twin (image element) = ((step element).map onward).mapError translate)
    (elements : List α) :
    (elements.map image).mapM twin =
      ((elements.mapM step).map (List.map onward)).mapError translate := by
  induction elements with
  | nil => rfl
  | cons element rest ih =>
      rw [List.map_cons, List.mapM_cons, List.mapM_cons]
      refine bind_image (steps element) fun value => ?_
      exact bind_image ih fun values => rfl

end Steps

/-! ## Arrays under other names -/

namespace Schema

theorem uniqueEntries_renamed (schema : Schema) :
    (schema.renamed rename).uniqueEntries = schema.uniqueEntries.map (Entry.renamed rename) := by
  rw [uniqueEntries, uniqueEntries, renamed, List.filter_map]
  rfl

end Schema

namespace ScalarArray

theorem cells_renamed (array : ScalarArray) :
    (array.renamed rename).cells = array.cells.map (Cell.renamed rename) := by
  rw [cells, cells, List.map_replicate]
  rfl

end ScalarArray

namespace RecordArray

theorem width_renamed (array : RecordArray) : (array.renamed rename).width = array.width :=
  List.length_map _

theorem extent_renamed (array : RecordArray) : (array.renamed rename).extent = array.extent := by
  rw [extent, extent, width_renamed]
  rfl

theorem cells_renamed (array : RecordArray) :
    (array.renamed rename).cells = array.cells.map (Cell.renamed rename) := by
  have row : (array.renamed rename).fields.map (·.2) =
      (array.fields.map (·.2)).map (Cell.renamed rename) := by
    rw [renamed, Table.renamed, List.map_map, List.map_map]
    rfl
  rw [cells, cells, row, List.map_flatten, List.map_replicate]
  rfl

theorem cellNumber_renamed (array : RecordArray) (element field : Nat) :
    (array.renamed rename).cellNumber element field = array.cellNumber element field := by
  rw [cellNumber, cellNumber, width_renamed]

section Injective

variable (injective : Function.Injective rename)

include injective in
theorem fieldPlace?_renamed (array : RecordArray) (field : String) :
    (array.renamed rename).fieldPlace? (rename field) = array.fieldPlace? field := by
  rw [fieldPlace?, fieldPlace?, renamed, Table.names_renamed, idxOf?_renamed injective]

include injective in
/-- The cells of one field are peers under any name of the field. -/
theorem peers_renamed (array : RecordArray) : (array.renamed rename).peers = array.peers := by
  have connects : (array.renamed rename).connectField = array.connectField := by
    funext peers field
    simp only [connectField, cellNumber_renamed]
    rfl
  have places : ((array.renamed rename).schema.uniqueEntries.filterMap fun entry =>
        (array.renamed rename).fieldPlace? entry.name) =
      array.schema.uniqueEntries.filterMap fun entry => array.fieldPlace? entry.name := by
    rw [renamed, Schema.uniqueEntries_renamed, List.filterMap_map]
    congr 1
    funext entry
    exact fieldPlace?_renamed injective array entry.name
  rw [peers, peers, connects, places, extent_renamed]

end Injective

end RecordArray

/-! ## Models under other names -/

namespace Model

theorem numbered_renamed {α : Type} {extent : α → Nat} {image : α → α}
    (extents : ∀ array, extent (image array) = extent array) (start : Nat) (arrays : List α) :
    numbered extent start (arrays.map image) =
      (numbered extent start arrays).map fun entry => (entry.1, image entry.2) := by
  induction arrays generalizing start with
  | nil => rfl
  | cons array rest ih =>
      rw [List.map_cons, numbered, numbered, List.map_cons, extents, ih]

theorem numberedScalars_renamed (model : Model) :
    (model.renamed rename).numberedScalars =
      model.numberedScalars.map fun entry => (entry.1, entry.2.renamed rename) := by
  rw [numberedScalars, numberedScalars, renamed]
  apply numbered_renamed
  exact fun _ => rfl

theorem scalarCount_renamed (model : Model) :
    (model.renamed rename).scalarCount = model.scalarCount := by
  rw [scalarCount, scalarCount, renamed, List.foldr_map]
  rfl

theorem numberedRecords_renamed (model : Model) :
    (model.renamed rename).numberedRecords =
      model.numberedRecords.map fun entry => (entry.1, entry.2.renamed rename) := by
  rw [numberedRecords, numberedRecords, scalarCount_renamed]
  exact numbered_renamed RecordArray.extent_renamed _ model.records

theorem allCells_renamed (model : Model) :
    (model.renamed rename).allCells = model.allCells.map (Cell.renamed rename) := by
  rw [allCells, allCells, renamed, List.map_append, List.map_flatMap, List.map_flatMap,
    List.flatMap_map, List.flatMap_map]
  simp only [ScalarArray.cells_renamed, RecordArray.cells_renamed]

variable (injective : Function.Injective rename)

include injective

theorem allPeers_renamed (model : Model) : (model.renamed rename).allPeers = model.allPeers := by
  rw [allPeers, allPeers, scalarCount_renamed, numberedRecords_renamed, List.flatMap_map]
  simp only [RecordArray.peers_renamed injective]

theorem collect_renamed (model : Model) :
    (model.renamed rename).collect = model.collect.renamed rename := by
  rw [collect, collect, allCells_renamed, allPeers_renamed injective]
  rfl

theorem hasType_renamed (model : Model) (name : String) :
    (model.renamed rename).hasType (rename name) = model.hasType name := by
  rw [hasType, hasType, renamed, any_renamed injective Domain.name (fun _ => rfl),
    any_renamed injective Schema.name (fun _ => rfl)]

theorem hasArray_renamed (model : Model) (name : String) :
    (model.renamed rename).hasArray (rename name) = model.hasArray name := by
  rw [hasArray, hasArray, renamed, any_renamed injective ScalarArray.name (fun _ => rfl),
    any_renamed injective RecordArray.name (fun _ => rfl)]

theorem domain?_renamed (model : Model) (name : String) :
    (model.renamed rename).domain? (rename name) =
      (model.domain? name).map (Domain.renamed rename) :=
  find?_renamed injective Domain.name (fun _ => rfl) model.domains name

theorem schema?_renamed (model : Model) (name : String) :
    (model.renamed rename).schema? (rename name) =
      (model.schema? name).map (Schema.renamed rename) :=
  find?_renamed injective Schema.name (fun _ => rfl) model.schemas name

theorem scalar?_renamed (model : Model) (name : String) :
    (model.renamed rename).scalar? (rename name) =
      (model.scalar? name).map fun entry => (entry.1, entry.2.renamed rename) := by
  rw [scalar?, scalar?, numberedScalars_renamed]
  exact find?_renamed injective (fun entry : Nat × ScalarArray => entry.2.name) (fun _ => rfl)
    _ name

theorem record?_renamed (model : Model) (name : String) :
    (model.renamed rename).record? (rename name) =
      (model.record? name).map fun entry => (entry.1, entry.2.renamed rename) := by
  rw [record?, record?, numberedRecords_renamed]
  exact find?_renamed injective (fun entry : Nat × RecordArray => entry.2.name) (fun _ => rfl)
    _ name

/-! ## Building under other names -/

theorem addDomain_renamed (model : Model) (domain : Domain) :
    (model.renamed rename).addDomain (domain.renamed rename) =
      ((model.addDomain domain).map (renamed rename)).mapError (Diagnostic.renamed rename) := by
  have known := hasType_renamed injective model domain.name
  rw [addDomain, addDomain, Domain.renamed, known]
  cases model.hasType domain.name with
  | true => rfl
  | false =>
      refine congrArg Except.ok ?_
      rw [renamed, renamed, List.map_append]
      rfl

theorem addLabelledDomain_renamed (model : Model) (domain : Domain) :
    (model.renamed rename).addLabelledDomain (domain.renamed rename) =
      ((model.addLabelledDomain domain).map (renamed rename)).mapError
        (Diagnostic.renamed rename) := by
  have labelled : (domain.renamed rename).labels.isEmpty = domain.labels.isEmpty :=
    List.isEmpty_map
  rw [addLabelledDomain, addLabelledDomain, labelled, addDomain_renamed injective]
  cases domain.labels.isEmpty with
  | true => rfl
  | false => rfl

theorem addSchema_renamed (model : Model) (schema : Schema) :
    (model.renamed rename).addSchema (schema.renamed rename) =
      ((model.addSchema schema).map (renamed rename)).mapError (Diagnostic.renamed rename) := by
  have known := hasType_renamed injective model schema.name
  rw [addSchema, addSchema, Schema.renamed, known]
  cases model.hasType schema.name with
  | true => rfl
  | false =>
      refine congrArg Except.ok ?_
      rw [renamed, renamed, List.map_append]
      rfl

theorem entryCell_renamed (model : Model) (schema : Schema) (entry : Entry) :
    (model.renamed rename).entryCell (schema.renamed rename) (entry.renamed rename) =
      ((model.entryCell schema entry).map fun field =>
        (rename field.1, field.2.renamed rename)).mapError (Diagnostic.renamed rename) := by
  rw [entryCell, entryCell, Entry.renamed, domain?_renamed injective]
  cases model.domain? entry.type with
  | none => rfl
  | some domain => rfl

/-- A declaration adds the array under its new name, or is at fault at the same position. -/
theorem declare_renamed (model : Model) (declaration : Declaration) :
    (model.renamed rename).declare (declaration.renamed rename) =
      ((model.declare declaration).map (renamed rename)).mapError
        (Diagnostic.renamed rename) := by
  have known := hasArray_renamed injective model declaration.name
  have schema := schema?_renamed injective model declaration.type
  have domain := domain?_renamed injective model declaration.type
  rw [declare, declare, Declaration.renamed, known, schema, domain]
  cases model.hasArray declaration.name with
  | true => rfl
  | false =>
      cases model.schema? declaration.type with
      | some schema =>
          refine bind_image (mapM_image (entryCell_renamed injective model schema) schema.entries)
            fun fields => ?_
          have table := Table.ofList_renamed injective (Cell.renamed rename) fields
          rw [Table.renamed] at table
          simp only [table]
          refine congrArg Except.ok ?_
          rw [renamed, renamed, List.map_append]
          rfl
      | none =>
          cases model.domain? declaration.type with
          | none => rfl
          | some domain =>
              refine congrArg Except.ok ?_
              rw [renamed, renamed, List.map_append]
              rfl

/-- A puzzle under other names is built into the model under other names, or has the fault under
other names at the same place. -/
theorem build_renamed (puzzle : Puzzle) :
    build (puzzle.renamed rename) =
      ((build puzzle).map (renamed rename)).mapError (Diagnostic.renamed rename) := by
  have start : { empty (puzzle.renamed rename).file with rules := (puzzle.renamed rename).rules } =
      ({ empty puzzle.file with rules := puzzle.rules } : Model).renamed rename := rfl
  rw [build, start]
  refine bind_image (foldlM_image (addLabelledDomain_renamed injective) _ _) fun model => ?_
  refine bind_image (foldlM_image (addSchema_renamed injective) _ _) fun model => ?_
  refine bind_image (foldlM_image (declare_renamed injective) _ _) fun model => ?_
  exact congrArg Except.ok (collect_renamed injective model)

end Model

end LogicPuzzle
