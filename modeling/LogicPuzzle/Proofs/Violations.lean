import LogicPuzzle.Proofs.Resolution

/-!
# Well-formed puzzles

A puzzle is well-formed when its names are told apart, its domains have labels,
and its declarations and their fields have types.  Exactly then it has a model.
Otherwise its violations can be listed, those of the domains before those of the
schemas and those of the declarations, and the first one is reported.
-/

namespace LogicPuzzle

/-- What is wrong with the elements of a list, when each is judged with those ahead of it. -/
def judgedInTurn {α β : Type} (judge : List α → α → List β) (earlier : List α) : List α → List β
  | [] => []
  | element :: rest => judge earlier element ++ judgedInTurn judge (earlier ++ [element]) rest

namespace Puzzle

/-- What a puzzle must be like to have a model.  Schemas are read only where something is
declared over them, and types may be defined in any order. -/
structure WellFormed (puzzle : Puzzle) : Prop where
  labelled : ∀ domain ∈ puzzle.domains, domain.labels ≠ []
  types_distinct : puzzle.typeNames.Nodup
  arrays_distinct : puzzle.arrayNames.Nodup
  typed : ∀ declaration ∈ puzzle.declarations, declaration.type ∈ puzzle.typeNames
  fields_typed : ∀ declaration ∈ puzzle.declarations, ∀ schema ∈ puzzle.schemas,
    schema.name = declaration.type →
      ∀ entry ∈ schema.entries, entry.type ∈ puzzle.domains.map (·.name)

def domainFaults (earlier : List Domain) (domain : Domain) : List (Diagnostic ModelFault) :=
  (if domain.labels = [] then [⟨.emptyDomain domain.name, none⟩] else []) ++
    if domain.name ∈ earlier.map (·.name) then [⟨.duplicateType domain.name, none⟩] else []

def schemaFaults (puzzle : Puzzle) (earlier : List Schema) (schema : Schema) :
    List (Diagnostic ModelFault) :=
  if schema.name ∈ puzzle.domains.map (·.name) ++ earlier.map (·.name) then
    [⟨.duplicateType schema.name, none⟩]
  else []

/-- What is wrong with the entries of a schema: those that have no domain. -/
def entryFaults (puzzle : Puzzle) (schema : Schema) (entries : List Entry) :
    List (Diagnostic ModelFault) :=
  (entries.filter fun entry => (puzzle.domain? entry.type).isNone).map fun entry =>
    ⟨.unknownFieldType entry.type entry.name schema.name, none⟩

def declaredFault (puzzle : Puzzle) (declaration : Declaration) (fault : ModelFault) :
    Diagnostic ModelFault :=
  ⟨fault, Site.known? puzzle.file declaration.position⟩

def typeFaults (puzzle : Puzzle) (declaration : Declaration) : List (Diagnostic ModelFault) :=
  match puzzle.schema? declaration.type with
  | some schema => puzzle.entryFaults schema schema.entries
  | none =>
      if declaration.type ∈ puzzle.domains.map (·.name) then []
      else [puzzle.declaredFault declaration (.unknownType declaration.type)]

def declarationFaults (puzzle : Puzzle) (earlier : List Declaration) (declaration : Declaration) :
    List (Diagnostic ModelFault) :=
  (if declaration.name ∈ earlier.map (·.name) then
      [puzzle.declaredFault declaration (.duplicateArray declaration.name)]
    else []) ++ puzzle.typeFaults declaration

def violations (puzzle : Puzzle) : List (Diagnostic ModelFault) :=
  judgedInTurn domainFaults [] puzzle.domains ++
    (judgedInTurn puzzle.schemaFaults [] puzzle.schemas ++
      judgedInTurn puzzle.declarationFaults [] puzzle.declarations)

end Puzzle

/-- A result is refused for the first thing that is wrong, and for nothing else. -/
def RefusedFor {ε α : Type} (result : Except ε α) (faults : List ε) : Prop :=
  ∀ fault, result = .error fault ↔ faults.head? = some fault

section Refusal

variable {σ ε α β : Type} {faults later : List ε}

theorem RefusedFor.ok (value : α) : RefusedFor (.ok value : Except ε α) [] :=
  fun _ => iff_of_false nofun nofun

theorem RefusedFor.error (fault : ε) (more : List ε) :
    RefusedFor (.error fault : Except ε α) (fault :: more) := by
  intro other
  rw [Except.error.injEq, List.head?_cons, Option.some_inj]

/-- Nothing is wrong with what succeeds. -/
theorem RefusedFor.eq_nil {value : α} (refused : RefusedFor (.ok value : Except ε α) faults) :
    faults = [] := by
  apply List.head?_eq_none_iff.mp
  exact Option.eq_none_iff_forall_ne_some.mpr fun fault head => nomatch (refused fault).mpr head

theorem RefusedFor.bind {first : Except ε α} {next : α → Except ε β}
    (refused : RefusedFor first faults)
    (refusedNext : ∀ value, first = .ok value → RefusedFor (next value) later) :
    RefusedFor (first >>= next) (faults ++ later) := by
  intro fault
  rw [List.head?_append]
  cases first with
  | error found =>
      rw [(refused found).mp rfl, Option.some_or, Option.some_inj]
      exact iff_of_eq (Except.error.injEq found fault)
  | ok value =>
      rw [refused.eq_nil, List.head?_nil, Option.none_or]
      exact refusedNext value rfl fault

theorem RefusedFor.map {first : Except ε α} (refused : RefusedFor first faults) (make : α → β) :
    RefusedFor (first >>= fun value => .ok (make value)) faults := by
  rw [← List.append_nil faults]
  exact refused.bind fun value _ => .ok (make value)

/-- When each step is refused for what is wrong with its element, a run is refused for what is
wrong with its elements in turn. -/
theorem RefusedFor.foldlM {step : σ → α → Except ε σ} {judge : List α → α → List ε}
    (Tracks : σ → List α → Prop)
    (refused : ∀ state earlier element, Tracks state earlier →
      RefusedFor (step state element) (judge earlier element))
    (tracked : ∀ state earlier element next, Tracks state earlier →
      step state element = .ok next → Tracks next (earlier ++ [element]))
    {elements earlier : List α} {state : σ} (tracks : Tracks state earlier) :
    RefusedFor (elements.foldlM step state) (judgedInTurn judge earlier elements) := by
  induction elements generalizing state earlier with
  | nil => exact .ok state
  | cons element rest ih =>
      rw [List.foldlM_cons, judgedInTurn]
      exact (refused state earlier element tracks).bind fun next stepped =>
        ih (tracked state earlier element next tracks stepped)

end Refusal

namespace Model

variable {model : Model} {puzzle : Puzzle}

/-! ## One step -/

theorem addLabelledDomain_refused {earlier : List Domain} {domain : Domain}
    (known : ∀ name, name ∈ model.typeNames ↔ name ∈ earlier.map (·.name)) :
    RefusedFor (model.addLabelledDomain domain) (Puzzle.domainFaults earlier domain) := by
  have taken : model.hasType domain.name = true ↔ domain.name ∈ earlier.map (·.name) := by
    rw [← known, ← not_iff_not, Bool.not_eq_true, hasType_eq_false_iff]
  rw [addLabelledDomain, addDomain, Puzzle.domainFaults]
  by_cases empty : domain.labels = []
  · rw [if_pos (List.isEmpty_iff.mpr empty), if_pos empty]
    exact .error _ _
  · rw [if_neg (mt List.isEmpty_iff.mp empty), if_neg empty, List.nil_append]
    by_cases repeated : domain.name ∈ earlier.map (·.name)
    · rw [if_pos (taken.mpr repeated), if_pos repeated]
      exact .error _ _
    · rw [if_neg (mt taken.mp repeated), if_neg repeated]
      exact .ok _

theorem addSchema_refused {earlier : List Schema} {schema : Schema}
    (known : ∀ name, name ∈ model.typeNames ↔
      name ∈ puzzle.domains.map (·.name) ++ earlier.map (·.name)) :
    RefusedFor (model.addSchema schema) (puzzle.schemaFaults earlier schema) := by
  have taken : model.hasType schema.name = true ↔
      schema.name ∈ puzzle.domains.map (·.name) ++ earlier.map (·.name) := by
    rw [← known, ← not_iff_not, Bool.not_eq_true, hasType_eq_false_iff]
  rw [addSchema, Puzzle.schemaFaults]
  by_cases repeated : schema.name ∈ puzzle.domains.map (·.name) ++ earlier.map (·.name)
  · rw [if_pos (taken.mpr repeated), if_pos repeated]
    exact .error _ _
  · rw [if_neg (mt taken.mp repeated), if_neg repeated]
    exact .ok _

theorem mapM_entryCell_refused (typed : model.TypedBy puzzle) (schema : Schema)
    (entries : List Entry) :
    RefusedFor (entries.mapM (model.entryCell schema)) (puzzle.entryFaults schema entries) := by
  induction entries with
  | nil => exact .ok []
  | cons entry rest ih =>
      rw [List.mapM_cons, entryCell, typed.domain?, Puzzle.entryFaults, List.filter_cons]
      cases puzzle.domain? entry.type with
      | none => exact .error _ _
      | some domain => exact ih.map _

theorem declare_refused (typed : model.TypedBy puzzle) (file : model.file = puzzle.file)
    {earlier : List Declaration} {declaration : Declaration}
    (known : ∀ name, name ∈ model.arrayNames ↔ name ∈ earlier.map (·.name)) :
    RefusedFor (model.declare declaration) (puzzle.declarationFaults earlier declaration) := by
  have taken : model.hasArray declaration.name = true ↔
      declaration.name ∈ earlier.map (·.name) := by
    rw [← known, ← not_iff_not, Bool.not_eq_true, hasArray_eq_false_iff]
  have sited (cause : ModelFault) : model.placed cause declaration.position =
      puzzle.declaredFault declaration cause := by
    rw [placed, file, Puzzle.declaredFault]
  rw [declare, Puzzle.declarationFaults, sited, sited]
  by_cases repeated : declaration.name ∈ earlier.map (·.name)
  · rw [if_pos (taken.mpr repeated), if_pos repeated]
    exact .error _ _
  · rw [if_neg (mt taken.mp repeated), if_neg repeated, List.nil_append, Puzzle.typeFaults,
      typed.schema?, typed.domain?]
    cases puzzle.schema? declaration.type with
    | some schema => exact (mapM_entryCell_refused typed schema schema.entries).map _
    | none =>
        cases found : puzzle.domain? declaration.type with
        | some domain =>
            simp only [if_pos (Puzzle.isSome_domain?_iff.mp (Option.isSome_of_eq_some found))]
            exact .ok _
        | none =>
            have absent : declaration.type ∉ puzzle.domains.map (·.name) := by
              rw [← Puzzle.isSome_domain?_iff, found]
              exact Bool.false_ne_true
            simp only [if_neg absent]
            exact .error _ _

/-! ## All steps -/

theorem foldlM_addLabelledDomain_refused {domains : List Domain}
    (untyped : model.typeNames = []) :
    RefusedFor (domains.foldlM addLabelledDomain model)
      (judgedInTurn Puzzle.domainFaults [] domains) := by
  let Tracks (state : Model) (earlier : List Domain) : Prop :=
    ∀ name, name ∈ state.typeNames ↔ name ∈ earlier.map (·.name)
  have tracks : Tracks model [] := fun name => by rw [untyped, List.map_nil]
  have refused (state : Model) (earlier : List Domain) (domain : Domain)
      (known : Tracks state earlier) :
      RefusedFor (state.addLabelledDomain domain) (Puzzle.domainFaults earlier domain) :=
    addLabelledDomain_refused known
  refine .foldlM Tracks refused ?_ tracks
  intro state earlier domain after known added name
  obtain ⟨_, _, rfl⟩ := addLabelledDomain_ok added
  have before := known name
  simp only [typeNames, List.map_append, List.mem_append] at before ⊢
  rw [or_right_comm, before]

theorem foldlM_addSchema_refused {schemas : List Schema}
    (domains : model.domains = puzzle.domains) (fresh : model.schemas = []) :
    RefusedFor (schemas.foldlM addSchema model)
      (judgedInTurn puzzle.schemaFaults [] schemas) := by
  let Tracks (state : Model) (earlier : List Schema) : Prop :=
    ∀ name, name ∈ state.typeNames ↔
      name ∈ puzzle.domains.map (·.name) ++ earlier.map (·.name)
  have tracks : Tracks model [] := fun name => by rw [typeNames, domains, fresh]
  have refused (state : Model) (earlier : List Schema) (schema : Schema)
      (known : Tracks state earlier) :
      RefusedFor (state.addSchema schema) (puzzle.schemaFaults earlier schema) :=
    addSchema_refused known
  refine .foldlM Tracks refused ?_ tracks
  intro state earlier schema after known added name
  obtain ⟨_, rfl⟩ := addSchema_ok added
  have before := known name
  simp only [typeNames, List.map_append, List.mem_append] at before ⊢
  rw [← or_assoc, before, or_assoc]

theorem foldlM_declare_refused {declarations : List Declaration}
    (typed : model.TypedBy puzzle) (file : model.file = puzzle.file)
    (scalars : model.scalars = []) (records : model.records = []) :
    RefusedFor (declarations.foldlM declare model)
      (judgedInTurn puzzle.declarationFaults [] declarations) := by
  have typedStill {state : Model} {earlier : List Declaration}
      (made : DeclaredTo puzzle earlier model state) : state.TypedBy puzzle := by
    rw [made.next_eq]
    exact ⟨typed.domains, typed.schemas⟩
  have tracks : DeclaredTo puzzle [] model model :=
    ⟨by simp, by simp [arrayNames, scalars, records], by simp, by simp⟩
  refine .foldlM (fun state earlier => DeclaredTo puzzle earlier model state) ?_ ?_ tracks
  · intro state earlier declaration made
    refine declare_refused (typedStill made) (by rw [made.next_eq, file]) fun name => ?_
    rw [← (names_declared made.declared).mem_iff, made.next_eq, arrayNames, scalars, records]
    rfl
  · intro state earlier declaration after made declared
    exact made.trans (declare_ok (typedStill made) made.distinct declared)

/-- A puzzle has no model exactly when something is wrong with it, and what is wrong first is
reported. -/
theorem build_refused (puzzle : Puzzle) : RefusedFor (build puzzle) puzzle.violations := by
  rw [build, Puzzle.violations]
  -- A run that was not refused says which tables the next one starts with.
  refine (foldlM_addLabelledDomain_refused rfl).bind fun withDomains domainsDone => ?_
  obtain ⟨_, distinct, rfl⟩ := foldlM_addLabelledDomain_ok domainsDone (by simp [typeNames, empty])
  refine (foldlM_addSchema_refused rfl rfl).bind fun withSchemas schemasDone => ?_
  obtain ⟨_, rfl⟩ := foldlM_addSchema_ok schemasDone distinct
  exact (foldlM_declare_refused ⟨rfl, rfl⟩ rfl rfl rfl).map collect

/-! ## Acceptance -/

theorem BuiltFrom.wellFormed (built : model.BuiltFrom puzzle) : puzzle.WellFormed where
  labelled := built.labelled
  types_distinct := by
    have distinct := built.types_distinct
    rwa [typeNames, built.domains, built.schemas] at distinct
  arrays_distinct := built.arrayNames_perm.nodup_iff.mp built.arrays_distinct
  typed declaration member := Puzzle.makes_array_iff.mp (built.declared declaration member)
  fields_typed := by
    intro declaration member schema schemaMember named entry entered
    have found := built.schema?_eq_some_iff.mpr ⟨schemaMember, named⟩
    exact Puzzle.isSome_domain?_iff.mp
      (built.fields_typed declaration member schema found entry entered)

/-- A well-formed puzzle has a model. -/
theorem exists_builtFrom (wellFormed : puzzle.WellFormed) :
    ∃ model : Model, model.BuiltFrom puzzle := by
  have declared : ∀ declaration ∈ puzzle.declarations,
      (puzzle.scalarArray? declaration).isSome ∨ (puzzle.recordArray? declaration).isSome :=
    fun declaration member => Puzzle.makes_array_iff.mpr (wellFormed.typed declaration member)
  let whole : Model := { empty puzzle.file with
    rules := puzzle.rules, domains := puzzle.domains, schemas := puzzle.schemas
    scalars := puzzle.declarations.filterMap puzzle.scalarArray?
    records := puzzle.declarations.filterMap puzzle.recordArray? }
  refine ⟨whole.collect, ?_⟩
  exact {
    file := rfl, domains := rfl, schemas := rfl, rules := rfl, scalars := rfl, records := rfl
    cells := rfl, peers := rfl, labelled := wellFormed.labelled
    types_distinct := wellFormed.types_distinct
    arrays_distinct := (names_declared declared).nodup_iff.mpr wellFormed.arrays_distinct
    declared := declared
    fields_typed := by
      intro declaration member schema found entry entered
      have schemaMember := List.mem_of_find?_eq_some found
      have named : schema.name = declaration.type := by simpa using List.find?_some found
      exact Puzzle.isSome_domain?_iff.mpr
        (wellFormed.fields_typed declaration member schema schemaMember named entry entered) }

theorem exists_build_iff : (∃ model, build puzzle = .ok model) ↔ puzzle.WellFormed := by
  constructor
  · rintro ⟨model, done⟩
    exact (builtFrom_of_build done).wellFormed
  · intro wellFormed
    obtain ⟨model, built⟩ := exists_builtFrom wellFormed
    exact ⟨model, build_of_builtFrom built⟩

/-- A puzzle is well-formed when nothing is wrong with it. -/
theorem wellFormed_iff : puzzle.WellFormed ↔ puzzle.violations = [] := by
  have refused := build_refused puzzle
  rw [← exists_build_iff]
  cases done : build puzzle with
  | ok model =>
      rw [done] at refused
      exact iff_of_true ⟨model, rfl⟩ refused.eq_nil
  | error fault =>
      have head := (refused fault).mp done
      refine iff_of_false (fun ⟨_, other⟩ => nomatch other) fun flawless => ?_
      rw [flawless] at head
      cases head

instance (puzzle : Puzzle) : Decidable puzzle.WellFormed :=
  decidable_of_iff (puzzle.violations = []) wellFormed_iff.symm

/-- Exactly the well-formed puzzles have models.  The others have violations, and the first of
them is reported.  The line and column of a report are places of a text, so that they can be
written; `Model.placed` does not tell apart those of a puzzle made by hand that are too long. -/
theorem build_judges (puzzle : Puzzle) :
    ((∃ model, build puzzle = .ok model) ↔ puzzle.WellFormed) ∧
      (puzzle.WellFormed ↔ puzzle.violations = []) ∧
        ∀ fault, build puzzle = .error fault ↔ puzzle.violations.head? = some fault :=
  ⟨exists_build_iff, wellFormed_iff, build_refused puzzle⟩

/-- The first violation of a puzzle with many is that of a domain, though a schema of the same name
and a declaration without a type stand in it as well. -/
example : build ⟨none, [⟨"Size", ["small"]⟩, ⟨"Size", []⟩], [⟨"Size", []⟩],
      [⟨"Box", "Shape", none, ⟨0, 0⟩⟩], []⟩ = .error ⟨.emptyDomain "Size", none⟩ := by rfl

/-- A schema with a field of no type does no harm when nothing is declared over it. -/
example : Puzzle.WellFormed ⟨none, [⟨"Size", ["small"]⟩], [⟨"Box", [⟨"Shape", "lid", false⟩]⟩],
      [⟨"Bag", "Size", none, ⟨0, 0⟩⟩], []⟩ := by decide

end Model

end LogicPuzzle
