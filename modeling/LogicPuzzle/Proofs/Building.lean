import LogicPuzzle.Model
import Mathlib.Data.List.Perm.Basic

/-!
# Built models

A model that was built from a puzzle has the types and the rules of the puzzle,
and for each declaration the array that the declared type says, in order of
declaration.  No two types have the same name, no two arrays have, and no cell
is without labels.
-/

namespace LogicPuzzle

/-- What comes first in a sequence that succeeds has succeeded. -/
theorem ok_of_bind {ε α β : Type} {first : Except ε α} {next : α → Except ε β} {result : β}
    (done : first >>= next = .ok result) :
    ∃ value, first = .ok value ∧ next value = .ok result := by
  cases first with
  | error fault => cases done
  | ok value => exact ⟨value, rfl, done⟩

namespace Puzzle

def domain? (puzzle : Puzzle) (name : String) : Option Domain :=
  puzzle.domains.find? fun domain => domain.name == name

def schema? (puzzle : Puzzle) (name : String) : Option Schema :=
  puzzle.schemas.find? fun schema => schema.name == name

def typeNames (puzzle : Puzzle) : List String :=
  puzzle.domains.map (·.name) ++ puzzle.schemas.map (·.name)

def arrayNames (puzzle : Puzzle) : List String :=
  puzzle.declarations.map (·.name)

def entryField (puzzle : Puzzle) (entry : Entry) : String × Cell :=
  (entry.name, ⟨entry.type, (puzzle.domain? entry.type).getD ⟨entry.type, []⟩⟩)

def recordArray (puzzle : Puzzle) (declaration : Declaration) (schema : Schema) : RecordArray :=
  ⟨declaration.name, schema, Table.ofList (schema.entries.map puzzle.entryField),
    declaration.length⟩

def scalarArray (declaration : Declaration) (domain : Domain) : ScalarArray :=
  ⟨declaration.name, ⟨declaration.type, domain⟩, declaration.length⟩

def recordArray? (puzzle : Puzzle) (declaration : Declaration) : Option RecordArray :=
  (puzzle.schema? declaration.type).map (puzzle.recordArray declaration)

/-- The scalar array that a declaration makes, if its type is a domain and no schema. -/
def scalarArray? (puzzle : Puzzle) (declaration : Declaration) : Option ScalarArray :=
  match puzzle.schema? declaration.type with
  | some _ => none
  | none => (puzzle.domain? declaration.type).map (scalarArray declaration)

variable {puzzle : Puzzle} {declaration : Declaration} {name : String}

theorem isSome_schema?_iff :
    (puzzle.schema? name).isSome ↔ name ∈ puzzle.schemas.map (·.name) := by
  simp [schema?]

theorem isSome_domain?_iff :
    (puzzle.domain? name).isSome ↔ name ∈ puzzle.domains.map (·.name) := by
  simp [domain?]

theorem mem_typeNames_of_schema? {schema : Schema} (found : puzzle.schema? name = some schema) :
    name ∈ puzzle.typeNames :=
  List.mem_append_right _ (isSome_schema?_iff.mp (Option.isSome_of_eq_some found))

theorem mem_typeNames_of_domain? {domain : Domain} (found : puzzle.domain? name = some domain) :
    name ∈ puzzle.typeNames :=
  List.mem_append_left _ (isSome_domain?_iff.mp (Option.isSome_of_eq_some found))

theorem schema?_eq_none (absent : name ∉ puzzle.typeNames) : puzzle.schema? name = none :=
  Option.eq_none_iff_forall_ne_some.mpr fun _ found => absent (mem_typeNames_of_schema? found)

theorem domain?_eq_none (absent : name ∉ puzzle.typeNames) : puzzle.domain? name = none :=
  Option.eq_none_iff_forall_ne_some.mpr fun _ found => absent (mem_typeNames_of_domain? found)

/-- A declaration makes an array exactly when its type is one of the puzzle. -/
theorem makes_array_iff :
    (puzzle.scalarArray? declaration).isSome ∨ (puzzle.recordArray? declaration).isSome ↔
      declaration.type ∈ puzzle.typeNames := by
  rw [typeNames, List.mem_append, ← isSome_domain?_iff, ← isSome_schema?_iff, scalarArray?,
    recordArray?]
  cases puzzle.schema? declaration.type <;> simp

end Puzzle

namespace Model

def typeNames (model : Model) : List String :=
  model.domains.map (·.name) ++ model.schemas.map (·.name)

def arrayNames (model : Model) : List String :=
  model.scalars.map (·.name) ++ model.records.map (·.name)

structure BuiltFrom (model : Model) (puzzle : Puzzle) : Prop where
  file : model.file = puzzle.file
  domains : model.domains = puzzle.domains
  schemas : model.schemas = puzzle.schemas
  rules : model.rules = puzzle.rules
  scalars : model.scalars = puzzle.declarations.filterMap puzzle.scalarArray?
  records : model.records = puzzle.declarations.filterMap puzzle.recordArray?
  cells : model.cells = model.allCells
  peers : model.peers = model.allPeers
  labelled : ∀ domain ∈ puzzle.domains, domain.labels ≠ []
  types_distinct : model.typeNames.Nodup
  arrays_distinct : model.arrayNames.Nodup
  declared : ∀ declaration ∈ puzzle.declarations,
    (puzzle.scalarArray? declaration).isSome ∨ (puzzle.recordArray? declaration).isSome
  fields_typed : ∀ declaration ∈ puzzle.declarations, ∀ schema,
    puzzle.schema? declaration.type = some schema →
      ∀ entry ∈ schema.entries, (puzzle.domain? entry.type).isSome

theorem hasType_eq_false_iff (model : Model) (name : String) :
    model.hasType name = false ↔ name ∉ model.typeNames := by
  simp [hasType, typeNames]

theorem hasArray_eq_false_iff (model : Model) (name : String) :
    model.hasArray name = false ↔ name ∉ model.arrayNames := by
  simp [hasArray, arrayNames]

/-! ## One step -/

theorem addDomain_ok {model next : Model} {domain : Domain}
    (done : model.addDomain domain = .ok next) :
    domain.name ∉ model.typeNames ∧
      next = { model with domains := model.domains ++ [domain] } := by
  unfold addDomain at done
  split at done
  · cases done
  · next fresh =>
      cases done
      exact ⟨(model.hasType_eq_false_iff _).mp (Bool.eq_false_iff.mpr fresh), rfl⟩

theorem addLabelledDomain_ok {model next : Model} {domain : Domain}
    (done : model.addLabelledDomain domain = .ok next) :
    domain.labels ≠ [] ∧ domain.name ∉ model.typeNames ∧
      next = { model with domains := model.domains ++ [domain] } := by
  unfold addLabelledDomain at done
  split at done
  · cases done
  · next labelled => exact ⟨by simpa using labelled, addDomain_ok done⟩

theorem addSchema_ok {model next : Model} {schema : Schema}
    (done : model.addSchema schema = .ok next) :
    schema.name ∉ model.typeNames ∧
      next = { model with schemas := model.schemas ++ [schema] } := by
  unfold addSchema at done
  split at done
  · cases done
  · next fresh =>
      cases done
      exact ⟨(model.hasType_eq_false_iff _).mp (Bool.eq_false_iff.mpr fresh), rfl⟩

structure TypedBy (model : Model) (puzzle : Puzzle) : Prop where
  domains : model.domains = puzzle.domains
  schemas : model.schemas = puzzle.schemas

theorem TypedBy.domain? {model : Model} {puzzle : Puzzle} (typed : model.TypedBy puzzle)
    (name : String) : model.domain? name = puzzle.domain? name := by
  rw [Model.domain?, Puzzle.domain?, typed.domains]

theorem TypedBy.schema? {model : Model} {puzzle : Puzzle} (typed : model.TypedBy puzzle)
    (name : String) : model.schema? name = puzzle.schema? name := by
  rw [Model.schema?, Puzzle.schema?, typed.schemas]

variable {model next : Model} {puzzle : Puzzle} {declaration : Declaration}

theorem entryCell_ok (typed : model.TypedBy puzzle) {schema : Schema} {entry : Entry}
    {field : String × Cell} (done : model.entryCell schema entry = .ok field) :
    (puzzle.domain? entry.type).isSome ∧ field = puzzle.entryField entry := by
  unfold entryCell at done
  rw [typed.domain?] at done
  cases found : puzzle.domain? entry.type with
  | none =>
      rw [found] at done
      cases done
  | some domain =>
      rw [found] at done
      cases done
      exact ⟨rfl, by rw [Puzzle.entryField, found, Option.getD_some]⟩

theorem mapM_entryCell_ok (typed : model.TypedBy puzzle) {schema : Schema} {entries : List Entry}
    {fields : List (String × Cell)} (done : entries.mapM (model.entryCell schema) = .ok fields) :
    (∀ entry ∈ entries, (puzzle.domain? entry.type).isSome) ∧
      fields = entries.map puzzle.entryField := by
  induction entries generalizing fields with
  | nil =>
      rw [List.mapM_nil] at done
      cases done
      exact ⟨by simp, rfl⟩
  | cons entry entries ih =>
      rw [List.mapM_cons] at done
      obtain ⟨field, first, later⟩ := ok_of_bind done
      obtain ⟨others, more, last⟩ := ok_of_bind later
      cases last
      obtain ⟨entryTyped, rfl⟩ := entryCell_ok typed first
      obtain ⟨othersTyped, rfl⟩ := ih more
      exact ⟨List.forall_mem_cons.mpr ⟨entryTyped, othersTyped⟩, rfl⟩

structure DeclaredTo (puzzle : Puzzle) (declarations : List Declaration) (model next : Model) :
    Prop where
  next_eq : next = { model with
    scalars := model.scalars ++ declarations.filterMap puzzle.scalarArray?
    records := model.records ++ declarations.filterMap puzzle.recordArray? }
  distinct : next.arrayNames.Nodup
  declared : ∀ declaration ∈ declarations,
    (puzzle.scalarArray? declaration).isSome ∨ (puzzle.recordArray? declaration).isSome
  fields_typed : ∀ declaration ∈ declarations, ∀ schema,
    puzzle.schema? declaration.type = some schema →
      ∀ entry ∈ schema.entries, (puzzle.domain? entry.type).isSome

theorem DeclaredTo.trans {first second : List Declaration} {last : Model}
    (earlier : DeclaredTo puzzle first model next) (later : DeclaredTo puzzle second next last) :
    DeclaredTo puzzle (first ++ second) model last where
  next_eq := by
    rw [later.next_eq, earlier.next_eq]
    simp only [List.filterMap_append, List.append_assoc]
  distinct := later.distinct
  declared := List.forall_mem_append.mpr ⟨earlier.declared, later.declared⟩
  fields_typed := List.forall_mem_append.mpr ⟨earlier.fields_typed, later.fields_typed⟩

theorem arrayNames_addRecord (model : Model) (array : RecordArray) :
    { model with records := model.records ++ [array] }.arrayNames.Perm
      (array.name :: model.arrayNames) := by
  simp only [arrayNames, List.map_append, List.map_cons, List.map_nil, ← List.append_assoc]
  exact List.perm_append_singleton _ _

theorem arrayNames_addScalar (model : Model) (array : ScalarArray) :
    { model with scalars := model.scalars ++ [array] }.arrayNames.Perm
      (array.name :: model.arrayNames) := by
  simp only [arrayNames, List.map_append, List.map_cons, List.map_nil, List.append_assoc,
    List.singleton_append]
  exact List.perm_middle

/-- A declaration over a schema adds a record array. -/
theorem declaredTo_record {schema : Schema} (found : puzzle.schema? declaration.type = some schema)
    (typed : ∀ entry ∈ schema.entries, (puzzle.domain? entry.type).isSome)
    (fresh : declaration.name ∉ model.arrayNames) (distinct : model.arrayNames.Nodup) :
    DeclaredTo puzzle [declaration] model
      { model with records := model.records ++ [puzzle.recordArray declaration schema] } where
  next_eq := by
    simp [Puzzle.scalarArray?, Puzzle.recordArray?, found]
  distinct :=
    (arrayNames_addRecord model _).nodup_iff.mpr (List.nodup_cons.mpr ⟨fresh, distinct⟩)
  declared := by
    simp [Puzzle.recordArray?, found]
  fields_typed := by
    intro other member schema' otherFound
    rw [List.mem_singleton.mp member, found] at otherFound
    cases otherFound
    exact typed

/-- A declaration over a domain adds a scalar array. -/
theorem declaredTo_scalar {domain : Domain} (untyped : puzzle.schema? declaration.type = none)
    (found : puzzle.domain? declaration.type = some domain)
    (fresh : declaration.name ∉ model.arrayNames) (distinct : model.arrayNames.Nodup) :
    DeclaredTo puzzle [declaration] model
      { model with scalars := model.scalars ++ [Puzzle.scalarArray declaration domain] } where
  next_eq := by
    simp [Puzzle.scalarArray?, Puzzle.recordArray?, untyped, found]
  distinct :=
    (arrayNames_addScalar model _).nodup_iff.mpr (List.nodup_cons.mpr ⟨fresh, distinct⟩)
  declared := by
    simp [Puzzle.scalarArray?, untyped, found]
  fields_typed := by
    intro other member schema otherFound
    rw [List.mem_singleton.mp member, untyped] at otherFound
    cases otherFound

theorem declare_ok (typed : model.TypedBy puzzle) (distinct : model.arrayNames.Nodup)
    (done : model.declare declaration = .ok next) :
    DeclaredTo puzzle [declaration] model next := by
  unfold declare at done
  rw [typed.schema?, typed.domain?] at done
  split at done
  · cases done
  · next taken =>
      have fresh : declaration.name ∉ model.arrayNames :=
        (model.hasArray_eq_false_iff _).mp (Bool.eq_false_iff.mpr taken)
      cases schemaFound : puzzle.schema? declaration.type with
      | some schema =>
          rw [schemaFound] at done
          obtain ⟨fields, fieldsDone, last⟩ := ok_of_bind done
          obtain ⟨entriesTyped, rfl⟩ := mapM_entryCell_ok typed fieldsDone
          cases last
          exact declaredTo_record schemaFound entriesTyped fresh distinct
      | none =>
          rw [schemaFound] at done
          cases domainFound : puzzle.domain? declaration.type with
          | none =>
              rw [domainFound] at done
              cases done
          | some domain =>
              rw [domainFound] at done
              cases done
              exact declaredTo_scalar schemaFound domainFound fresh distinct

/-! ## All steps -/

theorem foldlM_addLabelledDomain_ok {domains : List Domain}
    (done : domains.foldlM addLabelledDomain model = .ok next)
    (distinct : model.typeNames.Nodup) :
    (∀ domain ∈ domains, domain.labels ≠ []) ∧ next.typeNames.Nodup ∧
      next = { model with domains := model.domains ++ domains } := by
  induction domains generalizing model with
  | nil =>
      cases done
      exact ⟨by simp, distinct, by simp⟩
  | cons domain domains ih =>
      obtain ⟨middle, first, later⟩ := ok_of_bind done
      obtain ⟨labelled, fresh, rfl⟩ := addLabelledDomain_ok first
      have middleDistinct :
          { model with domains := model.domains ++ [domain] }.typeNames.Nodup := by
        simp only [typeNames, List.map_append, List.map_cons, List.map_nil, List.append_assoc,
          List.singleton_append]
        exact List.perm_middle.nodup_iff.mpr (List.nodup_cons.mpr ⟨fresh, distinct⟩)
      obtain ⟨othersLabelled, nextDistinct, rfl⟩ := ih later middleDistinct
      exact ⟨List.forall_mem_cons.mpr ⟨labelled, othersLabelled⟩, nextDistinct, by simp⟩

theorem foldlM_addSchema_ok {schemas : List Schema}
    (done : schemas.foldlM addSchema model = .ok next) (distinct : model.typeNames.Nodup) :
    next.typeNames.Nodup ∧ next = { model with schemas := model.schemas ++ schemas } := by
  induction schemas generalizing model with
  | nil =>
      cases done
      exact ⟨distinct, by simp⟩
  | cons schema schemas ih =>
      obtain ⟨middle, first, later⟩ := ok_of_bind done
      obtain ⟨fresh, rfl⟩ := addSchema_ok first
      have middleDistinct :
          { model with schemas := model.schemas ++ [schema] }.typeNames.Nodup := by
        simp only [typeNames, List.map_append, List.map_cons, List.map_nil,
          ← List.append_assoc]
        exact List.perm_append_singleton _ _ |>.nodup_iff.mpr
          (List.nodup_cons.mpr ⟨fresh, distinct⟩)
      obtain ⟨nextDistinct, rfl⟩ := ih later middleDistinct
      exact ⟨nextDistinct, by simp⟩

theorem foldlM_declare_ok {declarations : List Declaration} (typed : model.TypedBy puzzle)
    (distinct : model.arrayNames.Nodup) (done : declarations.foldlM declare model = .ok next) :
    DeclaredTo puzzle declarations model next := by
  induction declarations generalizing model with
  | nil =>
      cases done
      exact ⟨by simp, distinct, by simp, by simp⟩
  | cons declaration declarations ih =>
      obtain ⟨middle, first, later⟩ := ok_of_bind done
      have step := declare_ok typed distinct first
      have middleTyped : middle.TypedBy puzzle := by
        rw [step.next_eq]
        exact ⟨typed.domains, typed.schemas⟩
      exact step.trans (ih middleTyped step.distinct later)

theorem builtFrom_of_build (done : build puzzle = .ok model) : model.BuiltFrom puzzle := by
  obtain ⟨withDomains, domainsDone, done⟩ := ok_of_bind done
  obtain ⟨withSchemas, schemasDone, done⟩ := ok_of_bind done
  obtain ⟨declared, declarationsDone, done⟩ := ok_of_bind done
  obtain ⟨labelled, domainsDistinct, rfl⟩ :=
    foldlM_addLabelledDomain_ok domainsDone (by simp [typeNames, empty])
  obtain ⟨typesDistinct, rfl⟩ := foldlM_addSchema_ok schemasDone domainsDistinct
  have made : DeclaredTo puzzle puzzle.declarations _ declared :=
    foldlM_declare_ok ⟨rfl, rfl⟩ (by simp [arrayNames, empty]) declarationsDone
  rcases made with ⟨rfl, arraysDistinct, arraysDeclared, fieldsTyped⟩
  cases done
  exact {
    file := rfl, domains := rfl, schemas := rfl, rules := rfl, scalars := rfl, records := rfl,
    cells := rfl, peers := rfl, labelled := labelled, types_distinct := typesDistinct
    arrays_distinct := arraysDistinct, declared := arraysDeclared, fields_typed := fieldsTyped }

/-! ## Every such model is built -/

theorem addLabelledDomain_of_fresh {domain : Domain} (labelled : domain.labels ≠ [])
    (fresh : domain.name ∉ model.typeNames) :
    model.addLabelledDomain domain =
      .ok { model with domains := model.domains ++ [domain] } := by
  rw [addLabelledDomain, if_neg (by simpa using labelled), addDomain,
    (model.hasType_eq_false_iff _).mpr fresh]
  rfl

theorem addSchema_of_fresh {schema : Schema} (fresh : schema.name ∉ model.typeNames) :
    model.addSchema schema = .ok { model with schemas := model.schemas ++ [schema] } := by
  rw [addSchema, (model.hasType_eq_false_iff _).mpr fresh]
  rfl

theorem foldlM_addLabelledDomain_eq {domains : List Domain}
    (labelled : ∀ domain ∈ domains, domain.labels ≠ [])
    (distinct : { model with domains := model.domains ++ domains }.typeNames.Nodup) :
    domains.foldlM addLabelledDomain model =
      .ok { model with domains := model.domains ++ domains } := by
  induction domains generalizing model with
  | nil =>
      rw [List.append_nil]
      rfl
  | cons domain domains ih =>
      obtain ⟨first, others⟩ := List.forall_mem_cons.mp labelled
      have fresh : domain.name ∉ model.typeNames := by
        have perm : { model with domains := model.domains ++ domain :: domains }.typeNames.Perm
            (domain.name :: { model with domains := model.domains ++ domains }.typeNames) := by
          simp only [typeNames, List.map_append, List.map_cons, List.append_assoc,
            List.cons_append]
          exact List.perm_middle
        have absent := (List.nodup_cons.mp (perm.nodup_iff.mp distinct)).1
        intro known
        apply absent
        simp only [typeNames, List.map_append, List.mem_append] at known ⊢
        exact known.imp_left .inl
      have split := List.append_cons model.domains domain domains
      rw [split] at distinct
      rw [List.foldlM_cons, addLabelledDomain_of_fresh first fresh, split]
      exact @ih { model with domains := model.domains ++ [domain] } others distinct

theorem foldlM_addSchema_eq {schemas : List Schema}
    (distinct : { model with schemas := model.schemas ++ schemas }.typeNames.Nodup) :
    schemas.foldlM addSchema model =
      .ok { model with schemas := model.schemas ++ schemas } := by
  induction schemas generalizing model with
  | nil =>
      rw [List.append_nil]
      rfl
  | cons schema schemas ih =>
      have fresh : schema.name ∉ model.typeNames := by
        have apart := distinct
        simp only [typeNames, List.map_append, List.map_cons, ← List.append_assoc] at apart
        exact fun known => (List.nodup_append.mp apart).2.2 _ known _ List.mem_cons_self rfl
      have split := List.append_cons model.schemas schema schemas
      rw [split] at distinct
      rw [List.foldlM_cons, addSchema_of_fresh fresh, split]
      exact @ih { model with schemas := model.schemas ++ [schema] } distinct

theorem mapM_entryCell_eq (typed : model.TypedBy puzzle) (schema : Schema) {entries : List Entry}
    (entriesTyped : ∀ entry ∈ entries, (puzzle.domain? entry.type).isSome) :
    entries.mapM (model.entryCell schema) = .ok (entries.map puzzle.entryField) := by
  induction entries with
  | nil => rfl
  | cons entry entries ih =>
      obtain ⟨first, others⟩ := List.forall_mem_cons.mp entriesTyped
      obtain ⟨domain, found⟩ := Option.isSome_iff_exists.mp first
      rw [List.mapM_cons, ih others, entryCell, typed.domain?, found, List.map_cons,
        Puzzle.entryField, found]
      rfl

/-- A declaration of a new name over a known type adds the array that the type says. -/
theorem declare_of_fresh (typed : model.TypedBy puzzle)
    (fresh : declaration.name ∉ model.arrayNames)
    (declared : (puzzle.scalarArray? declaration).isSome ∨
      (puzzle.recordArray? declaration).isSome)
    (fieldsTyped : ∀ schema, puzzle.schema? declaration.type = some schema →
      ∀ entry ∈ schema.entries, (puzzle.domain? entry.type).isSome) :
    model.declare declaration = .ok { model with
      scalars := model.scalars ++ [declaration].filterMap puzzle.scalarArray?
      records := model.records ++ [declaration].filterMap puzzle.recordArray? } := by
  rw [declare, (model.hasArray_eq_false_iff _).mpr fresh, typed.schema?, typed.domain?]
  rw [Puzzle.scalarArray?, Puzzle.recordArray?] at declared
  simp only [List.filterMap_cons, List.filterMap_nil, Puzzle.scalarArray?, Puzzle.recordArray?]
  cases schemaFound : puzzle.schema? declaration.type with
  | some schema =>
      simp only [mapM_entryCell_eq typed schema (fieldsTyped schema schemaFound),
        Option.map_some, List.append_nil]
      rfl
  | none =>
      cases domainFound : puzzle.domain? declaration.type with
      | none => simp [schemaFound, domainFound] at declared
      | some domain =>
          simp only [Option.map_some, Option.map_none, List.append_nil]
          rfl

theorem scalarArray?_name {array : ScalarArray}
    (made : puzzle.scalarArray? declaration = some array) : array.name = declaration.name := by
  rw [Puzzle.scalarArray?] at made
  split at made
  · cases made
  · obtain ⟨domain, _, rfl⟩ := Option.map_eq_some_iff.mp made
    rfl

theorem recordArray?_name {array : RecordArray}
    (made : puzzle.recordArray? declaration = some array) : array.name = declaration.name := by
  obtain ⟨schema, _, rfl⟩ := Option.map_eq_some_iff.mp made
  rfl

theorem scalarArray?_of_record {array : RecordArray}
    (made : puzzle.recordArray? declaration = some array) :
    puzzle.scalarArray? declaration = none := by
  obtain ⟨schema, found, _⟩ := Option.map_eq_some_iff.mp made
  rw [Puzzle.scalarArray?, found]

/-- Declarations that make arrays make one each, under its own name. -/
theorem names_declared {declarations : List Declaration}
    (declared : ∀ declaration ∈ declarations,
      (puzzle.scalarArray? declaration).isSome ∨ (puzzle.recordArray? declaration).isSome) :
    ((declarations.filterMap puzzle.scalarArray?).map (·.name) ++
        (declarations.filterMap puzzle.recordArray?).map (·.name)).Perm
      (declarations.map (·.name)) := by
  induction declarations with
  | nil => rfl
  | cons declaration rest ih =>
      obtain ⟨first, others⟩ := List.forall_mem_cons.mp declared
      rw [List.map_cons]
      cases made : puzzle.recordArray? declaration with
      | some array =>
          rw [List.filterMap_cons_none (scalarArray?_of_record made),
            List.filterMap_cons_some made, List.map_cons, recordArray?_name made]
          exact List.perm_middle.trans ((ih others).cons _)
      | none =>
          rw [made] at first
          obtain ⟨array, scalar⟩ := Option.isSome_iff_exists.mp (first.resolve_right (by simp))
          rw [List.filterMap_cons_some scalar, List.filterMap_cons_none made, List.map_cons,
            scalarArray?_name scalar, List.cons_append]
          exact (ih others).cons _

/-- Declared names are new. -/
theorem DeclaredTo.fresh {declarations : List Declaration}
    (made : DeclaredTo puzzle declarations model next) (member : declaration ∈ declarations) :
    declaration.name ∉ model.arrayNames := by
  have distinct := made.distinct
  rw [made.next_eq] at distinct
  have perm : next.arrayNames.Perm (model.arrayNames ++
      ((declarations.filterMap puzzle.scalarArray?).map (·.name) ++
        (declarations.filterMap puzzle.recordArray?).map (·.name))) := by
    rw [made.next_eq]
    simp only [arrayNames, List.map_append, List.append_assoc]
    exact (List.perm_append_comm_assoc _ _ _).append_left _
  intro known
  have declared := (names_declared made.declared).mem_iff.mpr (List.mem_map_of_mem member)
  exact (List.nodup_append.mp (perm.nodup_iff.mp made.distinct)).2.2 _ known _ declared rfl

theorem foldlM_declare_eq {declarations : List Declaration} (typed : model.TypedBy puzzle)
    (made : DeclaredTo puzzle declarations model next) :
    declarations.foldlM declare model = .ok next := by
  induction declarations generalizing model with
  | nil =>
      rw [made.next_eq]
      simp only [List.filterMap_nil, List.append_nil]
      rfl
  | cons declaration declarations ih =>
      obtain ⟨declared, othersDeclared⟩ := List.forall_mem_cons.mp made.declared
      obtain ⟨fieldsTyped, othersTyped⟩ := List.forall_mem_cons.mp made.fields_typed
      rw [List.foldlM_cons, declare_of_fresh typed (made.fresh List.mem_cons_self) declared
        fieldsTyped]
      refine ih ⟨typed.domains, typed.schemas⟩
        ⟨?_, made.distinct, othersDeclared, othersTyped⟩
      rw [made.next_eq, ← List.singleton_append]
      simp only [List.filterMap_append, List.append_assoc]

/-- A model that has what building one from a puzzle gives is the built one. -/
theorem build_of_builtFrom (built : model.BuiltFrom puzzle) : build puzzle = .ok model := by
  rcases model with ⟨file, domains, schemas, scalars, records, rules, cells, peers⟩
  obtain ⟨rfl, rfl, rfl, rfl, rfl, rfl, cellsNumbered, peersNumbered, labelled, types, arrays,
    declared, fieldsTyped⟩ := built
  have domainsAdded : puzzle.domains.foldlM addLabelledDomain
        { empty puzzle.file with rules := puzzle.rules } =
      .ok { empty puzzle.file with rules := puzzle.rules, domains := puzzle.domains } := by
    apply foldlM_addLabelledDomain_eq labelled
    simpa [typeNames, empty] using (List.nodup_append.mp types).1
  have schemasAdded : puzzle.schemas.foldlM addSchema
        { empty puzzle.file with rules := puzzle.rules, domains := puzzle.domains } =
      .ok { empty puzzle.file with
        rules := puzzle.rules, domains := puzzle.domains, schemas := puzzle.schemas } :=
    foldlM_addSchema_eq types
  have made : DeclaredTo puzzle puzzle.declarations
      { empty puzzle.file with
        rules := puzzle.rules, domains := puzzle.domains, schemas := puzzle.schemas }
      { empty puzzle.file with
        rules := puzzle.rules, domains := puzzle.domains, schemas := puzzle.schemas
        scalars := puzzle.declarations.filterMap puzzle.scalarArray?
        records := puzzle.declarations.filterMap puzzle.recordArray? } :=
    ⟨rfl, arrays, declared, fieldsTyped⟩
  rw [build]
  simp only [domainsAdded, schemasAdded, foldlM_declare_eq ⟨rfl, rfl⟩ made, bind, Except.bind]
  refine congrArg Except.ok (Model.mk.injEq .. ▸ ?_)
  exact ⟨rfl, rfl, rfl, rfl, rfl, rfl, cellsNumbered.symm, peersNumbered.symm⟩

theorem build_ok_iff : build puzzle = .ok model ↔ model.BuiltFrom puzzle :=
  ⟨builtFrom_of_build, build_of_builtFrom⟩

/-! ## The arrays and the cells of a built model -/

theorem BuiltFrom.arrayNames_perm (built : model.BuiltFrom puzzle) :
    model.arrayNames.Perm puzzle.arrayNames := by
  rw [arrayNames, built.scalars, built.records]
  exact names_declared built.declared

theorem BuiltFrom.field_domain_mem (built : model.BuiltFrom puzzle) {array : RecordArray}
    (member : array ∈ model.records) {name : String} {cell : Cell}
    (field : (name, cell) ∈ array.fields) : cell.domain ∈ puzzle.domains := by
  rw [built.records] at member
  obtain ⟨declaration, declared, made⟩ := List.mem_filterMap.mp member
  obtain ⟨schema, found, rfl⟩ := Option.map_eq_some_iff.mp made
  obtain ⟨entry, entryMember, same⟩ := List.mem_map.mp (Table.mem_of_mem_ofList field)
  obtain ⟨domain, domainFound⟩ :=
    Option.isSome_iff_exists.mp
      (built.fields_typed declaration declared schema found entry entryMember)
  rw [Puzzle.entryField, domainFound] at same
  cases same
  exact List.mem_of_find?_eq_some domainFound

/-- The cells of a built model are over domains of the puzzle. -/
theorem BuiltFrom.cell_domain_mem (built : model.BuiltFrom puzzle) :
    ∀ cell ∈ model.cells, cell.domain ∈ puzzle.domains := by
  intro cell member
  rw [built.cells, allCells] at member
  rcases List.mem_append.mp member with inScalars | inRecords
  · obtain ⟨array, arrayMember, cellMember⟩ := List.mem_flatMap.mp inScalars
    obtain ⟨_, rfl⟩ := List.mem_replicate.mp cellMember
    rw [built.scalars] at arrayMember
    obtain ⟨declaration, _, made⟩ := List.mem_filterMap.mp arrayMember
    rw [Puzzle.scalarArray?] at made
    split at made
    · cases made
    · obtain ⟨domain, found, rfl⟩ := Option.map_eq_some_iff.mp made
      exact List.mem_of_find?_eq_some found
  · obtain ⟨array, arrayMember, cellMember⟩ := List.mem_flatMap.mp inRecords
    obtain ⟨fields, fieldsMember, inFields⟩ := List.mem_flatten.mp cellMember
    obtain ⟨_, rfl⟩ := List.mem_replicate.mp fieldsMember
    obtain ⟨⟨name, _⟩, field, rfl⟩ := List.mem_map.mp inFields
    exact built.field_domain_mem arrayMember field

/-- Every cell of a built model has labels. -/
theorem BuiltFrom.cell_size_pos (built : model.BuiltFrom puzzle) :
    ∀ cell ∈ model.cells, 0 < cell.size := by
  intro cell member
  exact List.length_pos_iff.mpr (built.labelled cell.domain (built.cell_domain_mem cell member))

end Model

end LogicPuzzle
