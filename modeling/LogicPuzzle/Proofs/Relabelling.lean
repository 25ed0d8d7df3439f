import LogicPuzzle.Proofs.PeerOrder
import LogicPuzzle.Proofs.Progress
import LogicPuzzle.Proofs.Rearranging
import LogicPuzzle.Proofs.Renaming
import LogicPuzzle.Proofs.TwinSearches

/-!
# Labels in another order

Giving the labels of domains in another order changes no cell, no reference and
no peers.  Only the places of the labels are other ones, so every place is
carried to that of the same label.  Labels are compared as before, and so are
cells over one domain, but not cells over different ones.
-/

namespace LogicPuzzle

variable {order : Domain → List String}

def Domain.relabelled (order : Domain → List String) (domain : Domain) : Domain :=
  { domain with labels := order domain }

def Cell.relabelled (order : Domain → List String) (cell : Cell) : Cell :=
  { cell with domain := cell.domain.relabelled order }

def ScalarArray.relabelled (order : Domain → List String) (array : ScalarArray) : ScalarArray :=
  { array with cell := array.cell.relabelled order }

def RecordArray.relabelled (order : Domain → List String) (array : RecordArray) : RecordArray :=
  { array with fields := array.fields.renamed id (Cell.relabelled order) }

def Puzzle.relabelled (order : Domain → List String) (puzzle : Puzzle) : Puzzle :=
  { puzzle with domains := puzzle.domains.map (Domain.relabelled order) }

def Model.relabelled (order : Domain → List String) (model : Model) : Model :=
  collect { model with
    domains := model.domains.map (Domain.relabelled order)
    scalars := model.scalars.map (ScalarArray.relabelled order)
    records := model.records.map (RecordArray.relabelled order) }

/-! ## Arrays -/

namespace ScalarArray

theorem cells_relabelled (array : ScalarArray) :
    (array.relabelled order).cells = array.cells.map (Cell.relabelled order) := by
  rw [cells, cells, List.map_replicate]
  rfl

end ScalarArray

namespace RecordArray

theorem width_relabelled (array : RecordArray) :
    (array.relabelled order).width = array.width :=
  List.length_map _

theorem extent_relabelled (array : RecordArray) :
    (array.relabelled order).extent = array.extent := by
  rw [extent, extent, width_relabelled]
  rfl

theorem cells_relabelled (array : RecordArray) :
    (array.relabelled order).cells = array.cells.map (Cell.relabelled order) := by
  have row : (array.relabelled order).fields.map (·.2) =
      (array.fields.map (·.2)).map (Cell.relabelled order) := by
    rw [relabelled, Table.renamed, List.map_map, List.map_map]
    rfl
  rw [cells, cells, row, List.map_flatten, List.map_replicate]
  rfl

theorem cellNumber_relabelled (array : RecordArray) :
    (array.relabelled order).cellNumber = array.cellNumber := by
  funext element field
  rw [cellNumber, cellNumber, width_relabelled]

theorem fieldPlace?_relabelled (array : RecordArray) :
    (array.relabelled order).fieldPlace? = array.fieldPlace? := by
  funext field
  rw [fieldPlace?, fieldPlace?, relabelled, Table.names_renamed, List.map_id]

theorem peers_relabelled (array : RecordArray) : (array.relabelled order).peers = array.peers := by
  have connects : (array.relabelled order).connectField = array.connectField := by
    funext peers field
    rw [connectField, connectField, cellNumber_relabelled]
    rfl
  rw [peers, peers, connects, fieldPlace?_relabelled, extent_relabelled]
  rfl

end RecordArray

namespace Puzzle

variable {puzzle : Puzzle}

theorem domain?_relabelled (name : String) :
    (puzzle.relabelled order).domain? name = (puzzle.domain? name).map (Domain.relabelled order) :=
  List.find?_map

theorem scalarArray?_relabelled (declaration : Declaration) :
    (puzzle.relabelled order).scalarArray? declaration =
      (puzzle.scalarArray? declaration).map (ScalarArray.relabelled order) := by
  have types : (puzzle.relabelled order).schema? declaration.type =
      puzzle.schema? declaration.type := rfl
  rw [scalarArray?, types, domain?_relabelled, scalarArray?]
  cases puzzle.schema? declaration.type with
  | some schema => rfl
  | none =>
      simp only [Option.map_map]
      rfl

theorem recordArray?_relabelled {declaration : Declaration}
    (typed : ∀ schema, puzzle.schema? declaration.type = some schema →
      ∀ entry ∈ schema.entries, (puzzle.domain? entry.type).isSome) :
    (puzzle.relabelled order).recordArray? declaration =
      (puzzle.recordArray? declaration).map (RecordArray.relabelled order) := by
  change (puzzle.schema? declaration.type).map _ = _
  rw [recordArray?]
  cases found : puzzle.schema? declaration.type with
  | none => rfl
  | some schema =>
      have fields : schema.entries.map (puzzle.relabelled order).entryField =
          Table.renamed id (Cell.relabelled order) (schema.entries.map puzzle.entryField) := by
        rw [Table.renamed, List.map_map]
        refine List.map_congr_left fun entry member => ?_
        obtain ⟨domain, domainFound⟩ :=
          Option.isSome_iff_exists.mp (typed schema found entry member)
        rw [Function.comp_apply, entryField, domain?_relabelled, entryField, domainFound]
        rfl
      rw [Option.map_some, Option.map_some, Option.map_some, recordArray, fields,
        Table.ofList_renamed Function.injective_id]
      rfl

end Puzzle

namespace Model

variable {model : Model} {puzzle : Puzzle}

theorem numberedScalars_relabelled : (model.relabelled order).numberedScalars =
    model.numberedScalars.map fun entry => (entry.1, entry.2.relabelled order) := by
  have sizes (array : ScalarArray) : (array.relabelled order).size = array.size := rfl
  exact numbered_renamed sizes 0 model.scalars

theorem scalarCount_relabelled : (model.relabelled order).scalarCount = model.scalarCount :=
  List.foldr_map

theorem numberedRecords_relabelled : (model.relabelled order).numberedRecords =
    model.numberedRecords.map fun entry => (entry.1, entry.2.relabelled order) := by
  rw [numberedRecords, scalarCount_relabelled]
  exact numbered_renamed RecordArray.extent_relabelled _ model.records

theorem scalar?_relabelled (name : String) : (model.relabelled order).scalar? name =
    (model.scalar? name).map fun entry => (entry.1, entry.2.relabelled order) := by
  rw [scalar?, numberedScalars_relabelled]
  exact List.find?_map

theorem record?_relabelled (name : String) : (model.relabelled order).record? name =
    (model.record? name).map fun entry => (entry.1, entry.2.relabelled order) := by
  rw [record?, numberedRecords_relabelled]
  exact List.find?_map

/-- References name the same cells and are at fault for the same reasons. -/
theorem resolve_relabelled (binding : Option Binding) (reference : Reference) :
    (model.relabelled order).resolve binding reference = model.resolve binding reference := by
  rw [resolve, record?_relabelled, scalar?_relabelled, resolve]
  cases model.record? reference.name with
  | some entry =>
      simp only [Option.map_some, resolveRecord, RecordArray.fieldPlace?_relabelled,
        RecordArray.cellNumber_relabelled]
      rfl
  | none => cases model.scalar? reference.name <;> rfl

section Built

variable (built : model.BuiltFrom puzzle)
include built

theorem BuiltFrom.cells_relabelled :
    (model.relabelled order).cells = model.cells.map (Cell.relabelled order) := by
  rw [built.cells, allCells, List.map_append, List.map_flatMap, List.map_flatMap]
  simp only [← ScalarArray.cells_relabelled, ← RecordArray.cells_relabelled]
  exact congrArg₂ _ (List.flatMap_map _ _ _) (List.flatMap_map _ _ _)

theorem BuiltFrom.peers_relabelled : (model.relabelled order).peers = model.peers := by
  have all : (model.relabelled order).peers = (model.relabelled order).allPeers := rfl
  rw [all, built.peers, allPeers, allPeers, scalarCount_relabelled, numberedRecords_relabelled,
    List.flatMap_map]
  simp only [RecordArray.peers_relabelled]

/-- The puzzle with its labels in another order is built into the model with them. -/
theorem BuiltFrom.relabelled
    (perms : ∀ domain ∈ puzzle.domains, domain.labels.Perm (order domain)) :
    (model.relabelled order).BuiltFrom (puzzle.relabelled order) where
  file := built.file
  domains := congrArg _ built.domains
  schemas := built.schemas
  rules := built.rules
  scalars := by
    change model.scalars.map (ScalarArray.relabelled order) = _
    rw [built.scalars, List.map_filterMap]
    exact List.filterMap_congr fun declaration _ =>
      (Puzzle.scalarArray?_relabelled declaration).symm
  records := by
    change model.records.map (RecordArray.relabelled order) = _
    rw [built.records, List.map_filterMap]
    exact List.filterMap_congr fun declaration member =>
      (Puzzle.recordArray?_relabelled (built.fields_typed declaration member)).symm
  cells := rfl
  peers := rfl
  labelled := by
    refine List.forall_mem_map.mpr fun domain member unlabelled => ?_
    have none : order domain = [] := unlabelled
    exact built.labelled domain member (List.Perm.eq_nil (none ▸ perms domain member))
  types_distinct := by
    have names : (model.relabelled order).typeNames = model.typeNames :=
      congrArg (· ++ model.schemas.map (·.name)) List.map_map
    rw [names]
    exact built.types_distinct
  arrays_distinct := by
    have names : (model.relabelled order).arrayNames = model.arrayNames :=
      congrArg₂ (· ++ ·) List.map_map List.map_map
    rw [names]
    exact built.arrays_distinct
  declared declaration member := by
    rw [Puzzle.scalarArray?_relabelled,
      Puzzle.recordArray?_relabelled (built.fields_typed declaration member), Option.isSome_map,
      Option.isSome_map]
    exact built.declared declaration member
  fields_typed declaration member schema found entry entryMember := by
    rw [Puzzle.domain?_relabelled, Option.isSome_map]
    exact built.fields_typed declaration member schema found entry entryMember

end Built

end Model

/-! ## Places of the same labels -/

namespace Domain

variable {domain other : Domain} {place second : Int} {label : String}

/-- The place that the label at a place of one domain has in another one. -/
def carry (domain other : Domain) (place : Int) : Int :=
  other.indexOf (domain.labels[place.toNat]?.getD "")

structure SameLabels (domain other : Domain) : Prop where
  distinct : domain.labels.Nodup
  perm : domain.labels.Perm other.labels

theorem SameLabels.symm (same : domain.SameLabels other) : other.SameLabels domain :=
  ⟨same.perm.nodup_iff.mp same.distinct, same.perm.symm⟩

section SameLabels

variable (same : domain.SameLabels other) (bounds : 0 ≤ place ∧ place < domain.labels.length)
include same bounds

/-- The label at a place stands in the other domain where the place is carried. -/
theorem SameLabels.exists_label : ∃ label, domain.labels[place.toNat]? = some label ∧
    0 ≤ domain.carry other place ∧
      other.labels[(domain.carry other place).toNat]? = some label := by
  have inside : place.toNat < domain.labels.length := by omega
  have found := List.getElem?_eq_getElem inside
  obtain ⟨index, below, same_label⟩ :=
    List.getElem_of_mem (same.perm.mem_iff.mp (List.getElem_mem inside))
  have placed : other.labels[index]? = some domain.labels[place.toNat] := by
    rw [List.getElem?_eq_getElem below, same_label]
  have carried : domain.carry other place = index := by
    rw [carry, found, Option.getD_some]
    exact indexOf_eq same.symm.distinct (Int.natCast_nonneg index) placed
  rw [carried]
  exact ⟨_, found, Int.natCast_nonneg index, placed⟩

theorem SameLabels.carry_bounds :
    0 ≤ domain.carry other place ∧ domain.carry other place < other.labels.length := by
  obtain ⟨label, _, lower, placed⟩ := same.exists_label bounds
  have inside := (List.getElem?_eq_some_iff.mp placed).1
  omega

theorem SameLabels.carry_carry : other.carry domain (domain.carry other place) = place := by
  obtain ⟨label, found, _, placed⟩ := same.exists_label bounds
  rw [carry, placed, Option.getD_some]
  exact indexOf_eq same.distinct bounds.1 found

/-- Whether a place is that of a label is the same in both domains. -/
theorem SameLabels.carry_eq_indexOf_iff :
    domain.carry other place = other.indexOf label ↔ place = domain.indexOf label := by
  obtain ⟨shown, found, lower, placed⟩ := same.exists_label bounds
  rw [eq_comm, indexOf_eq_iff same.symm.distinct lower, placed, eq_comm (a := place),
    indexOf_eq_iff same.distinct bounds.1, found]

theorem SameLabels.carry_eq_iff (within : 0 ≤ second ∧ second < domain.labels.length) :
    domain.carry other place = domain.carry other second ↔ place = second := by
  refine ⟨fun carried => ?_, congrArg _⟩
  rw [← same.carry_carry bounds, carried, same.carry_carry within]

end SameLabels

end Domain

/-- The assignment to other cells that gives each the label that an assignment gives the cell it
stands for. -/
def Assignment.carried (cells others : List Cell) (assignment : Assignment) : Assignment :=
  List.zipWith (fun (joined : Cell × Cell) place => joined.1.domain.carry joined.2.domain place)
    (cells.zip others) assignment

theorem Assignment.InRange.carried {cells others : List Cell} {assignment : Assignment}
    (alike : List.Forall₂ (fun cell other => cell.domain.SameLabels other.domain) cells others)
    (inRange : assignment.InRange cells) :
    (assignment.carried cells others).InRange others ∧
      (assignment.carried cells others).carried others cells = assignment := by
  induction alike generalizing assignment with
  | nil =>
      cases inRange
      exact ⟨.nil, rfl⟩
  | cons same _ ih =>
      cases inRange with
      | cons bounds rest =>
          obtain ⟨restInRange, restBack⟩ := ih rest
          exact ⟨.cons (same.carry_bounds bounds) restInRange,
            congrArg₂ List.cons (same.carry_carry bounds) restBack⟩

theorem Assignment.InRange.placeOf_carried {cells others : List Cell} {assignment : Assignment}
    (inRange : assignment.InRange cells) {number : Nat} {cell other : Cell}
    (found : cells[number]? = some cell) (otherFound : others[number]? = some other) :
    (assignment.carried cells others).placeOf number =
      cell.domain.carry other.domain (assignment.placeOf number) := by
  have inside : number < assignment.length :=
    inRange.length_eq ▸ (List.getElem?_eq_some_iff.mp found).1
  have joined : (cells.zip others)[number]? = some (cell, other) :=
    List.getElem?_zip_eq_some.mpr ⟨found, otherFound⟩
  rw [placeOf, Assignment.carried, List.getElem?_zipWith, joined, placeOf,
    List.getElem?_eq_getElem inside]
  rfl

namespace Model

variable {model : Model} {puzzle : Puzzle} {binding : Option Binding} {comparison : Comparison}
  {rule : Rule} {held : Assignment}

/-- Where both sides of a comparison name cells, the cells are over one domain. -/
def JoinsAlike (model : Model) (binding : Option Binding) (comparison : Comparison) : Prop :=
  ∀ left right, model.resolve binding comparison.left = .ok left →
    model.resolve binding comparison.right = .ok right →
      model.cells[left]?.map Cell.domain = model.cells[right]?.map Cell.domain

instance (model : Model) (binding : Option Binding) (comparison : Comparison) :
    Decidable (model.JoinsAlike binding comparison) :=
  match left : model.resolve binding comparison.left,
      right : model.resolve binding comparison.right with
  | .ok first, .ok second =>
      decidable_of_iff (model.cells[first]?.map Cell.domain = model.cells[second]?.map Cell.domain)
        ⟨fun same _ _ leftSays rightSays => by
          cases left.symm.trans leftSays
          cases right.symm.trans rightSays
          exact same,
        fun joins => joins first second left right⟩
  | .error _, _ => isTrue fun _ _ resolved => nomatch left.symm.trans resolved
  | .ok _, .error _ => isTrue fun _ _ _ resolved => nomatch right.symm.trans resolved

def ComparesAlike (model : Model) (rule : Rule) : Prop :=
  match model.quantifiedArray? rule with
  | none => model.JoinsAlike none rule.guard
  | some array => ∀ index < array.size, ∀ comparison ∈ rule.guard :: rule.consequents,
      model.JoinsAlike (some ⟨rule.guard.left.name, (index : Nat)⟩) comparison

/-- A reference that resolves names a cell of the model. -/
theorem BuiltFrom.resolve_lt (built : model.BuiltFrom puzzle) {reference : Reference} {cell : Nat}
    (resolved : model.resolve binding reference = .ok cell) : cell < model.cells.length := by
  have same : model.Rearranged model := ⟨.rfl, .rfl, rfl⟩
  have stays : model.Moves model id := fun _ _ numbered => numbered
  have transfers : Transfers id model.cells.length (model.resolve binding reference) _ :=
    (same.embeds built built stays).transfers trivial
  rw [resolved] at transfers
  cases transfers
  assumption

/-! ## Carried checks -/

section Checks

variable (built : model.BuiltFrom puzzle)
  (alike : ∀ domain ∈ puzzle.domains, domain.SameLabels (domain.relabelled order))
  (inRange : held.InRange model.cells)
include built alike inRange

/-- A cell holds the carried place of what it held, which was one of its labels. -/
theorem BuiltFrom.placeOf_carried {number : Nat} {cell : Cell}
    (found : model.cells[number]? = some cell) :
    (held.carried model.cells (model.relabelled order).cells).placeOf number =
        cell.domain.carry (cell.domain.relabelled order) (held.placeOf number) ∧
      cell.domain.SameLabels (cell.domain.relabelled order) ∧
        0 ≤ held.placeOf number ∧ held.placeOf number < cell.domain.labels.length := by
  have otherFound : (model.relabelled order).cells[number]? = some (cell.relabelled order) := by
    rw [built.cells_relabelled, List.getElem?_map, found, Option.map_some]
  exact ⟨inRange.placeOf_carried found otherFound,
    alike _ (built.cell_domain_mem cell (List.mem_of_getElem? found)), inRange.placeOf_bounds found⟩

/-- Cells over one domain hold the same place where they did. -/
theorem BuiltFrom.placeOf_carried_eq_iff {left right : Nat} {domain : Domain}
    (leftFound : model.cells[left]?.map Cell.domain = some domain)
    (rightFound : model.cells[right]?.map Cell.domain = some domain) :
    (held.carried model.cells (model.relabelled order).cells).placeOf left =
        (held.carried model.cells (model.relabelled order).cells).placeOf right ↔
      held.placeOf left = held.placeOf right := by
  obtain ⟨cell, found, rfl⟩ := Option.map_eq_some_iff.mp leftFound
  obtain ⟨other, otherFound, same⟩ := Option.map_eq_some_iff.mp rightFound
  obtain ⟨carried, labels, bounds⟩ := built.placeOf_carried alike inRange found
  obtain ⟨otherCarried, _, within⟩ := built.placeOf_carried alike inRange otherFound
  rw [same] at otherCarried within
  rw [carried, otherCarried]
  exact labels.carry_eq_iff bounds within

theorem BuiltFrom.evaluate_carried (joins : model.JoinsAlike binding comparison) :
    (model.relabelled order).evaluate (held.carried model.cells (model.relabelled order).cells)
        binding comparison = model.evaluate held binding comparison := by
  rw [evaluate, evaluate, resolve_relabelled]
  cases leftResolved : model.resolve binding comparison.left with
  | error unresolved => rfl
  | ok left =>
      obtain ⟨cell, found⟩ : ∃ cell, model.cells[left]? = some cell :=
        ⟨_, List.getElem?_eq_getElem (built.resolve_lt leftResolved)⟩
      obtain ⟨carried, labels, bounds⟩ := built.placeOf_carried alike inRange found
      change (rightPlace _ _ _ left comparison.right >>= _) =
        (model.rightPlace held binding left comparison.right >>= _)
      rw [rightPlace, rightPlace, resolve_relabelled]
      cases rightResolved : model.resolve binding comparison.right with
      | ok right =>
          have joined := joins left right leftResolved rightResolved
          rw [found, Option.map_some] at joined
          have same := built.placeOf_carried_eq_iff alike inRange
            (congrArg (Option.map Cell.domain) found) joined.symm
          simp only [bind, Except.bind, pure, Except.pure, Bool.beq_eq_decide_eq, same]
      | error unresolved =>
          cases unresolved with
          | outOfRange => rfl
          | numeral => rfl
          | fault diagnostic =>
              -- The right side is a label, which may be missing in the domain.
              have label (name : String) :
                  cell.domain.carry (cell.domain.relabelled order) (held.placeOf left) =
                      (cell.domain.relabelled order).indexOf name ↔
                    held.placeOf left = cell.domain.indexOf name :=
                labels.carry_eq_indexOf_iff bounds
              have otherFound : (model.relabelled order).cells[left]? =
                  some (cell.relabelled order) := by
                rw [built.cells_relabelled, List.getElem?_map, found, Option.map_some]
              simp only [labelPlace, found, otherFound, Cell.relabelled, bind, Except.bind, pure,
                Except.pure, Bool.beq_eq_decide_eq, carried, label]

theorem BuiltFrom.holdsAt_carried {bound : Binding}
    (joins : ∀ comparison ∈ rule.guard :: rule.consequents,
      model.JoinsAlike (some bound) comparison) :
    (model.relabelled order).holdsAt (held.carried model.cells (model.relabelled order).cells)
        rule bound = model.holdsAt held rule bound := by
  obtain ⟨guard, consequents⟩ := List.forall_mem_cons.mp joins
  rw [holdsAt, holdsAt, built.evaluate_carried alike inRange guard,
    allM_forall₂ (List.forall₂_same.mpr fun comparison member =>
      built.evaluate_carried alike inRange (consequents comparison member))]

theorem BuiltFrom.checkRule_carried (compares : model.ComparesAlike rule) :
    (model.relabelled order).checkRule (held.carried model.cells (model.relabelled order).cells)
        rule = model.checkRule held rule := by
  have array : (model.relabelled order).quantifiedArray? rule =
      (model.quantifiedArray? rule).map (RecordArray.relabelled order) := by
    rw [quantifiedArray?, quantifiedArray?, record?_relabelled, Option.map_map]
    split
    · rw [Option.map_map]
      rfl
    · rfl
  rw [ComparesAlike] at compares
  rw [checkRule, checkRule, array]
  cases quantified : model.quantifiedArray? rule with
  | none =>
      rw [quantified] at compares
      exact built.evaluate_carried alike inRange compares
  | some array =>
      rw [quantified] at compares
      refine allM_forall₂ (List.forall₂_same.mpr fun index inside => ?_)
      exact built.holdsAt_carried alike inRange (compares index (List.mem_range.mp inside))

/-- Peers are over one domain, so they hold the same place where they did. -/
theorem BuiltFrom.checkUniqueness_carried :
    (model.relabelled order).checkUniqueness
        (held.carried model.cells (model.relabelled order).cells) =
      model.checkUniqueness held := by
  rw [Bool.eq_iff_iff, checkUniqueness_true_iff, checkUniqueness_true_iff,
    built.peers_relabelled, built.cells_relabelled, List.length_map, ← built.cells_relabelled]
  refine forall₂_congr fun holder below => forall₂_congr fun member joined => not_congr ?_
  obtain ⟨_, _, _, _, _, _, _, same⟩ := built.exists_field_of_peer joined
  have found := congrArg (Option.map Cell.domain) (List.getElem?_eq_getElem below)
  exact built.placeOf_carried_eq_iff alike inRange
    ((congrArg (Option.map Cell.domain) same).trans found) found

/-- The check says of the carried assignment what it said. -/
theorem BuiltFrom.check_carried (compares : ∀ rule ∈ puzzle.rules, model.ComparesAlike rule) :
    (model.relabelled order).check (held.carried model.cells (model.relabelled order).cells) =
      model.check held := by
  have rules : (model.relabelled order).rules = model.rules := rfl
  rw [check, check, built.checkUniqueness_carried alike inRange, checkRules, checkRules, rules,
    built.rules, allM_forall₂ (List.forall₂_same.mpr fun rule member =>
      built.checkRule_carried alike inRange (compares rule member))]

end Checks

theorem BuiltFrom.mirrors_relabelled (built : model.BuiltFrom puzzle)
    (alike : ∀ domain ∈ puzzle.domains, domain.SameLabels (domain.relabelled order))
    (compares : ∀ rule ∈ puzzle.rules, model.ComparesAlike rule) :
    model.Mirrors (model.relabelled order)
      (Assignment.carried model.cells (model.relabelled order).cells) where
  bijective := by
    have cells : List.Forall₂ (fun cell other => cell.domain.SameLabels other.domain) model.cells
        (model.relabelled order).cells := by
      rw [built.cells_relabelled]
      exact List.forall₂_map_right_iff.mpr (List.forall₂_same.mpr fun cell member =>
        alike _ (built.cell_domain_mem cell member))
    have back : List.Forall₂ (fun cell other => cell.domain.SameLabels other.domain)
        (model.relabelled order).cells model.cells :=
      cells.flip.imp fun _ _ => Domain.SameLabels.symm
    exact Set.InvOn.bijOn ⟨fun _ inRange => (inRange.carried cells).2,
      fun _ inRange => (inRange.carried back).2⟩
      (fun _ inRange => (inRange.carried cells).1) fun _ inRange => (inRange.carried back).1
  check _ inRange := built.check_carried alike inRange compares

/-- In whatever order its arrays are declared and its labels listed, a puzzle is as solvable, when
none of its tests fails.  Labels may change their places as long as only cells over one domain are
compared by them. -/
theorem solvable_in_any_presentation (done : build puzzle = .ok model)
    (distinct : ∀ domain ∈ puzzle.domains, domain.labels.Nodup)
    (decides : ∀ rule ∈ puzzle.rules, model.Decides rule) :
    (∀ declarations, puzzle.declarations.Perm declarations →
      ∃ twin, build (puzzle.redeclared declarations) = .ok twin ∧ model.EquallySolvable twin) ∧
    ∀ order : Domain → List String,
      (∀ domain ∈ puzzle.domains, domain.labels.Perm (order domain)) →
      (∀ rule ∈ puzzle.rules, model.ComparesAlike rule) →
        ∃ twin, build (puzzle.relabelled order) = .ok twin ∧ model.EquallySolvable twin := by
  have built := builtFrom_of_build done
  rw [← built.rules] at decides
  have checks : ∀ assignment ∈ model.assignments, ∃ result, model.check assignment = .ok result :=
    fun assignment _ => check_ok_of_decides decides assignment
  constructor
  · intro declarations perm
    exact built.equallySolvable_redeclared checks perm
  · intro order perms compares
    have twinBuilt := built.relabelled perms
    have alike : ∀ domain ∈ puzzle.domains, domain.SameLabels (domain.relabelled order) :=
      fun domain member => ⟨distinct domain member, perms domain member⟩
    exact ⟨_, build_of_builtFrom twinBuilt,
      (built.mirrors_relabelled alike compares).equallySolvable built twinBuilt checks⟩

/-- Two lanterns of different colors and a shade.  The first lantern has the color of the shade,
and a large lantern is not red. -/
def lanternPuzzle : Puzzle where
  file := none
  domains := [⟨"Color", ["red", "green", "blue"]⟩, ⟨"Size", ["small", "large"]⟩]
  schemas := [⟨"Lantern", [⟨"Color", "color", true⟩, ⟨"Size", "size", false⟩]⟩]
  declarations := [⟨"L", "Lantern", some 2, ⟨0, 0⟩⟩, ⟨"Shade", "Color", none, ⟨0, 0⟩⟩]
  rules := [
    ⟨⟨⟨"L", [.index 0, .field "color"], ⟨0, 0⟩⟩, false, ⟨"Shade", [.index 0], ⟨0, 0⟩⟩⟩, []⟩,
    ⟨⟨⟨"L", [.field "size"], ⟨0, 0⟩⟩, false, ⟨"large", [], ⟨0, 0⟩⟩⟩,
      [⟨⟨"L", [.field "color"], ⟨0, 0⟩⟩, true, ⟨"red", [], ⟨0, 0⟩⟩⟩]⟩]

def lanternArray : RecordArray where
  name := "L"
  schema := ⟨"Lantern", [⟨"Color", "color", true⟩, ⟨"Size", "size", false⟩]⟩
  fields := [("color", ⟨"Color", ⟨"Color", ["red", "green", "blue"]⟩⟩),
    ("size", ⟨"Size", ⟨"Size", ["small", "large"]⟩⟩)]
  size := 2

def lanternModel : Model where
  file := none
  domains := lanternPuzzle.domains
  schemas := lanternPuzzle.schemas
  scalars := [⟨"Shade", ⟨"Color", ⟨"Color", ["red", "green", "blue"]⟩⟩, 1⟩]
  records := [lanternArray]
  rules := lanternPuzzle.rules
  cells := ⟨"Color", ⟨"Color", ["red", "green", "blue"]⟩⟩ :: lanternArray.cells
  peers := [[], [3], [], [1], []]

theorem solvable_lanternPuzzle :
    build lanternPuzzle = .ok lanternModel ∧
      (∀ rule ∈ lanternPuzzle.rules, lanternModel.Decides rule) ∧
      (∀ rule ∈ lanternPuzzle.rules, lanternModel.ComparesAlike rule) ∧
      (∃ twin, build (lanternPuzzle.redeclared lanternPuzzle.declarations.reverse) = .ok twin ∧
        lanternModel.EquallySolvable twin) ∧
      ∃ twin, build (lanternPuzzle.relabelled fun domain => domain.labels.reverse) = .ok twin ∧
        lanternModel.EquallySolvable twin := by
  have done : build lanternPuzzle = .ok lanternModel := by rfl
  have distinct : ∀ domain ∈ lanternPuzzle.domains, domain.labels.Nodup := by decide
  have spellable : ∀ rule ∈ lanternPuzzle.rules, rule.Spellable := by decide
  have resolving : ∀ rule ∈ lanternPuzzle.rules, lanternModel.LeftResolves rule := by
    refine List.forall_mem_cons.mpr ⟨⟨1, rfl⟩, List.forall_mem_singleton.mpr ?_⟩
    change ∀ index < 2, ∀ comparison ∈ _, lanternModel.Resolves (some ⟨"L", (index : Nat)⟩) _
    decide
  have compares : ∀ rule ∈ lanternPuzzle.rules, lanternModel.ComparesAlike rule := by
    refine List.forall_mem_cons.mpr ⟨?_, List.forall_mem_singleton.mpr ?_⟩
    · change lanternModel.JoinsAlike none _
      decide
    · change ∀ index < 2, ∀ comparison ∈ _, lanternModel.JoinsAlike (some ⟨"L", (index : Nat)⟩) _
      decide
  have decides : ∀ rule ∈ lanternPuzzle.rules, lanternModel.Decides rule := fun rule member =>
    decides_of_spellable (spellable rule member) (resolving rule member)
  obtain ⟨redeclared, relabelled⟩ := solvable_in_any_presentation done distinct decides
  exact ⟨done, decides, compares, redeclared _ (List.reverse_perm _).symm,
    relabelled _ (fun domain _ => (List.reverse_perm domain.labels).symm) compares⟩

end Model

end LogicPuzzle
