import LogicPuzzle.Proofs.SearchEnd

/-!
# Searches of twin models

Two models are twins when their cells have the same sizes and their checks agree
about every assignment, up to the words of a fault.  A search of one then takes
the same steps as a search of the other, and both end at the same assignment.
-/

namespace LogicPuzzle

namespace Model

/-- The cells of the other model have the same sizes, and its check says the same about every
assignment, with other words for what is unresolved. -/
structure Twin (translate : Unresolved → Unresolved) (model other : Model) : Prop where
  sizes : other.cells.map Cell.size = model.cells.map Cell.size
  checks : ∀ assignment, other.check assignment = (model.check assignment).mapError translate

/-- Tests that agree one by one agree together. -/
theorem allM_mapError {ε α β : Type} {translate : ε → ε} {test : α → Except ε Bool}
    {twin : β → Except ε Bool} {elements : List α} {others : List β}
    (agree : List.Forall₂ (fun element other => twin other = (test element).mapError translate)
      elements others) : others.allM twin = (elements.allM test).mapError translate := by
  induction agree with
  | nil => rfl
  | @cons element other _ _ same _ ih =>
      rw [List.allM_cons, List.allM_cons, same]
      cases test element with
      | error unresolved => rfl
      | ok passed =>
          cases passed with
          | true => exact ih
          | false => rfl

theorem mapError_id {ε α : Type} (result : Except ε α) : result.mapError id = result := by
  cases result <;> rfl

theorem allM_forall₂ {ε α β : Type} {test : α → Except ε Bool} {twin : β → Except ε Bool}
    {elements : List α} {others : List β}
    (agree : List.Forall₂ (fun element other => twin other = test element) elements others) :
    others.allM twin = elements.allM test := by
  rw [← mapError_id (elements.allM test)]
  exact allM_mapError (agree.imp fun _ _ same => same.trans (mapError_id _).symm)

end Model

namespace Search

def inModel (search : Search) (other : Model) : Search :=
  { search with model := other }

variable {translate : Unresolved → Unresolved} {model other : Model} {search : Search}

/-- How the odometer turns depends on the sizes of the cells alone. -/
theorem turn_congr {cells others : List Cell}
    (sizes : others.map Cell.size = cells.map Cell.size) (assignment : Assignment) :
    turn others assignment = turn cells assignment := by
  induction cells generalizing others assignment with
  | nil =>
      obtain rfl := List.map_eq_nil_iff.mp sizes
      rfl
  | cons cell cells ih =>
      cases others with
      | nil => cases sizes
      | cons twin others =>
          obtain ⟨same, rest⟩ := List.cons.inj sizes
          cases assignment with
          | nil => rfl
          | cons place places =>
              have size : twin.size = cell.size := same
              simp only [turn, size, ih rest]

theorem advance_inModel (twin : model.Twin translate other) (same : search.model = model) :
    (search.inModel other).advance = (search.advance.1, search.advance.2.inModel other) := by
  have turned : turn other.cells search.assignment = turn search.model.cells search.assignment :=
    same ▸ turn_congr twin.sizes search.assignment
  simp only [advance, inModel, turned]

theorem check_inModel (twin : model.Twin translate other) (same : search.model = model) :
    (search.inModel other).check = search.check.mapError translate := by
  rw [check, check, same]
  exact twin.checks search.assignment

/-- Each test and each step of one search is one of the other search. -/
theorem seek_inModel (twin : model.Twin translate other) (same : search.model = model)
    (limit : Option Int) (bound : Nat) :
    seek limit bound (search.inModel other) =
      ((seek limit bound search).1.mapError translate,
        (seek limit bound search).2.inModel other) := by
  induction bound generalizing search with
  | zero => rfl
  | succ bound ih =>
      have counted : (search.inModel other).count = search.count.inModel other := rfl
      have stands : search.count.model = model := same
      rw [seek, seek, check_inModel twin same, counted, advance_inModel twin stands]
      by_cases reached : (limit.any fun most => most ≤ search.iterations) = true
      · rw [if_pos reached]
        exact if_pos reached
      · rw [if_neg reached]
        refine (if_neg reached).trans ?_
        cases search.check with
        | error unresolved => rfl
        | ok accepted =>
            cases accepted with
            | true => rfl
            | false =>
                cases advanced : search.count.advance with
                | mk moved next =>
                    cases moved with
                    | true => exact ih ((model_of_advance advanced).trans same)
                    | false => rfl

end Search

namespace Model

open Search

variable {translate : Unresolved → Unresolved} {model other : Model}

theorem Twin.searchSpace_eq (twin : model.Twin translate other) :
    other.searchSpace = model.searchSpace := by
  have product (cells : List Cell) :
      cells.foldr (fun cell count => cell.size * count) 1 = (cells.map Cell.size).prod := by
    rw [List.prod_eq_foldr, List.foldr_map]
  rw [searchSpace, searchSpace, product, product, twin.sizes]

theorem Twin.ofModel_eq (twin : model.Twin translate other) :
    ofModel other = (ofModel model).inModel other := by
  have zeros (cells : List Cell) :
      (cells.map fun _ => (0 : Int)) = (cells.map Cell.size).map fun _ => 0 := by
    rw [List.map_map]
    rfl
  rw [ofModel, zeros, twin.sizes, ← zeros]
  rfl

/-- Searches of twins end alike, as far as their outcomes show the same. -/
theorem Twin.solve_eq (twin : model.Twin translate other) {image : Outcome → Outcome}
    (shows : ∀ (search : Search) (status : Status), search.model = model →
      (search.inModel other).outcome status = image (search.outcome status)) (limit : Option Int) :
    other.solve limit = ((model.solve limit).map image).mapError translate := by
  have stands := model_seek (effectiveLimit limit) model.searchSpace (ofModel model)
  have starts : (ofModel model).model = model := rfl
  have both := seek_inModel twin starts (effectiveLimit limit) model.searchSpace
  cases ended : seek (effectiveLimit limit) model.searchSpace (ofModel model) with
  | mk result last =>
      rw [ended] at stands both
      rw [← twin.ofModel_eq, ← twin.searchSpace_eq] at both
      rw [solve_of_seek ended, solve_of_seek both]
      cases result with
      | error unresolved => rfl
      | ok status => exact congrArg Except.ok (shows last status stands)

end Model

end LogicPuzzle
