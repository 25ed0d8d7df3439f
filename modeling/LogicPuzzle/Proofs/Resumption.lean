import LogicPuzzle.Proofs.Stepping

/-!
# Searches that are resumed

A search that comes to its limit stands at the first assignment that it has not
tested.  Whoever tests and advances by hand from there ends where a search
without a limit ends, after the tests that were left.  A limit that a search
does not come to makes no difference to it.
-/

namespace LogicPuzzle

/-- How a search ends that has made its last test. -/
def Status.ofVerdict (accepted : Bool) : Status :=
  if accepted then .solved else .noSolution

namespace Search

/-- Testing the current assignment by hand and, while the check refuses it, advancing to the next
one: the number of tests, what the last of them says, and the search that is left behind. -/
inductive Tests : Search → Nat → Except Unresolved Bool → Search → Prop where
  | unrefused {search : Search} {verdict : Except Unresolved Bool}
      (tested : search.check = verdict) (ends : verdict ≠ .ok false) :
      Tests search 1 verdict search
  | last {search final : Search} (refused : search.check = .ok false)
      (ended : search.advance = (false, final)) : Tests search 1 (.ok false) final
  | next {search following final : Search} {count : Nat} {verdict : Except Unresolved Bool}
      (refused : search.check = .ok false) (moved : search.advance = (true, following))
      (others : Tests following count verdict final) : Tests search (count + 1) verdict final

def counting (search : Search) (tests : Int) : Search :=
  { search with iterations := tests }

variable {model : Model} {puzzle : Puzzle} {search following stopped final other : Search}
  {count others bound : Nat} {verdict otherwise : Except Unresolved Bool} {limit : Option Int}

/-! ## What is counted makes no difference -/

theorem counting_zero_ofModel (model : Model) :
    (ofModel model).counting (0 : Nat) = ofModel model := rfl

theorem check_counting (search : Search) (tests : Int) :
    (search.counting tests).check = search.check := rfl

theorem advance_counting (search : Search) (tests : Int) :
    (search.counting tests).advance = (search.advance.1, search.advance.2.counting tests) := rfl

theorem advance_counting_of_eq {moved : Bool} (advanced : search.advance = (moved, following))
    (tests : Int) : (search.counting tests).advance = (moved, following.counting tests) := by
  rw [advance_counting, advanced]

theorem Tests.counting (made : Tests search count verdict final) (tests : Int) :
    Tests (search.counting tests) count verdict (final.counting tests) := by
  induction made with
  | unrefused tested ends => exact .unrefused tested ends
  | last refused ended => exact .last refused (advance_counting_of_eq ended tests)
  | next refused moved _ ih => exact .next refused (advance_counting_of_eq moved tests) ih

/-! ## Testing by hand -/

theorem Tests.unique (made : Tests search count verdict final)
    (again : Tests search others otherwise other) :
    count = others ∧ verdict = otherwise ∧ final = other := by
  induction made generalizing others with
  | unrefused tested ends =>
      cases again with
      | unrefused tested' _ => exact ⟨rfl, tested.symm.trans tested', rfl⟩
      | last refused _ => exact absurd (tested.symm.trans refused) ends
      | next refused _ _ => exact absurd (tested.symm.trans refused) ends
  | last refused ended =>
      cases again with
      | unrefused tested ends => exact absurd (tested.symm.trans refused) ends
      | last _ ended' =>
          rw [ended] at ended'
          exact ⟨rfl, rfl, (Prod.mk.inj ended').2⟩
      | next _ moved _ =>
          rw [ended] at moved
          cases moved
  | next refused moved _ ih =>
      cases again with
      | unrefused tested ends => exact absurd (tested.symm.trans refused) ends
      | last _ ended =>
          rw [moved] at ended
          cases ended
      | next _ moved' made' =>
          rw [moved] at moved'
          obtain ⟨_, rfl⟩ := Prod.mk.inj moved'
          obtain ⟨rfl, rfl, rfl⟩ := ih made'
          exact ⟨rfl, rfl, rfl⟩

/-- Testing by hand comes to an end, before more assignments are tested than there are from the
current one on. -/
theorem Within.exists_tests (built : model.BuiltFrom puzzle) (within : search.Within model) :
    ∃ count verdict final, Tests search count verdict final ∧
      count + search.rank ≤ model.searchSpace := by
  have below := within.rank_lt
  obtain ⟨left, size⟩ : ∃ left, search.rank + 1 + left = model.searchSpace :=
    Nat.exists_eq_add_of_le below |>.imp fun _ same => same.symm
  induction left generalizing search with
  | zero =>
      by_cases refused : search.check = .ok false
      · exact ⟨1, _, _, .last refused (within.advance_last size), by omega⟩
      · exact ⟨1, _, _, .unrefused rfl refused, by omega⟩
  | succ left ih =>
      by_cases refused : search.check = .ok false
      · have more : search.rank + 1 < model.searchSpace := by omega
        have moved := within.advance_of_lt more
        have following : Within search.advance.2 model := within.advance built
        have rank : search.advance.2.rank = search.rank + 1 := by
          rw [moved, Search.rank, within.model_eq]
          exact Odometer.rank_places more
        obtain ⟨count, verdict, final, made, enough⟩ :=
          ih following following.rank_lt (by omega)
        rw [moved] at made
        exact ⟨count + 1, verdict, final, .next refused moved made, by omega⟩
      · exact ⟨1, _, _, .unrefused rfl refused, by omega⟩

/-! ## Limits -/

/-- Within its limit a search makes one test more. -/
theorem seek_counting {tests : Nat} (allowed : (tests : ℕ∞) < allowance limit) (search : Search)
    (bound : Nat) :
    seek (effectiveLimit limit) (bound + 1) (search.counting tests) =
      match search.check with
      | .error unresolved => (.error unresolved, search.counting (tests + 1 : Nat))
      | .ok true => (.ok .solved, search.counting (tests + 1 : Nat))
      | .ok false =>
          match search.advance with
          | (true, next) => seek (effectiveLimit limit) bound (next.counting (tests + 1 : Nat))
          | (false, last) => (.ok .noSolution, last.counting (tests + 1 : Nat)) := by
  have counted : (search.counting tests).count = search.counting (tests + 1 : Nat) := rfl
  rw [seek_allowed rfl allowed, check_counting, counted]
  cases advanced : search.advance with
  | mk moved following =>
      simp only [advance_counting_of_eq advanced]
      cases moved <;> rfl

/-- A search whose limit allows all tests that are made by hand ends as they do. -/
theorem seek_of_tests (made : Tests search count verdict final) {tests : Nat}
    (allowed : ((tests + count : Nat) : ℕ∞) ≤ allowance limit) (enough : count ≤ bound) :
    seek (effectiveLimit limit) bound (search.counting tests) =
      (verdict.map Status.ofVerdict, final.counting (tests + count : Nat)) := by
  have begins {tests more : Nat} (allowed : ((tests + (more + 1) : Nat) : ℕ∞) ≤ allowance limit) :
      (tests : ℕ∞) < allowance limit :=
    lt_of_lt_of_le (Nat.cast_lt.mpr (Nat.lt_add_of_pos_right more.succ_pos)) allowed
  induction made generalizing tests bound with
  | @unrefused search verdict tested ends =>
      obtain ⟨room, rfl⟩ := Nat.exists_eq_add_of_le' enough
      rw [seek_counting (begins allowed), tested]
      cases verdict with
      | error unresolved => rfl
      | ok accepted =>
          cases accepted with
          | true => rfl
          | false => exact absurd rfl ends
  | last refused ended =>
      obtain ⟨room, rfl⟩ := Nat.exists_eq_add_of_le' enough
      rw [seek_counting (begins allowed), refused]
      simp only [ended]
      rfl
  | @next _ _ _ count _ refused moved _ ih =>
      obtain ⟨room, rfl⟩ := Nat.exists_eq_add_of_le' enough
      have total : tests + (count + 1) = tests + 1 + count := by omega
      rw [← Nat.add_assoc, seek_counting (begins allowed), refused]
      simp only [moved]
      rw [total] at allowed ⊢
      exact ih allowed (by omega)

/-- A search whose limit comes before the last test ends at the limit. -/
theorem seek_of_tests_limited (made : Tests search count verdict final) {tests most : Nat}
    (limited : allowance limit = most) (begun : tests ≤ most) (less : most < tests + count)
    (enough : count ≤ bound) :
    (seek (effectiveLimit limit) bound (search.counting tests)).1 = .ok .aborted := by
  induction made generalizing tests bound with
  | unrefused _ _ =>
      obtain ⟨room, rfl⟩ := Nat.exists_eq_add_of_le' enough
      obtain rfl : tests = most := by omega
      rw [seek_reached rfl limited.le]
  | last _ _ =>
      obtain ⟨room, rfl⟩ := Nat.exists_eq_add_of_le' enough
      obtain rfl : tests = most := by omega
      rw [seek_reached rfl limited.le]
  | @next _ _ _ count _ refused moved _ ih =>
      obtain ⟨room, rfl⟩ := Nat.exists_eq_add_of_le' enough
      rw [← Nat.add_assoc]
      rcases begun.eq_or_lt with rfl | more
      · rw [seek_reached rfl limited.le]
      · rw [seek_counting (limited ▸ Nat.cast_lt.mpr more), refused]
        simp only [moved]
        exact ih more (by omega) (by omega)

/-- What is tested by hand from the place where a search has come to its limit is what the search
had left to test. -/
theorem tests_of_seek_aborted {tests most : Nat} (limited : allowance limit = most)
    (begun : tests ≤ most)
    (aborted : seek (effectiveLimit limit) bound (search.counting tests) = (.ok .aborted, stopped))
    (made : Tests stopped count verdict final) :
    stopped.iterations = most ∧
      Tests search (most - tests + count) verdict (final.counting search.iterations) := by
  -- From the start of the search on: the tests that it makes come before those by hand.
  induction bound generalizing search tests with
  | zero => cases aborted
  | succ bound ih =>
      rcases begun.eq_or_lt with rfl | more
      · rw [seek_reached rfl limited.le] at aborted
        obtain ⟨_, rfl⟩ := Prod.mk.inj aborted
        rw [Nat.sub_self, Nat.zero_add]
        exact ⟨rfl, made.counting search.iterations⟩
      · rw [seek_counting (limited ▸ Nat.cast_lt.mpr more)] at aborted
        split at aborted
        · cases aborted
        · cases aborted
        · next refused =>
            split at aborted
            · next following moved =>
                obtain ⟨reached, tested⟩ := ih more aborted
                have total : most - tests + count = most - (tests + 1) + count + 1 := by omega
                rw [total]
                have same : following.iterations = search.iterations :=
                  (congrArg (fun advanced => advanced.2.iterations) moved).symm
                rw [same] at tested
                exact ⟨reached, .next refused moved tested⟩
            · cases aborted

theorem allowance_of_pos {cap : Int} (positive : 1 ≤ cap) : allowance (some cap) = cap.toNat := by
  rw [allowance, if_pos (by omega)]

/-! ## Whole searches -/

/-- What a search of a model says and leaves behind, wherever it stood before. -/
theorem solve_eq_of_seek (same : search.model = model) {result : Except Unresolved Status}
    (ended : seek (effectiveLimit limit) model.searchSpace ((ofModel model).counting (0 : Nat)) =
      (result, stopped)) : search.solve limit = (result.map stopped.outcome, stopped) := by
  rw [solve, Search.reset, same, ← counting_zero_ofModel, ended]

theorem seek_of_solve_aborted (same : search.model = model) {outcome : Outcome}
    (ended : search.solve limit = (.ok outcome, stopped)) (aborted : outcome.status = .aborted) :
    seek (effectiveLimit limit) model.searchSpace ((ofModel model).counting (0 : Nat)) =
      (.ok .aborted, stopped) := by
  obtain ⟨status, sought, rfl⟩ := seek_of_solve ended
  obtain rfl : status = .aborted := aborted
  rw [Search.reset, same] at sought
  exact sought

structure AllTests (model : Model) (count : Nat) (verdict : Except Unresolved Bool)
    (final : Search) : Prop where
  made : Tests (ofModel model) count verdict final
  enough : count ≤ model.searchSpace

theorem exists_allTests (built : model.BuiltFrom puzzle) :
    ∃ count verdict final, AllTests model count verdict final := by
  obtain ⟨count, verdict, final, made, enough⟩ := (within_ofModel built).exists_tests built
  exact ⟨count, verdict, final, made, Nat.le_of_add_right_le enough⟩

theorem AllTests.solve_eq (all : AllTests model count verdict final) (same : search.model = model)
    (allowed : (count : ℕ∞) ≤ allowance limit) :
    search.solve limit =
      ((verdict.map Status.ofVerdict).map (final.counting count).outcome,
        final.counting count) := by
  have ended : seek (effectiveLimit limit) model.searchSpace ((ofModel model).counting (0 : Nat)) =
      _ := seek_of_tests all.made (by rwa [Nat.zero_add]) all.enough
  rw [Nat.zero_add] at ended
  exact solve_eq_of_seek same ended

theorem AllTests.exists_aborted (all : AllTests model count verdict final)
    (same : search.model = model) {most : Nat} (limited : allowance limit = most)
    (less : most < count) :
    ∃ outcome, (search.solve limit).1 = .ok outcome ∧ outcome.status = .aborted := by
  have aborted := seek_of_tests_limited all.made limited (Nat.zero_le most) (by omega) all.enough
  cases sought : seek (effectiveLimit limit) model.searchSpace ((ofModel model).counting (0 : Nat))
  with
  | mk result last =>
      rw [sought] at aborted
      obtain rfl : result = .ok .aborted := aborted
      exact ⟨last.outcome .aborted, congrArg Prod.fst (solve_eq_of_seek same sought), rfl⟩

end Search

namespace Model

open Search

variable {model : Model} {puzzle : Puzzle}

/-- From where a search has come to its limit, testing and advancing by hand ends as a search
without a limit does, after the tests that this one makes beyond the limit.  A search that does
not come to its limit ends in the same way under every larger limit and without one. -/
theorem resumed_as_unlimited (done : build puzzle = .ok model) {search : Search}
    (same : search.model = model) :
    (∀ cap outcome stopped, 1 ≤ cap → search.solve (some cap) = (.ok outcome, stopped) →
      outcome.status = .aborted →
        ∃ count verdict final,
          (∀ others otherwise other, Tests stopped others otherwise other ↔
            others = count ∧ otherwise = verdict ∧ other = final) ∧
          search.solve none =
            ((verdict.map Status.ofVerdict).map (final.counting (cap + count)).outcome,
              final.counting (cap + count))) ∧
    ∀ cap most, 1 ≤ cap → cap ≤ most →
      (∀ outcome, (search.solve (some cap)).1 = .ok outcome → outcome.status ≠ .aborted) →
        search.solve (some most) = search.solve (some cap) ∧
          search.solve none = search.solve (some cap) := by
  have built := builtFrom_of_build done
  obtain ⟨total, verdict, final, all⟩ := exists_allTests built
  constructor
  · intro cap outcome stopped positive ended aborted
    have sought := seek_of_solve_aborted same ended aborted
    have stands : stopped.Within model := by
      have left := (within_ofModel built).seek built (effectiveLimit (some cap)) model.searchSpace
      rwa [← counting_zero_ofModel, sought] at left
    obtain ⟨count, further, last, made, _⟩ := stands.exists_tests built
    refine ⟨count, further, last, ?_, ?_⟩
    · intro others otherwise other
      constructor
      · intro again
        exact again.unique made
      · rintro ⟨rfl, rfl, rfl⟩
        exact made
    · obtain ⟨_, whole⟩ :=
        tests_of_seek_aborted (allowance_of_pos positive) (Nat.zero_le _) sought made
      obtain ⟨sum, rfl, rfl⟩ := all.made.unique whole
      have counted : (total : Int) = cap + count := by omega
      rw [← counted, all.solve_eq same le_top]
      rfl
  · intro cap most positive larger unaborted
    have allowed : (total : ℕ∞) ≤ allowance (some cap) := by
      rw [allowance_of_pos positive, Nat.cast_le]
      by_contra limited
      obtain ⟨outcome, ended, aborted⟩ :=
        all.exists_aborted same (allowance_of_pos positive) (by omega)
      exact unaborted outcome ended aborted
    have more : (total : ℕ∞) ≤ allowance (some most) := by
      rw [allowance_of_pos positive] at allowed
      rw [allowance_of_pos (positive.trans larger)]
      exact allowed.trans (Nat.cast_le.mpr (Int.toNat_le_toNat larger))
    rw [all.solve_eq same allowed, all.solve_eq same more, all.solve_eq same le_top]
    exact ⟨rfl, rfl⟩

/-- A search of `pairModel` that was moved on before comes to the limit of one test.  One test by
hand is left, and it accepts the second assignment. -/
theorem resumed_pairModel :
    build pairPuzzle = .ok pairModel ∧
      ((ofModel pairModel).after .advance).solve (some 1) =
        (.ok (unsolved pairPuzzle pairModel .aborted 1), atRank pairModel 1) ∧
      Tests (atRank pairModel 1) 1 (.ok true) (atRank pairModel 1) ∧
      ((ofModel pairModel).after .advance).solve none =
        (.ok ((endedAt pairModel 1).outcome .solved), endedAt pairModel 1) := by
  have done : build pairPuzzle = .ok pairModel := by rfl
  have aborted : ((ofModel pairModel).after .advance).solve (some 1) =
      (.ok (unsolved pairPuzzle pairModel .aborted 1), atRank pairModel 1) := by rfl
  have made : Tests (atRank pairModel 1) 1 (.ok true) (atRank pairModel 1) :=
    .unrefused rfl (by decide)
  have same : ((ofModel pairModel).after .advance).model = pairModel := rfl
  obtain ⟨count, verdict, final, tests, unlimited⟩ :=
    (resumed_as_unlimited done same).1 1 _ _ (by decide) aborted rfl
  obtain ⟨rfl, rfl, rfl⟩ := (tests _ _ _).mp made
  exact ⟨done, aborted, made, unlimited⟩

end Model

end LogicPuzzle
