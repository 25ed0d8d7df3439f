import LogicPuzzle.Proofs.CanonicalText
import Mathlib.Data.Set.Card

/-!
# Open levels

The levels that are open behind some lines are the widths that can be seen from
there: a line is seen when no line behind it stands less deep.  A line fits
behind others when its width is a whole number of steps and, if it stands less
deep than the line before it, is zero or that of a line that can be seen.  The
scanner's levels are measured against this rule.
-/

namespace LogicPuzzle

/-! ## The offside rule -/

/-- A width is seen from behind some lines, given by their widths: one of them stands there, and
no line behind it stands less deep. -/
def Sees (widths : List Nat) (width : Nat) : Prop :=
  ∃ before between, widths = before ++ width :: between ∧ ∀ other ∈ between, width ≤ other

def FitsBehind (widths : List Nat) (width : Nat) : Prop :=
  width % Fault.indentStep = 0 ∧
    ∀ last ∈ widths.getLast?, width < last → width = 0 ∨ Sees widths width

/-- What is wrong with a line that does not fit: it is no whole number of steps wide, or else it
falls short of a level without reaching the next one that can be seen. -/
inductive Misfits (widths : List Nat) (width : Nat) : Fault → Prop where
  | uneven (odd : width % Fault.indentStep ≠ 0) : Misfits widths width (.unevenIndentation width)
  | unmatched {level : Nat} (even : width % Fault.indentStep = 0) (seen : Sees widths level)
      (lower : level < width)
      (nearest : ∀ other, Sees widths other → other ≤ width → other ≤ level) :
      Misfits widths width (.unmatchedIndentation level width)

theorem sees_last (widths : List Nat) (width : Nat) : Sees (widths ++ [width]) width :=
  ⟨widths, [], rfl, List.forall_mem_nil _⟩

/-- One more line hides what stands deeper. -/
theorem sees_append {widths : List Nat} {width level : Nat} :
    Sees (widths ++ [width]) level ↔ level = width ∨ Sees widths level ∧ level ≤ width := by
  constructor
  · rintro ⟨before, between, same, deeper⟩
    rcases List.eq_nil_or_concat between with rfl | ⟨others, last, rfl⟩
    · obtain ⟨_, ends⟩ := List.append_inj' same rfl
      exact .inl (List.singleton_inj.mp ends).symm
    · rw [List.concat_eq_append] at same deeper
      rw [← List.cons_append, ← List.append_assoc] at same
      obtain ⟨rfl, ends⟩ := List.append_inj' same rfl
      obtain rfl := List.singleton_inj.mp ends
      refine .inr ⟨⟨before, others, rfl, ?_⟩, ?_⟩
      · exact fun other member => deeper other (List.mem_append_left _ member)
      · exact deeper width (List.mem_append_right _ List.mem_cons_self)
  · rintro (rfl | ⟨⟨before, between, rfl, deeper⟩, lower⟩)
    · exact sees_last widths level
    · refine ⟨before, between ++ [width], ?_, ?_⟩
      · rw [List.append_assoc, List.cons_append]
      · exact List.forall_mem_append.mpr ⟨deeper, List.forall_mem_singleton.mpr lower⟩

/-! ## The levels of the scanner -/

/-- Levels that are open behind lines of some widths: the innermost one first, they are the widths
that can be seen. -/
structure OpenBehind (levels widths : List Nat) : Prop where
  falling : levels.Pairwise (· > ·)
  innermost : levels.head? = widths.getLast?
  margin : 0 ∈ levels
  seen : ∀ level, level ∈ levels ↔ Sees widths level

theorem openBehind_margin : OpenBehind [0] [0] where
  falling := List.pairwise_singleton _ _
  innermost := rfl
  margin := List.mem_cons_self
  seen level := by
    constructor
    · intro member
      rw [List.mem_singleton.mp member]
      exact sees_last [] 0
    · rintro ⟨before, between, same, _⟩
      rw [same]
      exact List.mem_append_right _ List.mem_cons_self

/-- The levels that a line of a width leaves open. -/
theorem mem_dropWhile_deeper {levels : List Nat} (falling : levels.Pairwise (· > ·))
    (width level : Nat) :
    level ∈ levels.dropWhile (fun (outer : Nat) => decide ((width : Int) < outer)) ↔
      level ∈ levels ∧ level ≤ width := by
  induction levels with
  | nil => simp
  | cons inner outer ih =>
      obtain ⟨deepest, others⟩ := List.pairwise_cons.mp falling
      rcases Nat.lt_or_ge width inner with closes | stays
      · simp only [List.dropWhile_cons, Int.ofNat_lt, closes, decide_true, if_true] at ih ⊢
        rw [ih others, List.mem_cons]
        constructor
        · exact fun ⟨member, lower⟩ => ⟨.inr member, lower⟩
        · rintro ⟨rfl | member, lower⟩
          · omega
          · exact ⟨member, lower⟩
      · simp only [List.dropWhile_cons, Int.ofNat_lt, Nat.not_lt.mpr stays, decide_false,
          Bool.false_eq_true, if_false]
        constructor
        · intro member
          refine ⟨member, ?_⟩
          rcases List.mem_cons.mp member with rfl | below
          · exact stays
          · exact (Nat.le_of_lt (deepest level below)).trans stays
        · exact And.left

namespace OpenBehind

variable {levels widths : List Nat} {line width : Nat}

/-- The open blocks are the positive widths that can be seen. -/
theorem ncard_eq (opened : OpenBehind levels widths) :
    {level | 0 < level ∧ Sees widths level}.ncard + 1 = levels.length := by
  have blocks : {level | 0 < level ∧ Sees widths level} =
      (levels.toFinset.erase 0 : Finset Nat) := by
    ext level
    simp only [Set.mem_ofPred_eq, Finset.coe_erase, List.coe_toFinset, Set.mem_sdiff,
      Set.mem_singleton_iff, opened.seen, Nat.pos_iff_ne_zero]
    exact and_comm
  have nodup : levels.Nodup := opened.falling.imp fun lower => Nat.ne_of_gt lower
  rw [blocks, Set.ncard_coe_finset, Finset.card_erase_add_one (List.mem_toFinset.mpr opened.margin),
    List.toFinset_card_of_nodup nodup]

theorem ofWidth_uneven (odd : width % Fault.indentStep ≠ 0) :
    Shift.ofWidth line levels width =
      ⟨[], levels, some (Shift.unplaced (.unevenIndentation width))⟩ := by
  unfold Shift.ofWidth
  rw [if_pos]
  exact fun even => odd (by exact_mod_cast even)

theorem ofWidth_deeper (even : width % Fault.indentStep = 0) (inner : Nat) (outer : List Nat)
    (deeper : inner < width) :
    Shift.ofWidth line (inner :: outer) width =
      ⟨[Token.indent line], width :: inner :: outer, none⟩ := by
  unfold Shift.ofWidth
  rw [if_neg (not_not.mpr (by exact_mod_cast even))]
  simp only [if_pos (Int.ofNat_lt.mpr deeper), Int.toNat_natCast]

theorem ofWidth_level (even : width % Fault.indentStep = 0) {inner : Nat} {outer : List Nat}
    (level : width ≤ inner) :
    Shift.ofWidth line (inner :: outer) width = Shift.closing line (inner :: outer) width := by
  unfold Shift.ofWidth
  rw [if_neg (not_not.mpr (by exact_mod_cast even))]
  simp only [if_neg (Int.not_lt.mpr (Int.ofNat_le.mpr level))]

/-- Among the levels that a line leaves open, the innermost one is the nearest below it. -/
theorem exists_nearest (opened : OpenBehind levels widths) (width : Nat) :
    ∃ level outer,
      levels.dropWhile (fun (other : Nat) => decide ((width : Int) < other)) = level :: outer ∧
      Sees widths level ∧ level ≤ width ∧
      ∀ other, Sees widths other → other ≤ width → other ≤ level := by
  have stays := mem_dropWhile_deeper opened.falling width
  have falling := opened.falling.sublist
    (List.dropWhile_sublist fun (other : Nat) => decide ((width : Int) < other))
  cases left : levels.dropWhile fun (other : Nat) => decide ((width : Int) < other) with
  | nil =>
      have margin := (stays 0).mpr ⟨opened.margin, Nat.zero_le width⟩
      rw [left] at margin
      cases margin
  | cons level outer =>
      rw [left] at stays falling
      obtain ⟨member, lower⟩ := (stays level).mp List.mem_cons_self
      refine ⟨level, outer, rfl, (opened.seen level).mp member, lower, ?_⟩
      intro other seen below
      have among := (stays other).mpr ⟨(opened.seen other).mpr seen, below⟩
      rcases List.mem_cons.mp among with rfl | further
      · exact Nat.le_refl other
      · exact Nat.le_of_lt ((List.pairwise_cons.mp falling).1 other further)

theorem deepen (opened : OpenBehind levels widths) (deeper : ∀ level ∈ levels, level < width) :
    OpenBehind (width :: levels) (widths ++ [width]) where
  falling := List.pairwise_cons.mpr ⟨deeper, opened.falling⟩
  innermost := (List.getLast?_concat ..).symm
  margin := List.mem_cons_of_mem _ opened.margin
  seen level := by
    rw [List.mem_cons, sees_append, opened.seen]
    refine or_congr_right ⟨fun seen => ⟨seen, ?_⟩, And.left⟩
    exact Nat.le_of_lt (deeper level ((opened.seen level).mpr seen))

theorem level (opened : OpenBehind levels widths) (stands : Sees widths width) {outer : List Nat}
    (left : levels.dropWhile (fun (other : Nat) => decide ((width : Int) < other)) =
      width :: outer) :
    OpenBehind (width :: outer) (widths ++ [width]) where
  falling := left ▸ opened.falling.sublist (List.dropWhile_sublist _)
  innermost := (List.getLast?_concat ..).symm
  margin := left ▸ (mem_dropWhile_deeper opened.falling width 0).mpr
    ⟨opened.margin, Nat.zero_le width⟩
  seen level := by
    rw [← left, mem_dropWhile_deeper opened.falling, sees_append, opened.seen]
    constructor
    · exact .inr
    · rintro (rfl | found)
      · exact ⟨stands, Nat.le_refl level⟩
      · exact found

/-- A line that fits keeps the open levels those that can be seen. -/
theorem ofWidth_fits (opened : OpenBehind levels widths) (fits : FitsBehind widths width) :
    (Shift.ofWidth line levels width).failure = none ∧
      OpenBehind (Shift.ofWidth line levels width).levels (widths ++ [width]) := by
  obtain ⟨even, reaches⟩ := fits
  obtain ⟨inner, outer, rfl⟩ := List.exists_cons_of_ne_nil (List.ne_nil_of_mem opened.margin)
  rcases Nat.lt_or_ge inner width with deeper | lower
  · rw [ofWidth_deeper even inner outer deeper]
    refine ⟨rfl, opened.deepen (List.forall_mem_cons.mpr ⟨deeper, ?_⟩)⟩
    intro level member
    exact ((List.pairwise_cons.mp opened.falling).1 level member).trans deeper
  · have stands : Sees widths width := by
      rcases Nat.eq_or_lt_of_le lower with rfl | less
      · exact (opened.seen width).mp List.mem_cons_self
      · rcases reaches inner opened.innermost.symm less with rfl | seen
        · exact (opened.seen 0).mp opened.margin
        · exact seen
    obtain ⟨level, left, drops, _, below, nearest⟩ := opened.exists_nearest width
    obtain rfl := Nat.le_antisymm below (nearest width stands (Nat.le_refl width))
    have closes : Shift.closing line (inner :: outer) level =
        ⟨((inner :: outer).takeWhile fun (other : Nat) => decide ((level : Int) < other)).map
          fun _ => Token.dedent line, level :: left, none⟩ := by
      rw [Shift.closing, drops]
      exact if_pos rfl
    rw [ofWidth_level even lower, closes]
    exact ⟨rfl, opened.level stands drops⟩

/-- A line that does not fit is rejected, for what is wrong with it. -/
theorem ofWidth_misfits (opened : OpenBehind levels widths) (unfit : ¬ FitsBehind widths width) :
    ∃ cause, (Shift.ofWidth line levels width).failure = some (Shift.unplaced cause) ∧
      Misfits widths width cause := by
  rcases ne_or_eq (width % Fault.indentStep) 0 with odd | even
  · exact ⟨_, by rw [ofWidth_uneven odd], .uneven odd⟩
  · rw [FitsBehind, not_and] at unfit
    have short := unfit even
    push Not at short
    obtain ⟨last, isLast, less, _, hidden⟩ := short
    obtain ⟨inner, outer, rfl⟩ := List.exists_cons_of_ne_nil (List.ne_nil_of_mem opened.margin)
    obtain rfl := Option.some.inj (isLast.symm.trans opened.innermost.symm)
    obtain ⟨level, left, drops, seen, below, nearest⟩ := opened.exists_nearest width
    have lower : level ≠ width := fun same => hidden (same ▸ seen)
    refine ⟨.unmatchedIndentation level width, ?_, .unmatched even seen ?_ nearest⟩
    · rw [ofWidth_level even less.le, Shift.closing, drops]
      simp only [if_neg (mt Int.ofNat_inj.mp lower)]
    · exact Nat.lt_of_le_of_ne below lower

end OpenBehind

/-! ## Counting blocks -/

/-- How many more blocks some tokens open than they close. -/
def balance (tokens : List Token) : Int :=
  tokens.countP (·.kind == .indent) - tokens.countP (·.kind == .dedent)

theorem balance_append (tokens others : List Token) :
    balance (tokens ++ others) = balance tokens + balance others := by
  simp only [balance, List.countP_append, Nat.cast_add]
  omega

theorem balance_nil : balance [] = 0 :=
  rfl

theorem balance_dedents (closed line : Nat) :
    balance (List.replicate closed (Token.dedent line)) = -closed := by
  simp [balance, Token.dedent, List.countP_replicate]

/-- Words and ends of lines neither open nor close a block. -/
theorem balance_of_level {tokens : List Token}
    (level : ∀ token ∈ tokens, token.kind ≠ .indent ∧ token.kind ≠ .dedent) :
    balance tokens = 0 := by
  have none (kind : Kind) (others : ∀ token ∈ tokens, token.kind ≠ kind) :
      tokens.countP (·.kind == kind) = 0 :=
    List.countP_eq_zero.mpr fun token member => by simpa using others token member
  rw [balance, none .indent fun token member => (level token member).1,
    none .dedent fun token member => (level token member).2]
  rfl

/-- The tokens of a line's indentation lead from the open levels to those behind the line. -/
theorem Shift.balance_ofWidth {line : Nat} {levels : List Nat} {width : Int}
    (proceeds : (ofWidth line levels width).failure = none) :
    levels.length + balance (ofWidth line levels width).tokens =
      (ofWidth line levels width).levels.length := by
  rcases ofWidth_cases proceeds with ⟨_, level, indents⟩ | ⟨closed, level, outer, rfl, closes⟩
  · rw [indents]
    rfl
  · rw [closes, balance_dedents]
    simp only [List.length_append, Nat.cast_add]
    omega

/-- A line opens at most one block. -/
theorem Shift.indents_ofWidth {line : Nat} {levels : List Nat} {width : Int} :
    (ofWidth line levels width).tokens.countP (·.kind == .indent) ≤ 1 := by
  unfold ofWidth
  split
  · exact Nat.zero_le 1
  · split
    · exact Nat.zero_le 1
    · split
      · exact Nat.le_refl 1
      · rw [List.countP_eq_zero.mpr]
        · exact Nat.zero_le 1
        · intro token member
          rw [mem_closing member]
          exact Bool.false_ne_true

end LogicPuzzle
