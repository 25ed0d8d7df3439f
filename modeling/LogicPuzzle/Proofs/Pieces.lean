import LogicPuzzle.Proofs.Lowering
import Mathlib.Data.List.TakeWhile

/-!
# Pieces of a line

The pieces that a line is cut into hold no layout.  A piece stays the same when
other characters follow it, unless they prolong it.
-/

namespace LogicPuzzle

def Kind.isLayout : Kind → Bool
  | .newline => true
  | .indent => true
  | .dedent => true
  | _ => false

/-- Whether a character ends the piece before it, whatever that is. -/
def isNeutral (c : Char) : Bool :=
  !Text.isWordPart c && !Text.isDigit c && c != '>' && c != '='

/-- What comes next prolongs a piece no more than what came next before. -/
def Follows (rest other : List Char) : Prop :=
  ∀ c ∈ other.head?, isNeutral c = true ∨ c ∈ rest.head?

theorem Follows.stops {rest other : List Char} {p : Char → Bool} (follows : Follows rest other)
    (neutral : ∀ c, isNeutral c = true → p c = false) (stops : ∀ c ∈ rest.head?, p c = false) :
    ∀ c ∈ other.head?, p c = false := by
  intro c next
  rcases follows c next with ends | before
  · exact neutral c ends
  · exact stops c before

theorem Follows.head?_ne {rest other : List Char} {c : Char} (follows : Follows rest other)
    (prolongs : isNeutral c = false) (before : rest.head? ≠ some c) : other.head? ≠ some c := by
  intro next
  rcases follows c next with ends | same
  · rw [prolongs] at ends
    cases ends
  · exact before same

theorem head?_ne_of_cons {c : Char} {cs : List Char} (other : ∀ rest, cs ≠ c :: rest) :
    cs.head? ≠ some c := by
  intro next
  obtain ⟨rest, same⟩ := List.head?_eq_some_iff.mp next
  exact other rest same

theorem isWordPart_of_isNeutral {c : Char} (neutral : isNeutral c = true) :
    Text.isWordPart c = false := by
  simp only [isNeutral, Bool.and_eq_true, Bool.not_eq_true'] at neutral
  exact neutral.1.1.1

theorem isDigit_of_isNeutral {c : Char} (neutral : isNeutral c = true) :
    Text.isDigit c = false := by
  simp only [isNeutral, Bool.and_eq_true, Bool.not_eq_true'] at neutral
  exact neutral.1.1.2

theorem dropWhile_stops (p : Char → Bool) (cs : List Char) :
    ∀ c ∈ (cs.dropWhile p).head?, p c = false := by
  intro c next
  have none := List.head?_dropWhile_not p cs
  rw [Option.mem_def.mp next] at none
  exact none

theorem markKind?_isLayout {c : Char} {kind : Kind} (marked : markKind? c = some kind) :
    kind.isLayout = false := by
  unfold markKind? at marked
  split at marked
  all_goals first | cases marked; rfl | cases marked

theorem Kind.ofWord_isLayout (word : List Char) : (ofWord word).isLayout = false := by
  unfold ofWord
  split
  · rfl
  · split <;> rfl

namespace Piece

theorem startingWith?_isLayout {c : Char} {cs : List Char} {piece : Piece} {kind : Kind}
    (found : startingWith? c cs = some piece) (word : piece.kind = some kind) :
    kind.isLayout = false := by
  unfold startingWith? at found
  split at found
  · cases found
    cases word
  · split at found
    · next marked =>
        cases found
        cases word
        exact markKind?_isLayout marked
    · split at found
      · cases found
        cases word
        exact Kind.ofWord_isLayout _
      · split at found
        · cases found
          cases word
          rfl
        · cases found

/-- A piece is no layout. -/
theorem first?_isLayout {cs : List Char} {piece : Piece} {kind : Kind}
    (found : first? cs = some piece) (word : piece.kind = some kind) :
    kind.isLayout = false := by
  unfold first? at found
  split at found
  · cases found
  · cases found
    cases word
    rfl
  · cases found
    cases word
    rfl
  · exact startingWith?_isLayout found word

theorem startingWith?_replace {c : Char} {cs other : List Char} {piece : Piece}
    (found : startingWith? c cs = some piece) (follows : Follows piece.rest other) :
    ∃ others, piece.text = c :: others ∧
      startingWith? c (others ++ other) = some { piece with rest := other } := by
  unfold startingWith? at found ⊢
  split at found
  · next gap =>
      cases found
      exact ⟨[], rfl, if_pos gap⟩
  · next solid =>
      simp only [if_neg solid]
      split at found
      · next marked =>
          cases found
          exact ⟨[], rfl, rfl⟩
      · split at found
        · next start =>
            cases found
            obtain ⟨taken, dropped⟩ := takeWhile_stops
              (fun d member => List.mem_takeWhile_imp (p := Text.isWordPart) (l := cs) member)
              (follows.stops (fun d => isWordPart_of_isNeutral) (dropWhile_stops _ _))
            refine ⟨_, rfl, ?_⟩
            simp only [if_pos start, taken, dropped]
        · next noStart =>
            simp only [if_neg noStart]
            split at found
            · next digit =>
                cases found
                obtain ⟨taken, dropped⟩ := takeWhile_stops
                  (fun d member => List.mem_takeWhile_imp (p := Text.isDigit) (l := cs) member)
                  (follows.stops (fun d => isDigit_of_isNeutral) (dropWhile_stops _ _))
                refine ⟨_, rfl, ?_⟩
                simp only [if_pos digit, taken, dropped]
            · cases found

theorem startingWith?_none {c : Char} {cs : List Char} (unfound : startingWith? c cs = none)
    (other : List Char) : startingWith? c other = none := by
  unfold startingWith? at unfound ⊢
  split at unfound
  · cases unfound
  · next solid =>
      simp only [if_neg solid]
      split at unfound
      · cases unfound
      · split at unfound
        · cases unfound
        · next noStart =>
            split at unfound
            · cases unfound
            · next noDigit => simp only [if_neg noStart, if_neg noDigit]

/-- Only an arrow and a differs sign have two characters that are no words. -/
theorem first?_cons_of_head {c : Char} {rest : List Char}
    (noArrow : c = '=' → rest.head? ≠ some '>') (noDiffers : c = '!' → rest.head? ≠ some '=') :
    first? (c :: rest) = startingWith? c rest := by
  unfold first?
  split
  · contradiction
  · next same =>
      cases same
      exact absurd rfl (noArrow rfl)
  · next same =>
      cases same
      exact absurd rfl (noDiffers rfl)
  · next same =>
      cases same
      rfl

theorem startingWith?_bang (cs : List Char) : startingWith? '!' cs = none :=
  @startingWith?_none '!' [] (by decide) cs

/-- A piece stays the same when something else follows it. -/
theorem first?_replace {cs other : List Char} {piece : Piece} (found : first? cs = some piece)
    (follows : Follows piece.rest other) :
    first? (piece.text ++ other) = some { piece with rest := other } := by
  unfold first? at found
  split at found
  · cases found
  · cases found
    rfl
  · cases found
    rfl
  · next c rest noArrow noDiffers =>
      obtain ⟨others, text, replaced⟩ := startingWith?_replace found follows
      rw [text] at replaced ⊢
      refine (first?_cons_of_head ?_ ?_).trans replaced
      · rintro rfl
        cases found
        cases text
        exact follows.head?_ne (by decide) (head?_ne_of_cons fun rest => noArrow rest rfl)
      · rintro rfl
        rw [startingWith?_bang] at found
        cases found

/-- What is no piece stays none before something that prolongs nothing. -/
theorem first?_none_append {c : Char} {cs other : List Char} (unfound : first? (c :: cs) = none)
    (follows : Follows [] other) : first? (c :: (cs ++ other)) = none := by
  have nothing : startingWith? c cs = none := by
    unfold first? at unfound
    split at unfound
    · contradiction
    · cases unfound
    · cases unfound
    · next same =>
        cases same
        exact unfound
  refine (first?_cons_of_head ?_ ?_).trans (startingWith?_none nothing _)
  · rintro rfl
    cases nothing
  · rintro rfl
    cases cs with
    | nil => exact follows.head?_ne (by decide) nofun
    | cons d cs =>
        intro next
        cases next
        cases unfound

/-- Exactly the pieces that start with a gap are no words. -/
theorem isNone_kind {c : Char} {cs : List Char} {piece : Piece}
    (found : first? (c :: cs) = some piece) : piece.kind.isNone = isGap c := by
  unfold first? at found
  split at found
  · contradiction
  · next same =>
      cases same
      cases found
      rfl
  · next same =>
      cases same
      cases found
      rfl
  · next same =>
      cases same
      unfold startingWith? at found
      split at found
      · next gap =>
          cases found
          exact gap.symm
      · next solid =>
          rw [Bool.eq_false_iff.mpr solid]
          split at found
          · cases found
            rfl
          · split at found
            · cases found
              rfl
            · split at found
              · cases found
                rfl
              · cases found

end Piece

namespace Words

/-- The words of a line are no layout. -/
theorem isLayout_read (line column : Nat) (cs : List Char) :
    ∀ token ∈ (read line column cs).tokens, token.kind.isLayout = false := by
  fun_induction read line column cs with
  | case1 => exact List.forall_mem_nil _
  | case2 _ _ _ _ _ _ ih => exact ih
  | case3 column cs piece found later kind word ih =>
      exact List.forall_mem_cons.mpr ⟨Piece.first?_isLayout found word, ih⟩

/-- The words of a line stand in this line. -/
theorem line_read (line column : Nat) (cs : List Char) :
    ∀ token ∈ (read line column cs).tokens, token.position.line = line := by
  fun_induction read line column cs with
  | case1 => exact List.forall_mem_nil _
  | case2 _ _ _ _ _ _ ih => exact ih
  | case3 column cs piece found later kind word ih => exact List.forall_mem_cons.mpr ⟨rfl, ih⟩

end Words

end LogicPuzzle
