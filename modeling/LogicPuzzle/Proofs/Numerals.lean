import LogicPuzzle.Numeral
import Mathlib.Data.Nat.Digits.Defs
import Mathlib.Tactic.IntervalCases

/-!
# Decimal numerals

A number that is written in decimal digits is read back, as long as it does not
have more digits than a numeral may have.  A number that is read can be written.
-/

namespace LogicPuzzle

def decimals : List Char :=
  ['0', '1', '2', '3', '4', '5', '6', '7', '8', '9']

theorem mem_decimals {c : Char} (digit : c.isDigit = true) : c ∈ decimals := by
  simp only [Char.isDigit, Bool.and_eq_true, decide_eq_true_eq] at digit
  have lower : 48 ≤ c.toNat := digit.1
  have upper : c.toNat ≤ 57 := digit.2
  rw [← Char.ofNat_toNat c]
  interval_cases c.toNat <;> decide

/-- What can be checked for each decimal digit holds for a decimal digit. -/
theorem of_isDigit {p : Char → Prop} [DecidablePred p]
    (all : (decimals.all fun c => decide (p c)) = true) {c : Char} (digit : c.isDigit = true) :
    p c :=
  of_decide_eq_true (List.all_eq_true.mp all c (mem_decimals digit))

namespace Numeral

/-- What reading a numeral asks of a decimal digit. -/
theorem digit_read {c : Char} (digit : c.isDigit = true) :
    isBlank c = false ∧ c ≠ '-' ∧ c ≠ '+' ∧ c ≠ '_' ∧
      Text.decimalValue? c = some (c.toNat - '0'.toNat) :=
  of_isDigit (p := fun c => isBlank c = false ∧ c ≠ '-' ∧ c ≠ '+' ∧ c ≠ '_' ∧
    Text.decimalValue? c = some (c.toNat - '0'.toNat)) (by decide) digit

theorem trim_eq_self {text : List Char} (solid : ∀ c ∈ text, isBlank c = false) :
    trim text = text := by
  have kept : ∀ text : List Char, (∀ c ∈ text, isBlank c = false) →
      text.dropWhile isBlank = text := by
    intro text solid
    cases text with
    | nil => rfl
    | cons c rest => rw [List.dropWhile_cons_of_neg (by simp [solid c List.mem_cons_self])]
  rw [trim, kept text solid, kept text.reverse, List.reverse_reverse]
  intro c member
  exact solid c (List.mem_reverse.mp member)

theorem digits?_of_digits {text : List Char} (nonempty : text ≠ [])
    (decimal : ∀ c ∈ text, c.isDigit = true) :
    digits? text = some (text.map fun c => c.toNat - '0'.toNat) := by
  induction text with
  | nil => exact absurd rfl nonempty
  | cons c rest ih =>
      obtain ⟨first, others⟩ := List.forall_mem_cons.mp decimal
      have value := (digit_read first).2.2.2.2
      cases rest with
      | nil =>
          rw [digits?, value]
          rfl
      | cons d rest =>
          have noUnderscore := (digit_read (others d List.mem_cons_self)).2.2.2.1
          rw [digits?, value, ih (List.cons_ne_nil _ _) others]
          · rfl
          · nofun
          · rintro _ same
            exact absurd (List.cons.inj same).1 noUnderscore

theorem ofDigits_map (text : List Char) :
    ofDigits (text.map fun c => c.toNat - '0'.toNat) = Nat.ofDigitChars 10 text 0 := by
  rw [ofDigits, List.foldl_map, Nat.ofDigitChars_eq_foldl]

/-- A written number is read back. -/
theorem read?_toDigits {n : Nat} (short : (Nat.toDigits 10 n).length ≤ digitLimit) :
    read? (Nat.toDigits 10 n) = some (n : Int) := by
  have decimal : ∀ c ∈ Nat.toDigits 10 n, c.isDigit = true :=
    fun c member => Nat.isDigit_of_mem_toDigits (by decide) (by decide) member
  have unsigned : readNat? (Nat.toDigits 10 n) = some n := by
    rw [readNat?, digits?_of_digits Nat.toDigits_ne_nil decimal, Option.bind_eq_bind,
      Option.bind_some, List.length_map, if_pos short, ofDigits_map, Nat.ofDigitChars_ten_toDigits]
  rw [read?, trim_eq_self fun c member => (digit_read (decimal c member)).1]
  split
  · next rest same =>
      exact absurd rfl (digit_read (decimal '-' (same ▸ List.mem_cons_self))).2.1
  · next rest same =>
      exact absurd rfl (digit_read (decimal '+' (same ▸ List.mem_cons_self))).2.2.1
  · rw [unsigned]
    rfl

/-! ## Written numbers that were read -/

theorem lt_ten_of_decimalValue? {c : Char} {value : Nat}
    (found : Text.decimalValue? c = some value) : value < 10 := by
  unfold Text.decimalValue? at found
  split at found
  · split at found
    · next digit =>
        simp only [Char.isDigit, Bool.and_eq_true, decide_eq_true_eq] at digit
        have upper : c.toNat ≤ 57 := digit.2
        rw [← Option.some.inj found]
        change c.toNat - 48 < 10
        omega
    · cases found
  · obtain ⟨start, isStart, rfl⟩ := Option.map_eq_some_iff.mp found
    have within := List.find?_some isStart
    simp only [Bool.and_eq_true, decide_eq_true_eq] at within
    omega

theorem lt_ten_of_digits? {text : List Char} {values : List Nat}
    (read : digits? text = some values) : ∀ value ∈ values, value < 10 := by
  fun_induction digits? text generalizing values with
  | case1 => cases read
  | case2 c =>
      obtain ⟨value, found, rfl⟩ := Option.map_eq_some_iff.mp read
      exact List.forall_mem_singleton.mpr (lt_ten_of_decimalValue? found)
  | case3 c rest ih =>
      obtain ⟨value, found, rest⟩ := Option.bind_eq_some_iff.mp read
      obtain ⟨values, later, same⟩ := Option.bind_eq_some_iff.mp rest
      cases same
      exact List.forall_mem_cons.mpr ⟨lt_ten_of_decimalValue? found, ih later⟩
  | case4 c rest _ _ ih =>
      obtain ⟨value, found, rest⟩ := Option.bind_eq_some_iff.mp read
      obtain ⟨values, later, same⟩ := Option.bind_eq_some_iff.mp rest
      cases same
      exact List.forall_mem_cons.mpr ⟨lt_ten_of_decimalValue? found, ih later⟩

theorem ofDigits_lt {values : List Nat} (small : ∀ value ∈ values, value < 10) :
    ofDigits values < 10 ^ values.length := by
  suffices ∀ start, values.foldl (fun n value => 10 * n + value) start <
      (start + 1) * 10 ^ values.length by
    simpa [ofDigits] using this 0
  induction values with
  | nil => simp
  | cons value values ih =>
      intro start
      obtain ⟨first, others⟩ := List.forall_mem_cons.mp small
      calc (value :: values).foldl (fun n value => 10 * n + value) start
          < (10 * start + value + 1) * 10 ^ values.length := ih others (10 * start + value)
        _ ≤ ((start + 1) * 10) * 10 ^ values.length := Nat.mul_le_mul_right _ (by omega)
        _ = (start + 1) * 10 ^ (values.length + 1) := by rw [Nat.pow_succ, Nat.mul_assoc,
            Nat.mul_comm 10]

theorem length_toDigits_of_readNat? {text : List Char} {n : Nat} (read : readNat? text = some n) :
    (Nat.toDigits 10 n).length ≤ digitLimit := by
  obtain ⟨values, digits, short⟩ := Option.bind_eq_some_iff.mp read
  obtain ⟨within, same⟩ := Option.ite_none_right_eq_some.mp short
  cases same
  apply Nat.toDigits_length _ _ _ (by decide)
  exact Nat.lt_of_lt_of_le (ofDigits_lt (lt_ten_of_digits? digits))
    (Nat.pow_le_pow_right (by decide) within)

/-- A numeral that is read is not too long to be written. -/
theorem not_tooLong_of_read? {text : List Char} {n : Int} (read : read? text = some n) :
    tooLong n = false := by
  have short : ∃ rest natural, readNat? rest = some natural ∧ n.natAbs = natural := by
    rw [read?] at read
    split at read <;> obtain ⟨value, unsigned, rfl⟩ := Option.map_eq_some_iff.mp read <;>
      obtain ⟨natural, readNatural, same⟩ := Option.bind_eq_some_iff.mp unsigned <;>
      cases same
    · exact ⟨_, natural, readNatural, by simp⟩
    · exact ⟨_, natural, readNatural, by simp⟩
    · exact ⟨_, natural, readNatural, by simp⟩
  obtain ⟨rest, natural, unsigned, same⟩ := short
  rw [tooLong, same]
  exact decide_eq_false (Nat.not_lt.mpr (length_toDigits_of_readNat? unsigned))

end Numeral

end LogicPuzzle
