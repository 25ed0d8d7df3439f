/-!
# The shortest decimal that reads back

A binary value `m * 2 ^ q` stands for all reals nearer to it than to its
neighbours.  Its shortest decimal is the one with the fewest digits in that
interval; of two with equally many, the nearer one, and on a tie the even one.
All comparisons are made exactly, in natural numbers.
-/

namespace LogicPuzzle.Decimal

/-- A positive binary value `mantissa * 2 ^ exponent`.  Just above a power of
two the gap to the neighbour below is half as wide as the one above. -/
structure Binary where
  mantissa : Nat
  exponent : Int
  narrowBelow : Bool
  deriving DecidableEq, Repr

/-- A decimal `digits * 10 ^ exponent`. -/
structure Scaled where
  digits : Nat
  exponent : Int
  deriving DecidableEq, Repr

namespace Binary

def ofBits (bits : UInt64) : Binary :=
  let biased := (bits >>> 52).toNat % 2048
  let fraction := bits.toNat % Nat.pow 2 52
  if biased = 0 then ⟨fraction, -1074, false⟩
  else ⟨Nat.pow 2 52 + fraction, (biased : Int) - 1075, fraction == 0 && 1 < biased⟩

/-- Compares a decimal with a quarter of a number of units of a binary value's last place. -/
def compareQuarters (value : Binary) (decimal : Scaled) (quarters : Nat) : Ordering :=
  let twos := value.exponent - 2
  compare
    (decimal.digits * Nat.pow 10 decimal.exponent.toNat * Nat.pow 2 (-twos).toNat)
    (quarters * Nat.pow 2 twos.toNat * Nat.pow 10 (-decimal.exponent).toNat)

/-- Whether a decimal lies in the interval that a value stands for; the ends
belong to it when the mantissa is even. -/
def readsBack (value : Binary) (decimal : Scaled) : Bool :=
  let low := 4 * value.mantissa - (if value.narrowBelow then 1 else 2)
  let high := 4 * value.mantissa + 2
  let below := value.compareQuarters decimal low
  let above := value.compareQuarters decimal high
  if value.mantissa % 2 = 0 then below != .lt && above != .gt
  else below == .gt && above == .lt

def ratio (value : Binary) : Nat × Nat :=
  (value.mantissa * Nat.pow 2 value.exponent.toNat, Nat.pow 2 (-value.exponent).toNat)

/-- The least power of ten above a value: for a value from one on, the number of
digits before the point; for a smaller one, minus the number of zeros behind it. -/
def magnitude (value : Binary) : Int :=
  let (num, den) := value.ratio
  if den ≤ num then (Nat.toDigits 10 (num / den)).length
  else
    let scaled := (List.range 400).find? fun places => den ≤ num * Nat.pow 10 places
    1 - (scaled.getD 0 : Int)

/-- The best decimal with at most a number of digits that reads back as a value. -/
def withDigits? (value : Binary) (count : Nat) : Option Scaled :=
  let exponent := value.magnitude - count
  let (num, den) := value.ratio
  let scaledNum := num * Nat.pow 10 (-exponent).toNat
  let scaledDen := den * Nat.pow 10 exponent.toNat
  let low := scaledNum / scaledDen
  let lower : Scaled := ⟨low, exponent⟩
  let upper : Scaled := ⟨low + 1, exponent⟩
  match value.readsBack lower, value.readsBack upper with
  | true, true =>
      match compare (2 * scaledNum) ((2 * low + 1) * scaledDen) with
      | .lt => some lower
      | .gt => some upper
      | .eq => some (if low % 2 = 0 then lower else upper)
  | true, false => some lower
  | false, true => some upper
  | false, false => none

/-- The shortest decimal that reads back as a value.  Seventeen digits always do. -/
def shortest (value : Binary) : Scaled :=
  ((List.range 17).findSome? fun count => value.withDigits? (count + 1)).getD ⟨0, 0⟩

end Binary

/-- A decimal without zeros at its end, as digits and the place of the point
relative to the first digit. -/
def Scaled.point (decimal : Scaled) : List Char × Int :=
  let digits := Nat.toDigits 10 decimal.digits
  let kept := (digits.reverse.dropWhile (· == '0')).reverse
  (kept, digits.length + decimal.exponent)

def twoDigits (n : Nat) : List Char :=
  if n < 10 then '0' :: Nat.toDigits 10 n else Nat.toDigits 10 n

/-- Digits with a point after the first so many of them, which may lie outside.
Between `0.0001` and `10 ^ 16` the point is written in its place and has a digit on
both sides; otherwise it stands behind the first digit and an exponent follows. -/
def layout (digits : List Char) (point : Int) : List Char :=
  if -4 < point ∧ point ≤ 16 then
    if point ≤ 0 then '0' :: '.' :: List.replicate (-point).toNat '0' ++ digits
    else if digits.length ≤ point then
      digits ++ List.replicate (point.toNat - digits.length) '0' ++ ['.', '0']
    else digits.take point.toNat ++ '.' :: digits.drop point.toNat
  else
    let behind := digits.drop 1
    let lead := digits.take 1 ++ (if behind = [] then [] else '.' :: behind)
    let exponent := point - 1
    lead ++ 'e' :: (if exponent < 0 then '-' else '+') :: twoDigits exponent.natAbs

def ofFloat (x : Float) : String :=
  if x.isNaN then "nan"
  else
    let sign := if x.toBits >>> 63 = 1 then "-" else ""
    if x.isInf then sign ++ "inf"
    else if x == 0 then sign ++ "0.0"
    else
      let (digits, point) := (Binary.ofBits x.abs.toBits).shortest.point
      sign ++ String.ofList (layout digits point)

/-- The double nearest to `digits * 10 ^ exponent`.  Magnitudes far outside the
range of doubles are settled without computing the power. -/
def toFloat (negative : Bool) (digits : Nat) (exponent : Int) : Float :=
  let magnitude : Int := (Nat.toDigits 10 digits).length + exponent
  let size : Float :=
    if digits = 0 ∨ magnitude < -330 then 0
    else if 330 < magnitude then 1 / 0
    else Float.ofScientific digits (decide (exponent < 0)) exponent.natAbs
  if negative then -size else size

end LogicPuzzle.Decimal
