import LogicPuzzle.Numeral
import LogicPuzzle.Toml.Reading

/-!
# Numbers and times in TOML

Numbers and times are recognised by their first characters, and each takes as
many characters as its form allows.  Single underscores may stand between digits.
-/

namespace LogicPuzzle.Toml

def basedNumber? : List Char → Option (Int × List Char)
  | '0' :: 'x' :: rest =>
      (Digits.run? Char.isHexDigit rest).map fun (digits, behind) =>
        ((Digits.value 16 digits : Int), behind)
  | '0' :: 'b' :: rest =>
      (Digits.run? (fun c => c == '0' || c == '1') rest).map fun (digits, behind) =>
        ((Digits.value 2 digits : Int), behind)
  | '0' :: 'o' :: rest =>
      (Digits.run? (fun c => '0' ≤ c && c ≤ '7') rest).map fun (digits, behind) =>
        ((Digits.value 8 digits : Int), behind)
  | _ => none

def sign : List Char → Bool × List Char
  | '-' :: rest => (true, rest)
  | '+' :: rest => (false, rest)
  | rest => (false, rest)

/-- The digits before the point of a decimal number: a lone zero, or no zero in front. -/
def wholePart? : List Char → Option (List Char × List Char)
  | '0' :: rest => some (['0'], rest)
  | rest => Digits.run? Char.isDigit rest

def fractionPart : List Char → List Char × List Char
  | '.' :: rest => (Digits.run? Char.isDigit rest).getD ([], '.' :: rest)
  | rest => ([], rest)

def exponentPart (cs : List Char) : Option Int × List Char :=
  match cs with
  | c :: rest =>
      if c = 'e' ∨ c = 'E' then
        let (negative, unsigned) := sign rest
        match Digits.run? Char.isDigit unsigned with
        | none => (none, cs)
        | some (digits, behind) =>
            let size : Int := Digits.value 10 digits
            (some (if negative then -size else size), behind)
      else (none, cs)
  | [] => (none, cs)

def decimalNumber? (cs : List Char) : Option (Except Fault Value × List Char) :=
  let (negative, unsigned) := sign cs
  match wholePart? unsigned with
  | none => none
  | some (whole, behindWhole) =>
      let (fraction, behindFraction) := fractionPart behindWhole
      let (exponent, behind) := exponentPart behindFraction
      if fraction.isEmpty && exponent.isNone then
        let size : Int := Digits.value 10 whole
        if whole.length ≤ Numeral.digitLimit then
          some (.ok (.integer (if negative then -size else size)), behind)
        else some (.error .numeral, behind)
      else
        let value := Decimal.toFloat negative (Digits.value 10 (whole ++ fraction))
          (exponent.getD 0 - fraction.length)
        some (.ok (.float value), behind)

def specialNumber? (cs : List Char) : Option (Value × List Char) :=
  let (negative, unsigned) := sign cs
  match unsigned with
  | 'i' :: 'n' :: 'f' :: behind =>
      some (.float (if negative then -(1 / 0) else 1 / 0), behind)
  | 'n' :: 'a' :: 'n' :: behind => some (.float (0 / 0), behind)
  | _ => none

def date? (cs : List Char) : Option (Date × List Char) := do
  let (year, cs) ← Digits.fixed? 4 cs
  let '-' :: cs := cs | none
  let (month, cs) ← Digits.fixed? 2 cs
  let '-' :: cs := cs | none
  let (day, cs) ← Digits.fixed? 2 cs
  if 1 ≤ month ∧ month ≤ 12 ∧ 1 ≤ day ∧ day ≤ 31 then some (⟨year, month, day⟩, cs) else none

/-- The microseconds that follow the seconds; digits beyond the sixth are dropped. -/
def microseconds (cs : List Char) : Nat × List Char :=
  match cs with
  | '.' :: rest =>
      let digits := rest.takeWhile Char.isDigit
      if digits.isEmpty then (0, cs)
      else
        let kept := digits.take 6
        (Digits.value 10 (kept ++ List.replicate (6 - kept.length) '0'),
         rest.dropWhile Char.isDigit)
  | _ => (0, cs)

def clock? (cs : List Char) : Option (Clock × List Char) := do
  let (hour, cs) ← Digits.fixed? 2 cs
  let ':' :: cs := cs | none
  let (minute, cs) ← Digits.fixed? 2 cs
  let ':' :: cs := cs | none
  let (second, cs) ← Digits.fixed? 2 cs
  if hour < 24 ∧ minute < 60 ∧ second < 60 then
    let (microsecond, cs) := microseconds cs
    some (⟨hour, minute, second, microsecond⟩, cs)
  else none

def offset? (cs : List Char) : Option (Int × List Char) :=
  match cs with
  | [] => none
  | c :: rest =>
      if c = 'Z' ∨ c = 'z' then some (0, rest)
      else if c = '+' ∨ c = '-' then do
        let (hours, rest) ← Digits.fixed? 2 rest
        let ':' :: rest := rest | none
        let (minutes, rest) ← Digits.fixed? 2 rest
        if hours < 24 ∧ minutes < 60 then
          let size : Int := 60 * hours + minutes
          some (if c = '-' then -size else size, rest)
        else none
      else none

def isDateSeparator (c : Char) : Bool :=
  c == 'T' || c == 't' || c == ' '

def dateOrMoment? (cs : List Char) : Option (Except Fault Value × List Char) := do
  let (date, behind) ← date? cs
  let timed : Option (Clock × List Char) :=
    match behind with
    | c :: rest => if isDateSeparator c then clock? rest else none
    | [] => none
  match timed with
  | none =>
      some (if date.valid then .ok (.date date) else .error .malformed, behind)
  | some (clock, behind) =>
      let (offset, behind) :=
        match offset? behind with
        | some (offset, behind) => (some offset, behind)
        | none => (none, behind)
      some (if date.valid then .ok (.moment ⟨date, clock, offset⟩) else .error .malformed, behind)

def Reading.number : Reading Value := fun cs =>
  match dateOrMoment? cs with
  | some (value, behind) => value.map (·, behind)
  | none =>
  match clock? cs with
  | some (clock, behind) => .ok (.clock clock, behind)
  | none =>
  match basedNumber? cs with
  | some (n, behind) => .ok (.integer n, behind)
  | none =>
  match decimalNumber? cs with
  | some (value, behind) => value.map (·, behind)
  | none =>
  match specialNumber? cs with
  | some (value, behind) => .ok (value, behind)
  | none => .error .malformed

end LogicPuzzle.Toml
