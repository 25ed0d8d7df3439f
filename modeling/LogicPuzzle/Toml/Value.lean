import LogicPuzzle.Decimal.Shortest
import LogicPuzzle.Numeral
import LogicPuzzle.Table
import LogicPuzzle.Text.Quoted

/-!
# TOML values

The values of a TOML document and their two texts: the listing that messages
quote, and the plain text, which differs for strings and times.
-/

namespace LogicPuzzle.Toml

structure Date where
  year : Nat
  month : Nat
  day : Nat
  deriving DecidableEq, Repr

structure Clock where
  hour : Nat
  minute : Nat
  second : Nat
  microsecond : Nat
  deriving DecidableEq, Repr

/-- A day with a time, and the minutes by which it is ahead of universal time when known. -/
structure Moment where
  date : Date
  clock : Clock
  offset : Option Int
  deriving DecidableEq, Repr

inductive Value where
  | boolean (value : Bool)
  | integer (value : Int)
  | float (value : Float)
  | string (value : String)
  | date (value : Date)
  | clock (value : Clock)
  | moment (value : Moment)
  | array (items : List Value)
  | table (entries : List (String × Value))

/-- Why a value cannot be quoted: it is nested too deep, or it has a number in it that is too long
to be written. -/
inductive Unquotable where
  | tooDeep
  | numeral
  deriving DecidableEq, Repr

namespace Date

def isLeap (year : Nat) : Bool :=
  year % 4 == 0 && (year % 100 != 0 || year % 400 == 0)

def daysIn (year month : Nat) : Nat :=
  if month = 2 then (if isLeap year then 29 else 28)
  else if month ∈ [4, 6, 9, 11] then 30
  else 31

/-- Whether a day is on the calendar, which starts with the year one. -/
def valid (date : Date) : Bool :=
  1 ≤ date.year && 1 ≤ date.month && date.month ≤ 12 && 1 ≤ date.day &&
    date.day ≤ daysIn date.year date.month

end Date

def padded (width n : Nat) : String :=
  let digits := toString n
  String.ofList (List.replicate (width - digits.length) '0') ++ digits

def commas (texts : List String) : String :=
  ", ".intercalate texts

namespace Date

def parts (date : Date) : List String :=
  [toString date.year, toString date.month, toString date.day]

def text (date : Date) : String :=
  padded 4 date.year ++ "-" ++ padded 2 date.month ++ "-" ++ padded 2 date.day

end Date

namespace Clock

/-- The parts of a time in a listing: seconds and microseconds only where they matter. -/
def parts (clock : Clock) : List String :=
  [toString clock.hour, toString clock.minute] ++
    (if clock.second = 0 ∧ clock.microsecond = 0 then [] else [toString clock.second]) ++
    (if clock.microsecond = 0 then [] else [toString clock.microsecond])

def text (clock : Clock) : String :=
  padded 2 clock.hour ++ ":" ++ padded 2 clock.minute ++ ":" ++ padded 2 clock.second ++
    (if clock.microsecond = 0 then "" else "." ++ padded 6 clock.microsecond)

end Clock

namespace Moment

def offsetPart (minutes : Int) : String :=
  if minutes = 0 then "tzinfo=datetime.timezone.utc"
  else
    let span :=
      if 0 < minutes then "seconds=" ++ toString (60 * minutes)
      else "days=-1, seconds=" ++ toString (86400 + 60 * minutes)
    "tzinfo=datetime.timezone(datetime.timedelta(" ++ span ++ "))"

/-- How many levels the listing of an offset has below that of its moment. -/
def offsetLevels (moment : Moment) : Nat :=
  match moment.offset with
  | none => 0
  | some minutes => if minutes = 0 then 1 else 2

def offsetText (minutes : Int) : String :=
  (if minutes < 0 then "-" else "+") ++ padded 2 (minutes.natAbs / 60) ++ ":" ++
    padded 2 (minutes.natAbs % 60)

def parts (moment : Moment) : List String :=
  moment.date.parts ++ moment.clock.parts ++ (moment.offset.map offsetPart).toList

def text (moment : Moment) : String :=
  moment.date.text ++ " " ++ moment.clock.text ++ (moment.offset.map offsetText).getD ""

end Moment

namespace Value

mutual

def listing : Value → String
  | .boolean true => "True"
  | .boolean false => "False"
  | .integer n => toString n
  | .float x => Decimal.ofFloat x
  | .string text => Text.quoted text
  | .date day => "datetime.date(" ++ commas day.parts ++ ")"
  | .clock time => "datetime.time(" ++ commas time.parts ++ ")"
  | .moment instant => "datetime.datetime(" ++ commas instant.parts ++ ")"
  | .array items => "[" ++ commas (listings items) ++ "]"
  | .table entries => "\x7b" ++ commas (entryListings entries) ++ "\x7d"

def listings : List Value → List String
  | [] => []
  | item :: rest => listing item :: listings rest

def entryListings : List (String × Value) → List String
  | [] => []
  | (key, value) :: rest => (Text.quoted key ++ ": " ++ listing value) :: entryListings rest

end

mutual

def hasLongNumber : Value → Bool
  | .integer n => Numeral.tooLong n
  | .array items => anyLongNumber items
  | .table entries => anyLongEntry entries
  | _ => false

def anyLongNumber : List Value → Bool
  | [] => false
  | item :: rest => hasLongNumber item || anyLongNumber rest

def anyLongEntry : List (String × Value) → Bool
  | [] => false
  | (_, value) :: rest => hasLongNumber value || anyLongEntry rest

end

/-- What keeps a value from being quoted when a listing can have so many levels: the first thing
that making the listing comes to. -/
def unquotable? : Nat → Value → Option Unquotable
  | 0, _ => some .tooDeep
  | levels + 1, value =>
      match value with
      | .integer n => if Numeral.tooLong n then some .numeral else none
      | .moment instant => if levels < instant.offsetLevels then some .tooDeep else none
      | .array items => items.findSome? (unquotable? levels)
      | .table entries => entries.findSome? fun entry => unquotable? levels entry.2
      | _ => none

def text : Value → String
  | .string text => text
  | .date day => day.text
  | .clock time => time.text
  | .moment instant => instant.text
  | value => value.listing

def string? : Value → Option String
  | .string text => some text
  | _ => none

def strings? : Value → Option (List String)
  | .array items => items.mapM string?
  | _ => none

def entries? : Value → Option (Table Value)
  | .table entries => some entries
  | _ => none

end Value

end LogicPuzzle.Toml
