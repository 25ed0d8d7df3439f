import LogicPuzzle.Diagnostic
import LogicPuzzle.Disk
import LogicPuzzle.Report
import LogicPuzzle.Toml.Document

/-!
# Manifests

A manifest is a TOML document that says where the puzzles of a project lie, how
long a search may go on, and how results are shown.  Without a manifest the
defaults count.  Values are checked in a fixed order, and the first bad one is
the fault that is told.
-/

namespace LogicPuzzle

inductive Format where
  | text
  | json
  deriving DecidableEq, Repr

/-- A limit for searches: a number of assignments, or a truth value that counts as one or zero. -/
inductive Limit where
  | count (n : Nat)
  | flag (value : Bool)
  deriving DecidableEq, Repr

structure Manifest where
  name : Toml.Value
  puzzlePaths : List String
  limit : Limit
  format : Format
  fieldOrder : Report.FieldOrder

inductive ManifestFault where
  | malformed (file : Path)
  | puzzlePaths (found : Toml.Value)
  | limit (found : Toml.Value)
  | format (found : Toml.Value)
  | fieldOrder (array : String)

/-- Why no manifest could be had: a bad value, a value that should be a table and
is not, a numeral that is too long to be read or written, a value that is nested
too deep to be quoted, or a file without a text. -/
inductive ManifestFailure where
  | fault (fault : ManifestFault)
  | notTable
  | numeral
  | tooDeep
  | text (fault : TextFault)

namespace Format

def name : Format → String
  | .text => "text"
  | .json => "json"

def ofName? (name : String) : Option Format :=
  if name = "text" then some .text else if name = "json" then some .json else none

end Format

namespace Limit

def toNat : Limit → Nat
  | .count n => n
  | .flag true => 1
  | .flag false => 0

def ofValue? : Toml.Value → Option Limit
  | .integer n => if 0 ≤ n then some (.count n.toNat) else none
  | .boolean value => some (.flag value)
  | _ => none

end Limit

namespace ManifestFault

/-- The words for a fault.  What the program adds about a malformed document in the words of its
decoder is left out. -/
def message : ManifestFault → String
  | .malformed file => "Invalid TOML in " ++ file.toString
  | .puzzlePaths found => "project.puzzles must be a list of paths, got " ++ found.listing
  | .limit found =>
      "solver.max_iterations must be a non-negative integer, got " ++ found.listing
  | .format found =>
      "report.format must be one of " ++ ", ".intercalate [Format.name .text, Format.name .json] ++
        ", got " ++ found.listing
  | .fieldOrder array => "report.field_order." ++ array ++ " must be a list of field names"

instance : Wording ManifestFault where
  message := message

end ManifestFault

namespace Manifest

def default : Manifest where
  name := .string "puzzles"
  puzzlePaths := ["."]
  limit := .count 0
  format := .text
  fieldOrder := []

def fileName : String := "gridlogic.toml"

/-- The table of a name, empty when there is none. -/
def tableOf (document : Table Toml.Value) (name : String) :
    Except ManifestFailure (Table Toml.Value) :=
  match Table.find? name document with
  | none => .ok []
  | some value =>
      match value.entries? with
      | some entries => .ok entries
      | none => .error .notTable

/-- What a bad value ends in: its fault, unless the value cannot be quoted in the words for it. -/
def refusal (levels : Nat) (fault : Toml.Value → ManifestFault) (found : Toml.Value) :
    ManifestFailure :=
  match found.unquotable? levels with
  | none => .fault (fault found)
  | some .tooDeep => .tooDeep
  | some .numeral => .numeral

def setting {α : Type} (levels : Nat) (table : Table Toml.Value) (name : String) (fallback : α)
    (check : Toml.Value → Option α) (fault : Toml.Value → ManifestFault) :
    Except ManifestFailure α :=
  match Table.find? name table with
  | none => .ok fallback
  | some value =>
      match check value with
      | some checked => .ok checked
      | none => .error (refusal levels fault value)

def fieldOrderEntry (entry : String × Toml.Value) :
    Except ManifestFailure (String × List String) :=
  match entry.2.strings? with
  | some fields => .ok (entry.1, fields)
  | none => .error (.fault (.fieldOrder entry.1))

/-- The settings that a document makes.  Values can be quoted as long as their listing has no more
than the given number of levels. -/
def ofDocument (levels : Nat) (document : Table Toml.Value) :
    Except ManifestFailure Manifest := do
  let project ← tableOf document "project"
  let puzzlePaths ←
    setting levels project "puzzles" default.puzzlePaths Toml.Value.strings? .puzzlePaths
  let solver ← tableOf document "solver"
  let limit ← setting levels solver "max_iterations" default.limit Limit.ofValue? .limit
  let report ← tableOf document "report"
  let format ←
    setting levels report "format" default.format
      (fun value => value.string?.bind Format.ofName?) .format
  let orders ← tableOf report "field_order"
  let fieldOrder ← orders.mapM fieldOrderEntry
  return {
    name := (Table.find? "name" project).getD default.name
    puzzlePaths := puzzlePaths
    limit := limit
    format := format
    fieldOrder := fieldOrder }

def ofText (levels : Nat) (file : Path) (text : String) : Except ManifestFailure Manifest :=
  match Toml.read text with
  | .ok document => ofDocument levels document
  | .error .malformed => .error (.fault (.malformed file))
  | .error .numeral => .error .numeral

/-- The settings in the file at a path; a path that holds nothing gives the defaults. -/
def load (disk : Disk) (path : Path) : Except ManifestFailure Manifest :=
  match disk.holds path with
  | .error fault => .error (.text (.disk fault))
  | .ok false => .ok default
  | .ok true =>
      match disk.text path with
      | .ok text => ofText disk.reach.values path text
      | .error fault => .error (.text fault)

end Manifest

end LogicPuzzle
