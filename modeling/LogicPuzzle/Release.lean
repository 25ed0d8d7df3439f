import LogicPuzzle.Toml.Document

/-!
# Releases

The version of a program.  A project file that names the program tells it;
without such a file the version is unknown.
-/

namespace LogicPuzzle

inductive ReleaseFailure where
  | undecodable
  | toml (fault : Toml.Fault)
  | notTable
  deriving DecidableEq, Repr

namespace Release

def program : String := "gridlogic"

def current : String := "0.3.0"

def unknown : String := "0+unknown"

def inDocument? (name : String) (document : Table Toml.Value) :
    Except ReleaseFailure (Option String) :=
  match Table.find? "project" document with
  | none => .ok none
  | some project =>
      match project.entries? with
      | none => .error .notTable
      | some entries =>
          if ((Table.find? "name" entries).bind Toml.Value.string?) = some name then
            match Table.find? "version" entries with
            | none => .ok none
            | some version =>
                if version.hasLongNumber then .error (.toml .numeral) else .ok version.text
          else .ok none

def version (name : String) (projectFile : Option ByteArray) : Except ReleaseFailure String :=
  match projectFile with
  | none => .ok unknown
  | some bytes =>
      match String.fromUTF8? bytes with
      | none => .error .undecodable
      | some text =>
          match Toml.read text with
          | .error fault => .error (.toml fault)
          | .ok document => (inDocument? name document).map fun found => found.getD unknown

end Release

end LogicPuzzle
