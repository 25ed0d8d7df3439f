import LogicPuzzle.Path
import LogicPuzzle.Table
import LogicPuzzle.Text.Lines

/-!
# Disks

A disk is a tree of directories and files together with a working directory.
Looking a path up walks its components from the top; two dots go back to the
directory that the walk came from.  There are no links on a disk, and no pipes,
sockets or devices.
-/

namespace LogicPuzzle

inductive Node where
  | file (bytes : ByteArray)
  | directory (entries : List (String × Node))

inductive DiskFault where
  | missing
  | notDirectory
  | isDirectory
  | nameTooLong
  | nulInName
  | tooDeep
  deriving DecidableEq, Repr

namespace DiskFault

def systemText : DiskFault → String
  | .missing => "[Errno 2] No such file or directory"
  | .notDirectory => "[Errno 20] Not a directory"
  | .isDirectory => "[Errno 21] Is a directory"
  | .nameTooLong => "[Errno 36] File name too long"
  | .nulInName => "embedded null byte"
  | .tooDeep => "maximum recursion depth exceeded"

/-- Whether a fault only says that there is nothing at a place. -/
def isAbsence : DiskFault → Bool
  | .missing => true
  | .notDirectory => true
  | _ => false

end DiskFault

namespace Node

/-- How many bytes the name of an entry can have. -/
def nameLimit : Nat := 255

def entries : Node → List (String × Node)
  | .file _ => []
  | .directory entries => entries

/-- Puts a node below another one, making the directories on the way.  A directory
put where there is one already leaves it as it is. -/
def put (node : Node) : List String → Node → Node
  | [], old =>
      match node, old with
      | .directory [], .directory entries => .directory entries
      | _, _ => node
  | name :: parts, old =>
      let below := (Table.find? name old.entries).getD (.directory [])
      .directory (Table.put name (put node parts below) old.entries)

/-- Walks from a node along components.  The nodes passed through lie behind,
the nearest first. -/
def walk (behind : List Node) (node : Node) : List String → Except DiskFault Node
  | [] => .ok node
  | name :: parts =>
      match node with
      | .file _ => .error .notDirectory
      | .directory entries =>
          if name = ".." then
            match behind with
            | [] => walk [] node parts
            | outer :: others => walk others outer parts
          else if nameLimit < name.utf8ByteSize then .error .nameTooLong
          else match Table.find? name entries with
            | none => .error .missing
            | some inner => walk (node :: behind) inner parts

end Node

/-- How deep nested things are followed before the stack of calls gives out: directories below a
listed one, the listed one included, and values inside one that is quoted, itself included. -/
structure Reach where
  directories : Nat
  values : Nat
  deriving DecidableEq, Repr

/-- What a limit of a thousand calls leaves when some are in use. -/
def Reach.usual : Reach := ⟨950, 950⟩

/-- A tree of files, the directory in it where relative paths start, and how deep it is followed. -/
structure Disk where
  workingDirectory : Path
  top : Node
  reach : Reach := .usual

inductive TextFault where
  | disk (fault : DiskFault)
  | undecodable
  deriving DecidableEq, Repr

namespace Disk

/-- How many bytes a path has to stay below. -/
def pathLimit : Nat := 4096

def node (disk : Disk) (path : Path) : Except DiskFault Node :=
  if path.hasNul then .error .nulInName
  else if pathLimit ≤ path.toString.utf8ByteSize then .error .nameTooLong
  else disk.top.walk [] (disk.workingDirectory.join path).parts

def locate (directory path : Path) : Except DiskFault Path :=
  if path.hasNul then .error .nulInName else .ok (Path.resolve directory path)

def holds (disk : Disk) (path : Path) : Except DiskFault Bool :=
  match disk.node path with
  | .ok _ => .ok true
  | .error fault => if fault.isAbsence then .ok false else .error fault

def bytes (disk : Disk) (path : Path) : Except DiskFault ByteArray :=
  match disk.node path with
  | .ok (.file bytes) => .ok bytes
  | .ok (.directory _) => .error .isDirectory
  | .error fault => .error fault

def text (disk : Disk) (path : Path) : Except TextFault String :=
  match disk.bytes path with
  | .error fault => .error (.disk fault)
  | .ok bytes =>
      match String.fromUTF8? bytes with
      | none => .error .undecodable
      | some text => .ok (String.ofList (Text.unifyNewlines text.toList))

end Disk

end LogicPuzzle
