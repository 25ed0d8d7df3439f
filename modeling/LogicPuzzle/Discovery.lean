import LogicPuzzle.Disk

/-!
# Discovery

Finding the puzzles of a project.  A listed path that is a file stands for
itself.  A listed directory stands for everything below it whose name has the
ending of puzzles.  What is found comes in order of the components of its path,
each path once.  A disk has nothing but files and directories, so this says
nothing about pipes, sockets and devices with such a name.
-/

namespace LogicPuzzle.Discovery

def ending : List Char := ['.', 'g', 'r', 'i', 'd']

def hasEnding (name : String) : Bool :=
  ending.isSuffixOf name.toList

mutual

/-- What lies below a node at a path and has the ending of puzzles.  Every directory on the way is
looked into by its whole path, which can be too long, and so can be the way down to it. -/
def below (levels : Nat) (path : Path) : Node → Except DiskFault (List Path)
  | .file _ => .ok []
  | .directory entries =>
      match levels with
      | 0 => .error .tooDeep
      | levels + 1 =>
          if Disk.pathLimit ≤ path.toString.utf8ByteSize then .error .nameTooLong
          else belowEntries levels path entries

def belowEntries (levels : Nat) (path : Path) :
    List (String × Node) → Except DiskFault (List Path)
  | [] => .ok []
  | (name, node) :: rest => do
      let inner : Path := { path with parts := path.parts ++ [name] }
      let deeper ← below levels inner node
      let others ← belowEntries levels path rest
      return (if hasEnding name then [inner] else []) ++ deeper ++ others

end

/-- What a listed path stands for; one where there is nothing stands for nothing. -/
def listed (disk : Disk) (path : Path) : Except DiskFault (List Path) :=
  match disk.node path with
  | .error fault => if fault.isAbsence then .ok [] else .error fault
  | .ok (.file _) => .ok [path]
  | .ok node => below disk.reach.directories path node

/-- Whether components come before others: the first difference decides, and fewer
components come first. -/
def notAfter : List String → List String → Bool
  | [], _ => true
  | _ :: _, [] => false
  | first :: firstRest, second :: secondRest =>
      if first = second then notAfter firstRest secondRest else decide (first < second)

def ordered (paths : List Path) : List Path :=
  (List.mergeSort paths fun first second => notAfter first.parts second.parts).eraseDups

def find (disk : Disk) (directory : Path) (paths : List String) :
    Except DiskFault (List Path) := do
  let found ← paths.mapM fun path => do
    listed disk (← Disk.locate directory (Path.ofString path))
  return ordered found.flatten

end LogicPuzzle.Discovery
