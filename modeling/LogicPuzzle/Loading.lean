import LogicPuzzle.Disk
import LogicPuzzle.Reader

/-!
# Loading puzzles

Reading puzzles from the files of a disk.
-/

namespace LogicPuzzle

inductive LoadFailure where
  | text (fault : TextFault)
  | reading (failure : Failure)
  deriving DecidableEq, Repr

def loadTokens (disk : Disk) (path : Path) : Except LoadFailure (List Token) :=
  match disk.text path with
  | .error fault => .error (.text fault)
  | .ok text => (tokenize path text).mapError .reading

def loadPuzzle (disk : Disk) (path : Path) : Except LoadFailure (Puzzle × List Notice) :=
  match disk.text path with
  | .error fault => .error (.text fault)
  | .ok text => (readPuzzle path text).mapError .reading

end LogicPuzzle
