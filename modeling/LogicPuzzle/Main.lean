import LogicPuzzle.Command.Perform

/-!
# The program

Reads the files that a command line names, performs the request on a disk that
holds them, and writes what it gives.  When the puzzles have to be found by the
manifest, the names of the files to look through are read from standard input,
one a line.
-/

namespace LogicPuzzle.Main

open LogicPuzzle.Command

def bytesOf? (name : String) : IO (Option ByteArray) := do
  try
    return some (← IO.FS.readBinFile name)
  catch _ => return none

def addFile (disk : Disk) (name : String) : IO Disk := do
  match ← bytesOf? name with
  | none => return disk
  | some bytes =>
      let parts := (Path.resolve disk.workingDirectory (Path.ofString name)).parts
      return { disk with top := Node.put (.file bytes) parts disk.top }

/-- The lines that are left in a stream. -/
partial def linesOf (stream : IO.FS.Stream) : IO (List String) := do
  let line ← stream.getLine
  if line.isEmpty then return []
  let name := String.ofList (Text.trimReturns (line.toList.filter (· != '\n')))
  return name :: (← linesOf stream)

/-- The disk that a request is about. -/
def diskFor (request : Request) : IO Disk := do
  let here := Path.resolve ⟨.root, []⟩ (Path.ofString (toString (← IO.currentDir)))
  let start : Disk := 
    { workingDirectory := here, top := Node.put (.directory []) here.parts (.directory []) }
  let found ← if request.discovers then linesOf (← IO.getStdin) else pure []
  (request.names ++ found).foldlM addFile start

def write (output : Output) : IO UInt32 := do
  for notice in output.notices do
    IO.eprintln notice.message
  IO.print output.stdout
  IO.eprint output.stderr
  return output.exit.toUInt32

def run (arguments : List String) : IO UInt32 := do
  match Request.read arguments with
  | .error refusal =>
      IO.eprint refusal.message
      return Refusal.exit.toUInt32
  | .ok request =>
      match perform (← diskFor request) request with
      | .ok output => write output
      | .error crash =>
          IO.print crash.stdout
          IO.eprintln crash.breakdown.message
          return 1

end LogicPuzzle.Main

def main (arguments : List String) : IO UInt32 :=
  LogicPuzzle.Main.run arguments
