import LogicPuzzle.Command.Request
import LogicPuzzle.Discovery
import LogicPuzzle.Loading
import LogicPuzzle.Release
import LogicPuzzle.Report
import LogicPuzzle.Search
import LogicPuzzle.Structured
import LogicPuzzle.Text.Plain

/-!
# Performing requests

A request is performed on a disk and gives what is written to the two output
streams, the exit code, and the notices on the way.  Files are worked on in
order, and the first one that cannot be dealt with ends the work.  A search
shows its results only when all files gave one; a check shows its lines as it
goes.  What was shown before the program broke down stays shown.
-/

namespace LogicPuzzle.Command

structure Output where
  exit : Nat
  stdout : String
  stderr : String
  notices : List Notice
  deriving DecidableEq, Repr

/-- What ends the program without a message of its own. -/
inductive Breakdown where
  | text (fault : TextFault)
  | numeral
  | notTable
  | outOfRange
  | tooDeep
  deriving DecidableEq, Repr

/-- A program that broke down, and what it had shown by then. -/
structure Crash where
  breakdown : Breakdown
  stdout : String
  deriving DecidableEq, Repr

namespace Breakdown

def message : Breakdown → String
  | .text (.disk fault) => fault.systemText
  | .text .undecodable => "a file is not UTF-8 text"
  | .numeral => "a number has too many digits"
  | .notTable => "a section of the manifest is not a table"
  | .outOfRange => "an index lies before the start of an array"
  | .tooDeep => "a value of the manifest is nested too deep"

end Breakdown

inductive Complaint where
  | told (message : String)
  | breakdown (breakdown : Breakdown)
  deriving DecidableEq, Repr

/-- The result of the work on a file, with the notices on the way. -/
abbrev Worked (α : Type) := List Notice × Except Complaint α

namespace Output

def failed (message : String) (notices : List Notice) : Output :=
  ⟨1, "", Text.shown message ++ "\n", notices⟩

end Output

def readComplaint (path : Path) : TextFault → Complaint
  | .disk .nulInName => .breakdown (.text (.disk .nulInName))
  | .disk .tooDeep => .breakdown (.text (.disk .tooDeep))
  | .disk fault =>
      .told ("Cannot read " ++ path.toString ++ ": " ++ fault.systemText ++ ": " ++
        Text.quoted path.toString)
  | .undecodable => .breakdown (.text .undecodable)

def loadComplaint (path : Path) : LoadFailure → Complaint
  | .text fault => readComplaint path fault
  | .reading (.fault diagnostic) => .told ("Parse error: " ++ diagnostic.render)
  | .reading (.numeral _) => .breakdown .numeral
  | .reading .outOfRange => .breakdown .outOfRange

def modelComplaint (diagnostic : Diagnostic ModelFault) : Complaint :=
  .told ("Error: " ++ diagnostic.render)

def searchComplaint : Unresolved → Complaint
  | .fault diagnostic => modelComplaint diagnostic
  | .outOfRange => .breakdown .outOfRange
  | .numeral => .breakdown .numeral

def loadModel (disk : Disk) (path : Path) : Worked (Puzzle × Model) :=
  match loadPuzzle disk path with
  | .error failure => ([], .error (loadComplaint path failure))
  | .ok (puzzle, notices) =>
      match Model.build puzzle with
      | .error diagnostic => (notices, .error (modelComplaint diagnostic))
      | .ok model => (notices, .ok (puzzle, model))

def solveFile (disk : Disk) (limit : Nat) (path : Path) : Worked Outcome :=
  match loadModel disk path with
  | (notices, .error complaint) => (notices, .error complaint)
  | (notices, .ok (_, model)) =>
      (notices ++ model.notices, (model.solve (some limit)).mapError searchComplaint)

def summary (puzzle : Puzzle) (model : Model) : String :=
  puzzle.name ++ ": " ++ toString puzzle.domains.length ++ " domains, " ++
    toString puzzle.schemas.length ++ " structs, " ++
    toString puzzle.declarations.length ++ " variables (" ++ toString model.cells.length ++
    " cells), " ++ toString puzzle.rules.length ++ " rules, search space " ++
    toString model.searchSpace

def checkFile (disk : Disk) (path : Path) : Worked String :=
  match loadModel disk path with
  | (notices, .error complaint) => (notices, .error complaint)
  | (notices, .ok (puzzle, model)) =>
      if Numeral.tooLong model.searchSpace then (notices, .error (.breakdown .numeral))
      else (notices, .ok (summary puzzle model))

/-- Work on files in order: the notices, the results up to the first complaint, and
the complaint if there was one. -/
def inOrder {α : Type} (work : Path → Worked α) :
    List Path → List Notice × List α × Option Complaint
  | [] => ([], [], none)
  | path :: rest =>
      match work path with
      | (notices, .error complaint) => (notices, [], some complaint)
      | (notices, .ok result) =>
          let (later, results, complaint) := inOrder work rest
          (notices ++ later, result :: results, complaint)

/-- The output when work ended with a complaint, after some text had been shown. -/
def complained (stdout : String) (notices : List Notice) : Complaint → Except Crash Output
  | .told message => .ok { Output.failed message notices with stdout := stdout }
  | .breakdown breakdown => .error ⟨breakdown, stdout⟩

/-- The settings and the directory of a manifest, or the output that tells what is wrong with it. -/
def loadSettings (disk : Disk) (manifest : String) :
    Except Crash (Except Output (Path × Manifest)) :=
  match Disk.locate disk.workingDirectory (Path.ofString manifest) with
  | .error fault => .error ⟨.text (.disk fault), ""⟩
  | .ok path =>
      match Manifest.load disk path with
      | .ok settings => .ok (.ok (path.parent, settings))
      | .error (.fault fault) =>
          .ok (.error (.failed ("Error loading manifest: " ++ Wording.message fault) []))
      | .error .notTable => .error ⟨.notTable, ""⟩
      | .error .numeral => .error ⟨.numeral, ""⟩
      | .error .tooDeep => .error ⟨.tooDeep, ""⟩
      | .error (.text fault) => .error ⟨.text fault, ""⟩

/-- The files to work on: those named, or those that the manifest leads to; or the
output that tells that there are none. -/
def chosenFiles (disk : Disk) (puzzles : List String) (directory : Path) (settings : Manifest) :
    Except Crash (Except Output (List Path)) :=
  let files :=
    if puzzles.isEmpty then Discovery.find disk directory settings.puzzlePaths
    else .ok (puzzles.map Path.ofString)
  match files with
  | .error fault => .error ⟨.text (.disk fault), ""⟩
  | .ok [] =>
      .ok (.error (.failed
        ("No puzzle files found (see " ++ Manifest.fileName ++ " [project] puzzles)") []))
  | .ok files => .ok (.ok files)

/-- The format to show results in: the one named, unless its name is empty, or that of the manifest. -/
def chosenFormat (named : Option String) (settings : Manifest) : Except Output Format :=
  match named.filter (· != "") with
  | none => .ok settings.format
  | some name =>
      match Format.ofName? name with
      | some format => .ok format
      | none => .error (.failed ("Unknown format: " ++ name) [])

def labelFields (labels : Table String) : Structured :=
  .fields (labels.map fun label => (label.1, .text label.2))

/-- The structured form of an outcome: its data under their names, in the order of their declaration,
as the dump of a validated record gives them. -/
def structured (outcome : Outcome) : Structured :=
  .fields
    [("puzzle", .text outcome.puzzle),
     ("status", .text outcome.status.name),
     ("iterations", .number outcome.iterations),
     ("search_space", .number outcome.searchSpace),
     ("records", .fields (outcome.records.map fun array =>
       (array.1, .list (array.2.map labelFields)))),
     ("scalars", .fields (outcome.scalars.map fun array =>
       (array.1, .list (array.2.map .text))))]

def title (several : Bool) (outcome : Outcome) : String :=
  if several then Text.shown ("== " ++ outcome.puzzle) ++ "\n" else ""

def titledReport (orders : Report.FieldOrder) (several : Bool) (outcome : Outcome) : String :=
  title several outcome ++ Text.shown (Report.render orders outcome)

def showOutcomes (format : Format) (orders : Report.FieldOrder) (outcomes : List Outcome) : String :=
  match format with
  | .json => (Structured.list (outcomes.map structured)).write ++ "\n"
  | .text => String.join (outcomes.map (titledReport orders (decide (1 < outcomes.length))))

def writesSpace (format : Format) (outcome : Outcome) : Bool :=
  format == .json || outcome.status == .aborted

def canShow (format : Format) (outcome : Outcome) : Bool :=
  !(writesSpace format outcome && Numeral.tooLong outcome.searchSpace)

/-- What is shown before an outcome that cannot be: nothing of a list that is written as a whole,
but the reports before that of the outcome, and its title. -/
def shownBefore (format : Format) (orders : Report.FieldOrder) (several : Bool)
    (before : List Outcome) (outcome : Outcome) : String :=
  match format with
  | .json => ""
  | .text => String.join (before.map (titledReport orders several)) ++ title several outcome

def solvedOutput (format : Format) (orders : Report.FieldOrder) (outcomes : List Outcome)
    (notices : List Notice) : Except Crash Output :=
  match outcomes.dropWhile (canShow format) with
  | [] =>
      .ok ⟨if outcomes.all Outcome.solved then 0 else 2, showOutcomes format orders outcomes, "",
        notices⟩
  | outcome :: _ =>
      .error ⟨.numeral, shownBefore format orders (decide (1 < outcomes.length))
        (outcomes.takeWhile (canShow format)) outcome⟩

def performSolve (disk : Disk) (request : SolveRequest) : Except Crash Output := do
  match ← loadSettings disk request.manifest with
  | .error output => return output
  | .ok (directory, settings) =>
      match ← chosenFiles disk request.puzzles directory settings with
      | .error output => return output
      | .ok files =>
          match chosenFormat request.format settings with
          | .error output => return output
          | .ok format =>
              let limit := request.limit.getD settings.limit.toNat
              match inOrder (solveFile disk limit) files with
              | (notices, _, some complaint) => complained "" notices complaint
              | (notices, outcomes, none) =>
                  solvedOutput format settings.fieldOrder outcomes notices

def asLines (texts : List String) : String :=
  String.join (texts.map (Text.shown · ++ "\n"))

def performCheck (disk : Disk) (puzzles : List String) (manifest : String) :
    Except Crash Output := do
  match ← loadSettings disk manifest with
  | .error output => return output
  | .ok (directory, settings) =>
      match ← chosenFiles disk puzzles directory settings with
      | .error output => return output
      | .ok files =>
          match inOrder (checkFile disk) files with
          | (notices, summaries, some complaint) =>
              complained (asLines summaries) notices complaint
          | (notices, summaries, none) => return ⟨0, asLines summaries, "", notices⟩

def performTokens (disk : Disk) (puzzle : String) : Except Crash Output :=
  let path := Path.ofString puzzle
  match loadTokens disk path with
  | .error failure => complained "" [] (loadComplaint path failure)
  | .ok tokens => .ok ⟨0, asLines (tokens.map Token.listing), "", []⟩

def usageText : String :=
  "Usage: " ++ Release.program ++ " [--version] [--verbose] solve|check|tokens [OPTIONS] [PATHS]\n"

def perform (disk : Disk) : Request → Except Crash Output
  | .version => .ok ⟨0, Release.program ++ " " ++ Release.current ++ "\n", "", []⟩
  | .help => .ok ⟨0, usageText, "", []⟩
  | .solve request => performSolve disk request
  | .check puzzles manifest => performCheck disk puzzles manifest
  | .tokens puzzle => performTokens disk puzzle

namespace Refusal

def frameWidth : Nat := 80

def framed (message : String) : String :=
  let title := "╭─ Error "
  let bar (n : Nat) : String := String.ofList (List.replicate n '─')
  let blank (n : Nat) : String := String.ofList (List.replicate n ' ')
  title ++ bar (frameWidth - 1 - title.length) ++ "╮\n" ++
    "│ " ++ message ++ blank (frameWidth - 4 - message.length) ++ " │\n" ++
    "╰" ++ bar (frameWidth - 2) ++ "╯\n"

def message : Refusal → String
  | .usage => usageText
  | .missingValue option => framed ("Option '" ++ option ++ "' requires an argument.")
  | .needlessValue option => framed ("Option '" ++ option ++ "' does not take a value.")

def exit : Nat := 2

end Refusal

end LogicPuzzle.Command
