import LogicPuzzle.Command.Arguments
import LogicPuzzle.Command.WholeNumber
import LogicPuzzle.Manifest

/-!
# Requests

What a command line asks for.  Options in front of the command concern the whole
program; those behind it concern the command.
-/

namespace LogicPuzzle.Command

structure SolveRequest where
  puzzles : List String
  manifest : String
  format : Option String
  limit : Option Nat
  deriving DecidableEq, Repr

inductive Request where
  | version
  | help
  | solve (request : SolveRequest)
  | check (puzzles : List String) (manifest : String)
  | tokens (puzzle : String)
  deriving DecidableEq, Repr

def helpForm : OptionForm := ⟨"help", ["--help"], [], false⟩

def manifestForm : OptionForm := ⟨"manifest", ["--manifest"], ['m'], true⟩

def programForms : List OptionForm :=
  [⟨"version", ["--version"], [], false⟩, ⟨"verbose", ["--verbose"], ['V'], false⟩, helpForm]

def solveForms : List OptionForm :=
  [manifestForm, ⟨"format", ["--format"], ['f'], true⟩,
    ⟨"limit", ["--max-iterations"], ['n'], true⟩, helpForm]

def checkForms : List OptionForm := [manifestForm, helpForm]

namespace Request

/-- A limit as given: a whole number that is not negative. -/
def readLimit : Option String → Except Refusal (Option Nat)
  | none => .ok none
  | some text =>
      match WholeNumber.read? text.toList with
      | none => .error .usage
      | some n => if 0 ≤ n then .ok (some n.toNat) else .error .usage

def manifestOf (arguments : Arguments) : String :=
  (arguments.last? "manifest").getD Manifest.fileName

def readSolve (arguments : List String) : Except Refusal Request := do
  let arguments ← sortArguments solveForms true arguments
  if arguments.has "help" then return .help
  let limit ← readLimit (arguments.last? "limit")
  return .solve
    ⟨arguments.operands, manifestOf arguments, arguments.last? "format", limit⟩

def readCheck (arguments : List String) : Except Refusal Request := do
  let arguments ← sortArguments checkForms true arguments
  if arguments.has "help" then return .help
  return .check arguments.operands (manifestOf arguments)

def readTokens (arguments : List String) : Except Refusal Request := do
  let arguments ← sortArguments [helpForm] true arguments
  if arguments.has "help" then return .help
  match arguments.operands with
  | [puzzle] => return .tokens puzzle
  | _ => throw .usage

def read (commandLine : List String) : Except Refusal Request := do
  let arguments ← sortArguments programForms false commandLine
  if arguments.has "version" then return .version
  if arguments.has "help" then return .help
  match arguments.operands with
  | "solve" :: rest => readSolve rest
  | "check" :: rest => readCheck rest
  | "tokens" :: rest => readTokens rest
  | _ => throw .usage

def names : Request → List String
  | .solve request => request.manifest :: request.puzzles
  | .check puzzles manifest => manifest :: puzzles
  | .tokens puzzle => [puzzle]
  | _ => []

def discovers : Request → Bool
  | .solve request => request.puzzles.isEmpty
  | .check puzzles _ => puzzles.isEmpty
  | _ => false

end Request

end LogicPuzzle.Command
