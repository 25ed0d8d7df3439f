/-!
# Arguments

The arguments of a command line are options and operands.  An option is named by
a word after two dashes or by a letter after one.  Some options take a value: what
follows an equals sign after the word, the rest of the letter's argument, or the
next argument.  Two dashes alone end the options.
-/

namespace LogicPuzzle.Command

/-- An option: the name it is stored under, how it can be written, and whether it takes a value. -/
structure OptionForm where
  key : String
  words : List String
  letters : List Char
  takesValue : Bool
  deriving DecidableEq, Repr

inductive Refusal where
  | usage
  | missingValue (option : String)
  | needlessValue (option : String)
  deriving DecidableEq, Repr

structure Arguments where
  options : List (String × String)
  operands : List String
  deriving DecidableEq, Repr

namespace Arguments

def empty : Arguments := ⟨[], []⟩

def has (arguments : Arguments) (key : String) : Bool :=
  arguments.options.any fun option => option.1 == key

def last? (arguments : Arguments) (key : String) : Option String :=
  ((arguments.options.filter fun option => option.1 == key).getLast?).map (·.2)

def withOptions (options : List (String × String)) (arguments : Arguments) : Arguments :=
  { arguments with options := options ++ arguments.options }

def withOperand (operand : String) (arguments : Arguments) : Arguments :=
  { arguments with operands := operand :: arguments.operands }

end Arguments

/-- What one argument gives: options that are complete, and the option, as written,
that still needs the next argument for its value. -/
structure Given where
  options : List (String × String)
  wanting : Option (String × String)
  deriving DecidableEq, Repr

def wordForm? (forms : List OptionForm) (word : String) : Option OptionForm :=
  forms.find? fun form => form.words.contains word

def letterForm? (forms : List OptionForm) (letter : Char) : Option OptionForm :=
  forms.find? fun form => form.letters.contains letter

def readWord (forms : List OptionForm) (argument : List Char) : Except Refusal Given :=
  let word := String.ofList (argument.takeWhile (· != '='))
  match wordForm? forms word, argument.dropWhile (· != '=') with
  | none, _ => .error .usage
  | some form, [] =>
      if form.takesValue then .ok ⟨[], some (form.key, word)⟩ else .ok ⟨[(form.key, "")], none⟩
  | some form, _ :: value =>
      if form.takesValue then .ok ⟨[(form.key, String.ofList value)], none⟩
      else .error (.needlessValue word)

def readLetters (forms : List OptionForm) : List Char → Except Refusal Given
  | [] => .ok ⟨[], none⟩
  | letter :: rest =>
      match letterForm? forms letter with
      | none => .error .usage
      | some form =>
          if form.takesValue then
            if rest.isEmpty then .ok ⟨[], some (form.key, String.ofList ['-', letter])⟩
            else .ok ⟨[(form.key, String.ofList rest)], none⟩
          else
            (readLetters forms rest).map fun given =>
              { given with options := (form.key, "") :: given.options }

/-- Reads one argument as options; an operand gives nothing. -/
def readOption? (forms : List OptionForm) (argument : String) : Option (Except Refusal Given) :=
  match argument.toList with
  | '-' :: '-' :: _ => some (readWord forms argument.toList)
  | '-' :: letter :: rest => some (readLetters forms (letter :: rest))
  | _ => none

/-- Sorts arguments into options and operands.  Unless operands may be mixed with
options, the first operand ends the options. -/
def sortArguments (forms : List OptionForm) (mixed : Bool) :
    List String → Except Refusal Arguments
  | [] => .ok .empty
  | argument :: rest =>
      if argument = "--" then .ok ⟨[], rest⟩
      else
        match readOption? forms argument with
        | none =>
            if mixed then (sortArguments forms mixed rest).map (.withOperand argument)
            else .ok ⟨[], argument :: rest⟩
        | some (.error refusal) => .error refusal
        | some (.ok given) =>
            match given.wanting with
            | none => (sortArguments forms mixed rest).map (.withOptions given.options)
            | some (key, written) =>
                match rest with
                | [] => .error (.missingValue written)
                | value :: others =>
                    (sortArguments forms mixed others).map
                      (.withOptions (given.options ++ [(key, value)]))

end LogicPuzzle.Command
