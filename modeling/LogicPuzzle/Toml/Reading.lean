import LogicPuzzle.Digits
import LogicPuzzle.Toml.Value

/-!
# Reading TOML text

A TOML reading consumes characters from the front of a text and gives a value or
fails.  This module has the readings of spaces, comments, keys and strings.
-/

namespace LogicPuzzle.Toml

/-- Why a text is no TOML document: it breaks the rules of the format, or it has
a numeral that is too long to be read. -/
inductive Fault where
  | malformed
  | numeral
  deriving DecidableEq, Repr

abbrev Reading (α : Type) := StateT (List Char) (Except Fault) α

namespace Reading

variable {α : Type}

def malformed : Reading α := fun _ => .error .malformed

def peek : Reading (Option Char) := fun cs => .ok (cs.head?, cs)

def run (ofClass : Char → Bool) : Reading (List Char) := fun cs =>
  .ok (cs.takeWhile ofClass, cs.dropWhile ofClass)

def accept (text : List Char) : Reading Bool := fun cs =>
  if text.isPrefixOf cs then .ok (true, cs.drop text.length) else .ok (false, cs)

def require (text : List Char) : Reading Unit := do
  if ← accept text then return () else malformed

def isSpace (c : Char) : Bool :=
  c == ' ' || c == '\t'

def isSpaceOrNewline (c : Char) : Bool :=
  isSpace c || c == '\n'

def isControl (c : Char) : Bool :=
  (c.toNat < 32 && c != '\t') || c.toNat == 127

def spaces : Reading Unit := do
  let _ ← run isSpace

def comment : Reading Unit := do
  if ← accept ['#'] then
    let text ← run (· != '\n')
    if text.any isControl then malformed else return ()
  else return ()

/-- The characters after all blanks, ends of lines and comments in front.  Each
round takes a comment, so the number of characters bounds the rounds. -/
def gapRounds : Nat → Reading Unit
  | 0 => return ()
  | rounds + 1 => do
      let _ ← run isSpaceOrNewline
      match ← peek with
      | some '#' =>
          comment
          gapRounds rounds
      | _ => return ()

def gap : Reading Unit := fun cs => gapRounds (cs.length + 1) cs

def hexCharacter (width : Nat) : Reading (List Char) := fun cs =>
  match (cs.take width).mapM Digits.valueOf? with
  | none => .error .malformed
  | some values =>
      let point := values.foldl (fun n value => 16 * n + value) 0
      if values.length = width ∧ point.isValidChar then
        .ok ([Char.ofNat point], cs.drop width)
      else .error .malformed

/-- Reads the end of a line that a backslash removes, with all blanks around it. -/
def removedNewline : Reading (List Char) := do
  let _ ← run isSpace
  match ← peek with
  | none => return []
  | some '\n' =>
      let _ ← run isSpaceOrNewline
      return []
  | some _ => malformed

def escaped (multiline : Bool) : Reading (List Char) := fun cs =>
  match cs with
  | 'b' :: rest => .ok (['\x08'], rest)
  | 't' :: rest => .ok (['\t'], rest)
  | 'n' :: rest => .ok (['\n'], rest)
  | 'f' :: rest => .ok (['\x0c'], rest)
  | 'r' :: rest => .ok (['\r'], rest)
  | '"' :: rest => .ok (['"'], rest)
  | '\\' :: rest => .ok (['\\'], rest)
  | 'u' :: rest => hexCharacter 4 rest
  | 'U' :: rest => hexCharacter 8 rest
  | c :: _ => if multiline && isSpaceOrNewline c then removedNewline cs else .error .malformed
  | [] => .error .malformed

/-- Reads a string with escapes up to and including its closing quotes.  The first
argument bounds the characters and escapes; the length of the text is bound enough. -/
def escapedBody (multiline : Bool) : Nat → Reading (List Char)
  | 0 => malformed
  | bound + 1 => do
      if ← accept (if multiline then ['"', '"', '"'] else ['"']) then return []
      else if ← accept ['\\'] then
        let part ← escaped multiline
        let rest ← escapedBody multiline bound
        return part ++ rest
      else
        match ← get with
        | [] => malformed
        | c :: rest =>
            if isControl c && !(multiline && c == '\n') then malformed
            else
              set rest
              return c :: (← escapedBody multiline bound)

def escapedString (multiline : Bool) : Reading (List Char) := fun cs =>
  escapedBody multiline (cs.length + 1) cs

def literalBody (multiline : Bool) : Nat → Reading (List Char)
  | 0 => malformed
  | bound + 1 => do
      if ← accept (if multiline then ['\'', '\'', '\''] else ['\'']) then return []
      else
        match ← get with
        | [] => malformed
        | c :: rest =>
            if isControl c && !(multiline && c == '\n') then malformed
            else
              set rest
              return c :: (← literalBody multiline bound)

def literalString (multiline : Bool) : Reading (List Char) := fun cs =>
  literalBody multiline (cs.length + 1) cs

/-- Reads at most two more quotes, which belong to a string of several lines that
ended in three. -/
def extraQuotes (quote : Char) : Reading (List Char) := do
  if ← accept [quote, quote] then return [quote, quote]
  else if ← accept [quote] then return [quote]
  else return []

def multilineString (quote : Char) (body : Reading (List Char)) : Reading (List Char) := do
  let _ ← accept ['\n']
  let text ← body
  return text ++ (← extraQuotes quote)

def string : Reading (List Char) := do
  if ← accept ['"', '"', '"'] then multilineString '"' (escapedString true)
  else if ← accept ['\'', '\'', '\''] then multilineString '\'' (literalString true)
  else if ← accept ['"'] then escapedString false
  else
    require ['\'']
    literalString false

def isBareKey (c : Char) : Bool :=
  c.isAlphanum || c == '-' || c == '_'

def keyPart : Reading String := do
  match ← peek with
  | some '"' =>
      require ['"']
      return String.ofList (← escapedString false)
  | some '\'' =>
      require ['\'']
      return String.ofList (← literalString false)
  | _ =>
      let text ← run isBareKey
      if text.isEmpty then malformed else return String.ofList text

def keyRest : Nat → Reading (List String)
  | 0 => malformed
  | bound + 1 => do
      spaces
      if ← accept ['.'] then
        spaces
        let part ← keyPart
        return part :: (← keyRest bound)
      else return []

/-- Reads a key: its parts with points between them. -/
def key : Reading (List String) := do
  let first ← keyPart
  let rest ← fun cs => keyRest (cs.length + 1) cs
  return first :: rest

end Reading

end LogicPuzzle.Toml
