import LogicPuzzle.Text.Quoted

/-!
# Structured output

Texts, numbers, lists and named fields, written as JSON with two blanks for each
level.  Characters outside printable ASCII are written as escapes of four
hexadecimal digits, those beyond the basic plane as two of them.
-/

namespace LogicPuzzle

inductive Structured where
  | text (value : String)
  | number (value : Int)
  | list (items : List Structured)
  | fields (entries : List (String × Structured))

namespace Structured

def unitEscape (unit : Nat) : List Char :=
  '\\' :: 'u' :: Text.hex 4 unit

def encodeChar (c : Char) : List Char :=
  let n := c.toNat
  if c == '"' || c == '\\' then ['\\', c]
  else if c == '\n' then ['\\', 'n']
  else if c == '\r' then ['\\', 'r']
  else if c == '\t' then ['\\', 't']
  else if n == 8 then ['\\', 'b']
  else if n == 12 then ['\\', 'f']
  else if 32 ≤ n ∧ n < 127 then [c]
  else if n < 0x10000 then unitEscape n
  else
    let beyond := n - 0x10000
    unitEscape (0xD800 + beyond / 1024) ++ unitEscape (0xDC00 + beyond % 1024)

def quote (text : String) : String :=
  String.ofList ('"' :: text.toList.flatMap encodeChar ++ ['"'])

def lineStart (level : Nat) : String :=
  String.ofList ('\n' :: List.replicate (2 * level) ' ')

def block (opening closing : String) (level : Nat) (items : List String) : String :=
  if items.isEmpty then opening ++ closing
  else
    opening ++ lineStart (level + 1) ++ ("," ++ lineStart (level + 1)).intercalate items ++
      lineStart level ++ closing

mutual

def writeAt (level : Nat) : Structured → String
  | .text value => quote value
  | .number value => toString value
  | .list items => block "[" "]" level (writeItems (level + 1) items)
  | .fields entries => block "\x7b" "\x7d" level (writeEntries (level + 1) entries)

def writeItems (level : Nat) : List Structured → List String
  | [] => []
  | item :: rest => writeAt level item :: writeItems level rest

def writeEntries (level : Nat) : List (String × Structured) → List String
  | [] => []
  | (name, value) :: rest =>
      (quote name ++ ": " ++ writeAt level value) :: writeEntries level rest

end

def write (value : Structured) : String :=
  writeAt 0 value

end Structured

end LogicPuzzle
