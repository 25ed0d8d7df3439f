import LogicPuzzle.Toml.Number

/-!
# TOML documents

A document is built statement by statement.  Beside the tables read so far it
keeps three sets of keys: those whose values were written in one piece and
cannot be extended, those that have been opened as a table and cannot be opened
again, and those opened by a dotted key in the section at hand, which join the
second set when the next section begins.
-/

namespace LogicPuzzle.Toml

abbrev Key := List String

/-- Applies a change to the table at a path, making the tables on the way.  A path
may go through the last table of an array of tables where that is allowed. -/
def changeAt (throughArrays : Bool) (change : Table Value → Except Fault (Table Value)) :
    Key → Table Value → Except Fault (Table Value)
  | [], table => change table
  | name :: key, table =>
      match Table.find? name table with
      | none => do
          let inner ← changeAt throughArrays change key []
          return table.put name (.table inner)
      | some (.table inner) => do
          let changed ← changeAt throughArrays change key inner
          return table.put name (.table changed)
      | some (.array items) =>
          match throughArrays, items.getLast? with
          | true, some (.table inner) => do
              let changed ← changeAt throughArrays change key inner
              return table.put name (.array (items.dropLast ++ [.table changed]))
          | _, _ => .error .malformed
      | some _ => .error .malformed

def addEntry (name : String) (value : Value) (table : Table Value) : Except Fault (Table Value) :=
  match Table.find? name table with
  | none => .ok (table.put name value)
  | some _ => .error .malformed

def addTable (name : String) (table : Table Value) : Except Fault (Table Value) :=
  match Table.find? name table with
  | none => .ok (table.put name (.array [.table []]))
  | some (.array items) => .ok (table.put name (.array (items ++ [.table []])))
  | some _ => .error .malformed

structure Draft where
  root : Table Value
  frozen : List Key
  opened : List Key
  pending : List Key
  base : Key

namespace Draft

def empty : Draft := ⟨[], [], [], [], []⟩

def isFrozen (draft : Draft) (key : Key) : Bool :=
  draft.frozen.any fun frozen => frozen.isPrefixOf key

def isOpened (draft : Draft) (key : Key) : Bool :=
  draft.opened.contains key

def endSection (draft : Draft) : Draft :=
  { draft with opened := draft.opened ++ draft.pending, pending := [] }

def openTable (draft : Draft) (key : Key) : Except Fault Draft := do
  if draft.isOpened key || draft.isFrozen key then throw .malformed
  let root ← changeAt true .ok key draft.root
  return { draft with root := root, opened := key :: draft.opened, base := key }

def openArrayTable (draft : Draft) (key : Key) : Except Fault Draft := do
  if draft.isFrozen key then throw .malformed
  let root ← changeAt true (addTable (key.getLastD "")) key.dropLast draft.root
  let outside (other : Key) : Bool := !key.isPrefixOf other
  return { draft with
    root := root
    frozen := draft.frozen.filter outside
    opened := key :: draft.opened.filter outside
    base := key }

def passed (draft : Draft) (key : Key) : List Key :=
  (List.range (key.length - 1)).map fun n => draft.base ++ key.take (n + 1)

/-- Whether a value was written in one piece and cannot be extended. -/
def isClosed : Value → Bool
  | .array _ => true
  | .table _ => true
  | _ => false

def assign (draft : Draft) (key : Key) (value : Value) : Except Fault Draft := do
  let passed := draft.passed key
  if passed.any draft.isOpened then throw .malformed
  let parent := draft.base ++ key.dropLast
  if draft.isFrozen parent then throw .malformed
  let root ← changeAt true (addEntry (key.getLastD "") value) parent draft.root
  let whole := draft.base ++ key
  return { draft with
    root := root
    pending := draft.pending ++ passed
    frozen := if isClosed value then whole :: draft.frozen else draft.frozen }

end Draft

structure InlineDraft where
  root : Table Value
  frozen : List Key

namespace InlineDraft

def assign (draft : InlineDraft) (key : Key) (value : Value) : Except Fault InlineDraft := do
  if draft.frozen.any fun frozen => frozen.isPrefixOf key then throw .malformed
  let root ← changeAt false (addEntry (key.getLastD "") value) key.dropLast draft.root
  return ⟨root, if Draft.isClosed value then key :: draft.frozen else draft.frozen⟩

end InlineDraft

namespace Reading

def equalsSign : Reading Unit := do
  require ['=']
  spaces

mutual

/-- Reads a value.  The first argument bounds the depth and length of what is read;
the length of the text is bound enough. -/
def value : Nat → Reading Value
  | 0 => malformed
  | bound + 1 => do
      match ← peek with
      | some '"' => return .string (String.ofList (← string))
      | some '\'' => return .string (String.ofList (← string))
      | some '[' =>
          require ['[']
          gap
          if ← accept [']'] then return .array []
          else return .array (← items bound)
      | some '\x7b' =>
          require ['\x7b']
          spaces
          if ← accept ['\x7d'] then return .table []
          else return .table (← inlineEntries bound ⟨[], []⟩)
      | _ =>
          if ← accept ['t', 'r', 'u', 'e'] then return .boolean true
          else if ← accept ['f', 'a', 'l', 's', 'e'] then return .boolean false
          else number

def items : Nat → Reading (List Value)
  | 0 => malformed
  | bound + 1 => do
      let item ← value bound
      gap
      if ← accept [']'] then return [item]
      else
        require [',']
        gap
        if ← accept [']'] then return [item]
        else return item :: (← items bound)

def inlineEntries : Nat → InlineDraft → Reading (Table Value)
  | 0, _ => malformed
  | bound + 1, draft => do
      let key ← key
      equalsSign
      let value ← value bound
      let draft ← draft.assign key value
      spaces
      if ← accept ['\x7d'] then return draft.root
      else
        require [',']
        spaces
        inlineEntries bound draft

end

def tableHeader (draft : Draft) : Reading Draft := do
  spaces
  let key ← key
  let draft ← draft.endSection.openTable key
  require [']']
  return draft

def arrayTableHeader (draft : Draft) : Reading Draft := do
  spaces
  let key ← key
  let draft ← draft.endSection.openArrayTable key
  require [']', ']']
  return draft

def assignment (draft : Draft) : Reading Draft := do
  let key ← key
  equalsSign
  let value ← fun cs => value (2 * cs.length + 2) cs
  draft.assign key value

def statement (draft : Draft) : Reading Draft := do
  match ← peek with
  | none => return draft
  | some '\n' => return draft
  | some '#' => return draft
  | some '[' =>
      if ← accept ['[', '['] then arrayTableHeader draft
      else
        require ['[']
        tableHeader draft
  | some _ => assignment draft

/-- Reads lines up to the end of the text.  Each round takes an end of a line, so
the number of characters bounds the rounds. -/
def lines : Nat → Draft → Reading Draft
  | 0, _ => malformed
  | rounds + 1, draft => do
      spaces
      let draft ← statement draft
      spaces
      comment
      if ← accept ['\n'] then lines rounds draft
      else
        match ← peek with
        | none => return draft
        | some _ => malformed

end Reading

def joinReturns : List Char → List Char
  | '\r' :: '\n' :: rest => '\n' :: joinReturns rest
  | c :: rest => c :: joinReturns rest
  | [] => []

def read (text : String) : Except Fault (Table Value) :=
  let cs := joinReturns text.toList
  (Reading.lines (cs.length + 1) .empty cs).map fun (draft, _) => draft.root

end LogicPuzzle.Toml
