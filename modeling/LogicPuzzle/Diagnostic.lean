import LogicPuzzle.Path

/-!
# Diagnostics

A diagnostic is a cause and, where it is known, the place in a file it concerns.
The cause says what is wrong, and `Wording` says it in words.
-/

namespace LogicPuzzle

/-- A line and a column of a text, both counted from one.  A zero stands for an
unknown line or column. -/
structure Position where
  line : Int
  column : Int
  deriving DecidableEq, Repr

class Wording (κ : Type) where
  message : κ → String

instance : Wording String where
  message text := text

structure Site where
  file : Path
  position : Position
  snippet : Option String
  deriving DecidableEq, Repr

namespace Site

def gutterNumber (n : Int) : String :=
  let digits := toString n
  String.ofList (List.replicate (4 - digits.length) ' ') ++ digits

def gutter (line : Int) : String :=
  gutterNumber line ++ " | "

def marker (position : Position) : String :=
  let indent := (gutter position.line).length + (max position.column 1 - 1).toNat
  String.ofList (List.replicate indent ' ') ++ "^^^"

def label (site : Site) : String :=
  site.file.toString ++ ":" ++ toString site.position.line ++ ":" ++ toString site.position.column

def render (site : Site) : String :=
  match site.snippet with
  | none => site.label
  | some snippet =>
      site.label ++ "\n" ++ gutter site.position.line ++ snippet ++ "\n" ++ marker site.position

def known? (file : Option Path) (position : Position) : Option Site :=
  if position.line = 0 ∨ position.column = 0 then none
  else file.map fun path => ⟨path, position, none⟩

end Site

structure Diagnostic (κ : Type) where
  cause : κ
  site : Option Site
  deriving DecidableEq, Repr

namespace Diagnostic

variable {κ : Type} [Wording κ]

def message (diagnostic : Diagnostic κ) : String :=
  Wording.message diagnostic.cause

/-- The whole text of a diagnostic: the place, when known, and the words. -/
def render (diagnostic : Diagnostic κ) : String :=
  match diagnostic.site with
  | none => diagnostic.message
  | some site => site.render ++ "\n" ++ diagnostic.message

end Diagnostic

end LogicPuzzle
