/-!
# Paths

A path is an anchor and a list of components.  Reading a path drops repeated
slashes, a slash at the end, and components that are a single dot; two dots
stay.  Exactly two slashes in front are an anchor of their own.
-/

namespace LogicPuzzle

/-- Where a path starts: at the working directory, at `/`, or at `//`. -/
inductive Anchor where
  | relative
  | root
  | doubleRoot
  deriving DecidableEq, Repr

structure Path where
  anchor : Anchor
  parts : List String
  deriving DecidableEq, Repr

namespace Path

def components : List Char → List Char × List (List Char)
  | [] => ([], [])
  | c :: rest =>
      let later := components rest
      if c = '/' then ([], later.1 :: later.2) else (c :: later.1, later.2)

def anchorOf : List Char → Anchor
  | '/' :: '/' :: '/' :: _ => .root
  | '/' :: '/' :: _ => .doubleRoot
  | '/' :: _ => .root
  | _ => .relative

def ofString (text : String) : Path where
  anchor := anchorOf text.toList
  parts :=
    let (first, later) := components text.toList
    ((first :: later).map String.ofList).filter fun part => part != "" && part != "."

def anchorText : Anchor → String
  | .relative => ""
  | .root => "/"
  | .doubleRoot => "//"

/-- The written form of a path; a path without anchor and components is a dot. -/
def toString (path : Path) : String :=
  if path.anchor = .relative ∧ path.parts = [] then "."
  else anchorText path.anchor ++ "/".intercalate path.parts

def hasNul (path : Path) : Bool :=
  path.parts.any fun part => part.toList.contains '\x00'

def name (path : Path) : String :=
  path.parts.getLastD ""

/-- A component without its last suffix.  A suffix starts at the last dot, which
is neither the first nor the last character. -/
def dropSuffix (component : String) : String :=
  let reversed := component.toList.reverse
  let suffix := reversed.takeWhile (· != '.')
  match reversed.dropWhile (· != '.') with
  | [] => component
  | [_] => component
  | _ :: before => if suffix = [] then component else String.ofList before.reverse

def stem (path : Path) : String :=
  dropSuffix path.name

def join (base path : Path) : Path :=
  match path.anchor with
  | .relative => { base with parts := base.parts ++ path.parts }
  | _ => path

/-- Components with each pair of dots removed together with the component before it. -/
def collapse (parts : List String) : List String :=
  (parts.foldl (fun kept part => if part = ".." then kept.drop 1 else part :: kept) []).reverse

/-- The absolute path without pairs of dots that a path denotes at a working directory. -/
def resolve (workingDirectory path : Path) : Path where
  anchor := .root
  parts := collapse (workingDirectory.join path).parts

def parent (path : Path) : Path :=
  { path with parts := path.parts.dropLast }

/-- The path that stands for a text that no file holds. -/
def unnamed : Path := ⟨.relative, ["<string>"]⟩

end Path

end LogicPuzzle
