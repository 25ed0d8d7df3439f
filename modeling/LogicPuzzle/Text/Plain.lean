/-!
# Plain text

Text that is shown has no control sequences.  A control sequence is an escape
character and an opening bracket, then any digits, semicolons and question
marks, then a letter.  What only looks like the start of one stays.
-/

namespace LogicPuzzle.Text

def isParameter (c : Char) : Bool :=
  c.isDigit || c == ';' || c == '?'

def afterControl? : List Char → Option (List Char)
  | '\x1b' :: '[' :: rest =>
      match rest.dropWhile isParameter with
      | [] => none
      | last :: behind => if last.isAlpha then some behind else none
  | _ => none

theorem length_lt_of_afterControl? {cs behind : List Char}
    (found : afterControl? cs = some behind) : behind.length < cs.length := by
  unfold afterControl? at found
  split at found
  · rename_i rest
    have shorter := (List.dropWhile_sublist isParameter (l := rest)).length_le
    split at found
    · simp at found
    · rename_i last others same
      split at found
      · cases found
        rw [same] at shorter
        simp only [List.length_cons] at shorter ⊢
        omega
      · simp at found
  · simp at found

def plain : List Char → List Char
  | [] => []
  | c :: rest =>
      match _found : afterControl? (c :: rest) with
      | some behind => plain behind
      | none => c :: plain rest
termination_by cs => cs.length
decreasing_by
  · exact length_lt_of_afterControl? _found
  · simp

/-- A text as it is shown on something that is no terminal: the echo of the command line leaves out
control sequences there, and nothing else. -/
def shown (text : String) : String :=
  String.ofList (plain text.toList)

end LogicPuzzle.Text
