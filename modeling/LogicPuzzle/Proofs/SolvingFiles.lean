import LogicPuzzle.Command.Perform
import Mathlib.Data.List.Forall2
import Mathlib.Data.List.TakeWhile

/-!
# Solving several files

The files of a request are independent of each other.  When all of them end in
an outcome, what is shown is put together from what each file gives alone.  The
first file that ends otherwise decides the output, whatever stands behind it.
-/

namespace LogicPuzzle

/-! ## Files that cannot be read -/

theorem Node.walk_ne_tooDeep (behind : List Node) (node : Node) (names : List String) :
    node.walk behind names ≠ .error .tooDeep := by
  fun_induction Node.walk behind node names with
  | case1 => nofun
  | case2 => nofun
  | case3 _ _ outside => exact outside
  | case4 => assumption
  | case5 => nofun
  | case6 => nofun
  | case7 => assumption

/-- Only a way down to other files can be too deep, not the way to a file. -/
theorem Disk.text_ne_tooDeep (disk : Disk) (path : Path) :
    disk.text path ≠ .error (.disk .tooDeep) := by
  have node : disk.node path ≠ .error .tooDeep := by
    rw [Disk.node]
    repeat' split
    · nofun
    · nofun
    · exact Node.walk_ne_tooDeep _ _ _
  rw [Disk.text, Disk.bytes]
  cases found : disk.node path with
  | error fault =>
      intro same
      cases same
      exact node found
  | ok reached =>
      cases reached with
      | directory _ => nofun
      | file bytes =>
          dsimp only
          split <;> nofun

namespace Command

/-! ## How the work on a file ends -/

/-- How the work on a file ends: with an outcome, or with the message that tells why there is
none. -/
inductive Ends (disk : Disk) (limit : Nat) (path : Path) : Except String Outcome → Prop where
  | unreadable {fault : DiskFault} (fails : disk.text path = .error (.disk fault))
      (named : fault ≠ .nulInName) :
      Ends disk limit path (.error ("Cannot read " ++ path.toString ++ ": " ++ fault.systemText ++
        ": " ++ Text.quoted path.toString))
  | unparsed {text : String} {diagnostic : Diagnostic Fault} (found : disk.text path = .ok text)
      (fails : readPuzzle path text = .error (.fault diagnostic)) :
      Ends disk limit path (.error ("Parse error: " ++ diagnostic.render))
  | unbuilt {text : String} {puzzle : Puzzle} {notices : List Notice}
      {diagnostic : Diagnostic ModelFault} (found : disk.text path = .ok text)
      (parsed : readPuzzle path text = .ok (puzzle, notices))
      (fails : Model.build puzzle = .error diagnostic) :
      Ends disk limit path (.error ("Error: " ++ diagnostic.render))
  | unsearched {text : String} {puzzle : Puzzle} {notices : List Notice} {model : Model}
      {diagnostic : Diagnostic ModelFault} (found : disk.text path = .ok text)
      (parsed : readPuzzle path text = .ok (puzzle, notices))
      (built : Model.build puzzle = .ok model)
      (fails : model.solve (some limit) = .error (.fault diagnostic)) :
      Ends disk limit path (.error ("Error: " ++ diagnostic.render))
  | searched {text : String} {puzzle : Puzzle} {notices : List Notice} {model : Model}
      {outcome : Outcome} (found : disk.text path = .ok text)
      (parsed : readPuzzle path text = .ok (puzzle, notices))
      (built : Model.build puzzle = .ok model)
      (ended : model.solve (some limit) = .ok outcome) :
      Ends disk limit path (.ok outcome)

abbrev AllEnd (disk : Disk) (limit : Nat) : List String → List Outcome → Prop :=
  List.Forall₂ fun name outcome => Ends disk limit (Path.ofString name) (.ok outcome)

section Files

variable {disk other : Disk} {limit : Nat} {path : Path} {ending : Except String Outcome}

theorem loadPuzzle_of_text {text : String} (found : disk.text path = .ok text) :
    loadPuzzle disk path = (readPuzzle path text).mapError .reading := by
  rw [loadPuzzle, found]

theorem Ends.solveFile (ends : Ends disk limit path ending) :
    (solveFile disk limit path).2 = ending.mapError .told := by
  cases ends with
  | @unreadable fault fails named =>
      rw [Command.solveFile, loadModel, loadPuzzle, fails]
      cases fault with
      | nulInName => exact absurd rfl named
      | tooDeep => exact absurd fails (disk.text_ne_tooDeep path)
      | _ => rfl
  | unparsed found fails =>
      rw [Command.solveFile, loadModel, loadPuzzle_of_text found, fails]
      rfl
  | unbuilt found parsed fails =>
      rw [Command.solveFile, loadModel, loadPuzzle_of_text found, parsed]
      simp only [Except.mapError, fails]
      rfl
  | unsearched found parsed built fails =>
      rw [Command.solveFile, loadModel, loadPuzzle_of_text found, parsed]
      simp only [Except.mapError, built, fails]
      rfl
  | searched found parsed built ended =>
      rw [Command.solveFile, loadModel, loadPuzzle_of_text found, parsed]
      simp only [Except.mapError, built, ended]

theorem ends_of_complaint {complaint : Complaint}
    (told : ∀ message, complaint = .told message → Ends disk limit path (.error message))
    (same : .error complaint = ending.mapError Complaint.told) : Ends disk limit path ending := by
  cases ending with
  | ok outcome => cases same
  | error message => exact told message (Except.error.inj same)

theorem ends_of_readComplaint {fault : TextFault} (fails : disk.text path = .error fault)
    {message : String} (complains : readComplaint path fault = .told message) :
    Ends disk limit path (.error message) := by
  cases fault with
  | undecodable => cases complains
  | disk fault =>
      cases fault with
      | nulInName => cases complains
      | tooDeep => cases complains
      | _ =>
          cases complains
          exact .unreadable fails nofun

theorem ends_of_solve {text : String} {puzzle : Puzzle} {notices : List Notice} {model : Model}
    (found : disk.text path = .ok text) (parsed : readPuzzle path text = .ok (puzzle, notices))
    (built : Model.build puzzle = .ok model)
    (worked : (model.solve (some limit)).mapError searchComplaint = ending.mapError .told) :
    Ends disk limit path ending := by
  cases ended : model.solve (some limit) with
  | error unresolved =>
      rw [ended] at worked
      refine ends_of_complaint (fun message complains => ?_) worked
      cases unresolved <;> cases complains
      exact .unsearched found parsed built ended
  | ok outcome =>
      rw [ended] at worked
      cases ending with
      | error message => cases worked
      | ok same =>
          cases worked
          exact .searched found parsed built ended

theorem Ends.of_solveFile (worked : (Command.solveFile disk limit path).2 =
    ending.mapError .told) : Ends disk limit path ending := by
  rw [Command.solveFile, loadModel] at worked
  cases found : disk.text path with
  | error fault =>
      rw [loadPuzzle, found] at worked
      exact ends_of_complaint (fun message => ends_of_readComplaint found) worked
  | ok text =>
      rw [loadPuzzle_of_text found] at worked
      cases parsed : readPuzzle path text with
      | error failure =>
          rw [parsed] at worked
          refine ends_of_complaint (fun message complains => ?_) worked
          cases failure <;> cases complains
          exact .unparsed found parsed
      | ok read =>
          rw [parsed] at worked
          simp only [Except.mapError] at worked
          cases built : Model.build read.1 with
          | error diagnostic =>
              rw [built] at worked
              refine ends_of_complaint (fun message complains => ?_) worked
              cases complains
              exact .unbuilt found parsed built
          | ok model =>
              simp only [built] at worked
              exact ends_of_solve found parsed built worked

/-- The work on a file ends in one of these ways, unless it breaks down. -/
theorem ends_iff : Ends disk limit path ending ↔
    (solveFile disk limit path).2 = ending.mapError .told :=
  ⟨Ends.solveFile, Ends.of_solveFile⟩

/-- The work on a file depends on its text alone. -/
theorem solveFile_congr (same : other.text path = disk.text path) (limit : Nat) :
    solveFile other limit path = solveFile disk limit path := by
  rw [solveFile, solveFile, loadModel, loadModel, loadPuzzle, loadPuzzle, same]

end Files

/-! ## Work in order -/

section Order

variable {α : Type} {work : Path → Worked α}

theorem inOrder_results {paths : List Path} {results : List α}
    (done : List.Forall₂ (fun path result => (work path).2 = .ok result) paths results) :
    ∃ notices, inOrder work paths = (notices, results, none) := by
  induction done with
  | nil => exact ⟨[], rfl⟩
  | @cons path result paths results first _ ih =>
      obtain ⟨later, rest⟩ := ih
      obtain ⟨notices, worked⟩ : ∃ notices, work path = (notices, .ok result) :=
        ⟨(work path).1, Prod.ext rfl first⟩
      exact ⟨notices ++ later, by rw [inOrder, worked, rest]⟩

/-- The first complaint ends the work.  What stands behind it is not worked on. -/
theorem inOrder_complaint {before : List Path} {results : List α} {path : Path}
    {complaint : Complaint}
    (done : List.Forall₂ (fun path result => (work path).2 = .ok result) before results)
    (fails : (work path).2 = .error complaint) :
    ∃ notices, ∀ again after, (∀ earlier ∈ before ++ [path], again earlier = work earlier) →
      inOrder again (before ++ path :: after) = (notices, results, some complaint) := by
  induction done with
  | nil =>
      refine ⟨(work path).1, fun again after same => ?_⟩
      have worked : again path = ((work path).1, .error complaint) :=
        (same path List.mem_cons_self).trans (Prod.ext rfl fails)
      rw [List.nil_append, inOrder, worked]
  | @cons earlier result before results first _ ih =>
      obtain ⟨notices, rest⟩ := ih
      refine ⟨(work earlier).1 ++ notices, fun again after same => ?_⟩
      obtain ⟨sameFirst, sameOthers⟩ := List.forall_mem_cons.mp same
      have worked : again earlier = ((work earlier).1, .ok result) :=
        sameFirst.trans (Prod.ext rfl first)
      rw [List.cons_append, inOrder, worked, rest again after sameOthers]

end Order

/-! ## What is shown -/

def shownAlone (format : Format) (orders : Report.FieldOrder) (outcome : Outcome) : String :=
  match format with
  | .json => (Structured.list [structured outcome]).write ++ "\n"
  | .text => Text.shown (Report.render orders outcome)

/-- What files with outcomes give together: one list of all outcomes, or the reports of all files
one behind the other, under their names when there is more than one. -/
def shownTogether (format : Format) (orders : Report.FieldOrder) (outcomes : List Outcome) :
    String :=
  match format with
  | .json => (Structured.list (outcomes.map structured)).write ++ "\n"
  | .text => String.join (outcomes.map fun outcome =>
      (if 1 < outcomes.length then Text.shown ("== " ++ outcome.puzzle) ++ "\n" else "") ++
        shownAlone .text orders outcome)

/-- An outcome can be written in a format when the format does not write the size of its search
space, or the size has no more digits than a numeral may have. -/
def Writable (format : Format) (outcome : Outcome) : Prop :=
  writesSpace format outcome = true → Numeral.tooLong outcome.searchSpace = false

instance (format : Format) (outcome : Outcome) : Decidable (Writable format outcome) :=
  inferInstanceAs (Decidable (_ → _))

theorem canShow_iff {format : Format} {outcome : Outcome} :
    canShow format outcome = true ↔ Writable format outcome := by
  rw [canShow, Writable]
  cases writesSpace format outcome <;> simp

theorem titledReport_eq (orders : Report.FieldOrder) (several : Prop) [Decidable several]
    (outcome : Outcome) :
    titledReport orders (decide several) outcome =
      (if several then Text.shown ("== " ++ outcome.puzzle) ++ "\n" else "") ++
        shownAlone .text orders outcome := by
  rw [titledReport, title, shownAlone]
  by_cases many : several
  · rw [if_pos (decide_eq_true many), if_pos many]
  · rw [if_neg (by simpa using many), if_neg many]

theorem showOutcomes_eq (format : Format) (orders : Report.FieldOrder) (outcomes : List Outcome) :
    showOutcomes format orders outcomes = shownTogether format orders outcomes := by
  cases format with
  | json => rfl
  | text =>
      rw [showOutcomes, shownTogether]
      exact congrArg String.join
        (List.map_congr_left fun outcome _ => titledReport_eq orders _ outcome)

theorem shownTogether_singleton (format : Format) (orders : Report.FieldOrder)
    (outcome : Outcome) :
    shownTogether format orders [outcome] = shownAlone format orders outcome := by
  cases format with
  | json => rfl
  | text => simp [shownTogether, String.join]

section Solved

variable {format : Format} {orders : Report.FieldOrder} {outcomes : List Outcome}
  {notices : List Notice}

theorem solvedOutput_ok (writable : ∀ outcome ∈ outcomes, Writable format outcome) :
    solvedOutput format orders outcomes notices =
      .ok ⟨if outcomes.all Outcome.solved then 0 else 2, shownTogether format orders outcomes, "",
        notices⟩ := by
  have none : outcomes.dropWhile (canShow format) = [] :=
    List.dropWhile_eq_nil_iff.mpr fun outcome member => canShow_iff.mpr (writable outcome member)
  rw [solvedOutput, none, showOutcomes_eq]

/-- The first outcome that cannot be written ends the program. -/
theorem solvedOutput_error {before after : List Outcome} {outcome : Outcome}
    (writable : ∀ earlier ∈ before, Writable format earlier)
    (unwritable : ¬ Writable format outcome) :
    solvedOutput format orders (before ++ outcome :: after) notices =
      .error ⟨.numeral, shownBefore format orders
        (decide (1 < (before ++ outcome :: after).length)) before outcome⟩ := by
  have passed : ∀ earlier ∈ before, canShow format earlier = true :=
    fun earlier member => canShow_iff.mpr (writable earlier member)
  have stops : ¬ canShow format outcome = true := fun shows => unwritable (canShow_iff.mp shows)
  rw [solvedOutput, List.dropWhile_append_of_pos passed, List.dropWhile_cons_of_neg stops,
    List.takeWhile_append_of_pos passed, List.takeWhile_cons_of_neg stops, List.append_nil]

theorem exists_first_unwritable (unwritable : ¬ ∀ outcome ∈ outcomes, Writable format outcome) :
    ∃ before outcome after, outcomes = before ++ outcome :: after ∧
      (∀ earlier ∈ before, Writable format earlier) ∧ ¬ Writable format outcome := by
  induction outcomes with
  | nil => exact absurd (List.forall_mem_nil _) unwritable
  | cons first rest ih =>
      by_cases writes : Writable format first
      · obtain ⟨before, outcome, after, rfl, earlier, stops⟩ :=
          ih fun others => unwritable (List.forall_mem_cons.mpr ⟨writes, others⟩)
        exact ⟨first :: before, outcome, after, rfl,
          List.forall_mem_cons.mpr ⟨writes, earlier⟩, stops⟩
      · exact ⟨[], first, rest, rfl, List.forall_mem_nil _, writes⟩

end Solved

/-! ## Whole requests -/

def SolveRequest.naming (request : SolveRequest) (names : List String) : SolveRequest :=
  { request with puzzles := names }

def SolveRequest.bound (request : SolveRequest) (settings : Manifest) : Nat :=
  request.limit.getD settings.limit.toNat

structure AllOrNothing (disk : Disk) (request : SolveRequest) (directory : Path)
    (settings : Manifest) (format : Format) : Prop where
  /-- When all files end somehow, all end in outcomes or there is a first one that does not. -/
  parted : (∀ name ∈ request.puzzles, ∃ ending,
      Ends disk (request.bound settings) (Path.ofString name) ending) →
    (∃ outcomes, AllEnd disk (request.bound settings) request.puzzles outcomes) ∨
    ∃ before outcomes name after message, request.puzzles = before ++ name :: after ∧
      AllEnd disk (request.bound settings) before outcomes ∧
      Ends disk (request.bound settings) (Path.ofString name) (.error message)
  /-- Outcomes are shown together, each as it is shown alone. -/
  results : ∀ outcomes, AllEnd disk (request.bound settings) request.puzzles outcomes →
    (∀ outcome ∈ outcomes, Writable format outcome) →
    (∃ notices, performSolve disk request = .ok ⟨if outcomes.all Outcome.solved then 0 else 2,
      shownTogether format settings.fieldOrder outcomes, "", notices⟩) ∧
    List.Forall₂ (fun name outcome => ∃ notices, performSolve disk (request.naming [name]) =
      .ok ⟨if outcome.solved then 0 else 2, shownAlone format settings.fieldOrder outcome, "",
        notices⟩) request.puzzles outcomes
  /-- The first outcome that cannot be written ends the program.  In a list nothing is shown; as
  texts, the reports before it are, and its title when there is more than one file. -/
  unwritable : ∀ outcomes, AllEnd disk (request.bound settings) request.puzzles outcomes →
    (¬ ∀ outcome ∈ outcomes, Writable format outcome) →
    ∃ before outcome after, outcomes = before ++ outcome :: after ∧
      (∀ earlier ∈ before, Writable format earlier) ∧ ¬ Writable format outcome ∧
      performSolve disk request = .error ⟨.numeral, shownBefore format settings.fieldOrder
        (decide (1 < outcomes.length)) before outcome⟩
  /-- The first file without an outcome decides the output, on any disk that does not differ in
  the manifest and in the files up to this one, and whatever files stand behind it. -/
  failure : ∀ before outcomes name after message, request.puzzles = before ++ name :: after →
    AllEnd disk (request.bound settings) before outcomes →
    Ends disk (request.bound settings) (Path.ofString name) (.error message) →
    ∃ notices, ∀ (other : Disk) (later : List String),
      loadSettings other request.manifest = .ok (.ok (directory, settings)) →
      (∀ earlier ∈ before ++ [name],
        other.text (Path.ofString earlier) = disk.text (Path.ofString earlier)) →
      performSolve other (request.naming (before ++ name :: later)) =
        .ok ⟨1, "", Text.shown message ++ "\n", notices⟩

section Requests

variable {disk : Disk} {request : SolveRequest} {directory : Path} {settings : Manifest}
  {format : Format} {outcomes : List Outcome}

/-- What a request does when its manifest and its format are valid. -/
theorem performSolve_naming {names : List String} (named : names ≠ [])
    (manifest : loadSettings disk request.manifest = .ok (.ok (directory, settings)))
    (valid : chosenFormat request.format settings = .ok format) :
    performSolve disk (request.naming names) =
      match inOrder (solveFile disk (request.bound settings)) (names.map Path.ofString) with
      | (notices, _, some complaint) => complained "" notices complaint
      | (notices, outcomes, none) => solvedOutput format settings.fieldOrder outcomes notices := by
  obtain ⟨first, others, rfl⟩ := List.exists_cons_of_ne_nil named
  rw [performSolve, SolveRequest.naming, manifest]
  simp only [chosenFiles, valid, bind, Except.bind, List.isEmpty_cons, List.map_cons]
  rfl

theorem worked_of_ends {names : List String} {limit : Nat}
    (ends : AllEnd disk limit names outcomes) :
    List.Forall₂ (fun path outcome => (solveFile disk limit path).2 = .ok outcome)
      (names.map Path.ofString) outcomes :=
  List.forall₂_map_left_iff.mpr (ends.imp fun _ _ ending => ending.solveFile)

/-- Files that all end in outcomes give the output for these outcomes. -/
theorem performSolve_results {names : List String} (named : names ≠ [])
    (manifest : loadSettings disk request.manifest = .ok (.ok (directory, settings)))
    (valid : chosenFormat request.format settings = .ok format)
    (ends : AllEnd disk (request.bound settings) names outcomes) :
    ∃ notices, performSolve disk (request.naming names) =
      solvedOutput format settings.fieldOrder outcomes notices := by
  obtain ⟨notices, worked⟩ := inOrder_results (worked_of_ends ends)
  exact ⟨notices, by rw [performSolve_naming named manifest valid, worked]⟩

/-- Each of several files gives its own outcome when it is solved alone. -/
theorem performSolve_alone
    (manifest : loadSettings disk request.manifest = .ok (.ok (directory, settings)))
    (valid : chosenFormat request.format settings = .ok format) {names : List String}
    (ends : AllEnd disk (request.bound settings) names outcomes)
    (writable : ∀ outcome ∈ outcomes, Writable format outcome) :
    List.Forall₂ (fun name outcome => ∃ notices, performSolve disk (request.naming [name]) =
      .ok ⟨if outcome.solved then 0 else 2, shownAlone format settings.fieldOrder outcome, "",
        notices⟩) names outcomes := by
  induction ends with
  | nil => exact .nil
  | @cons name outcome names outcomes first _ ih =>
      obtain ⟨firstWritable, others⟩ := List.forall_mem_cons.mp writable
      refine .cons ?_ (ih others)
      obtain ⟨notices, worked⟩ :=
        performSolve_results (List.cons_ne_nil _ _) manifest valid (.cons first .nil)
      rw [solvedOutput_ok (List.forall_mem_singleton.mpr firstWritable), shownTogether_singleton,
        List.all_cons, List.all_nil, Bool.and_true] at worked
      exact ⟨notices, worked⟩

theorem exists_first_failure {names : List String} {limit : Nat}
    (ends : ∀ name ∈ names, ∃ ending, Ends disk limit (Path.ofString name) ending) :
    (∃ outcomes, AllEnd disk limit names outcomes) ∨
    ∃ before outcomes name after message, names = before ++ name :: after ∧
      AllEnd disk limit before outcomes ∧
      Ends disk limit (Path.ofString name) (.error message) := by
  induction names with
  | nil => exact .inl ⟨[], .nil⟩
  | cons first names ih =>
      obtain ⟨⟨ending, firstEnds⟩, others⟩ := List.forall_mem_cons.mp ends
      cases ending with
      | error message => exact .inr ⟨[], [], first, names, message, rfl, .nil, firstEnds⟩
      | ok outcome =>
          rcases ih others with ⟨outcomes, all⟩ |
            ⟨before, outcomes, name, after, message, rfl, done, fails⟩
          · exact .inl ⟨outcome :: outcomes, .cons firstEnds all⟩
          · exact .inr ⟨first :: before, outcome :: outcomes, name, after, message, rfl,
              .cons firstEnds done, fails⟩

/-- Solving files is all or nothing, and each file ends as it does alone. -/
theorem solve_all_or_nothing (named : request.puzzles ≠ [])
    (manifest : loadSettings disk request.manifest = .ok (.ok (directory, settings)))
    (valid : chosenFormat request.format settings = .ok format) :
    AllOrNothing disk request directory settings format where
  parted := exists_first_failure
  results outcomes ends writable := by
    obtain ⟨notices, worked⟩ := performSolve_results named manifest valid ends
    rw [solvedOutput_ok writable] at worked
    exact ⟨⟨notices, worked⟩, performSolve_alone manifest valid ends writable⟩
  unwritable outcomes ends unwritable := by
    obtain ⟨notices, worked⟩ := performSolve_results named manifest valid ends
    obtain ⟨before, outcome, after, rfl, writable, stops⟩ := exists_first_unwritable unwritable
    exact ⟨before, outcome, after, rfl, writable, stops,
      worked.trans (solvedOutput_error writable stops)⟩
  failure before outcomes name after message _ done fails := by
    obtain ⟨notices, stops⟩ := inOrder_complaint (worked_of_ends done) fails.solveFile
    refine ⟨notices, fun other later sameManifest same => ?_⟩
    have sameWork : ∀ path ∈ before.map Path.ofString ++ [Path.ofString name],
        solveFile other (request.bound settings) path =
          solveFile disk (request.bound settings) path := by
      rw [← List.map_singleton, ← List.map_append]
      exact List.forall_mem_map.mpr fun earlier member =>
        solveFile_congr (same earlier member) _
    rw [performSolve_naming (List.append_ne_nil_of_right_ne_nil _ (List.cons_ne_nil _ _))
      sameManifest valid, List.map_append, List.map_cons, stops _ _ sameWork]
    rfl

end Requests

def quickText : String :=
  "A = \x7bx, y\x7d\nvar X : A\n"

def vainText : String :=
  "A = \x7bx\x7d\nvar X : A\nX[0] != X[0] =>\n    X[0] = X[0]\n"

def brokenText : String :=
  "A = \x7bx\n"

def puzzleDisk : Disk where
  workingDirectory := Path.ofString "/work"
  top := .directory [("work", .directory
    [("quick.grid", .file quickText.toUTF8), ("vain.grid", .file vainText.toUTF8),
     ("broken.grid", .file brokenText.toUTF8)])]

def solveRequest : SolveRequest :=
  ⟨["quick.grid", "vain.grid", "quick.grid"], Manifest.fileName, none, none⟩

def quickOutcome : Outcome :=
  ⟨"quick", .solved, 1, 2, [], [("X", ["x"])]⟩

def vainOutcome : Outcome :=
  ⟨"vain", .noSolution, 1, 1, [], []⟩

def solveReport : String :=
  "== quick\nSUCCESS:\nX[0] = x\n== vain\nNO SOLUTION FOUND.\n== quick\nSUCCESS:\nX[0] = x\n"

def brokenMessage : String :=
  "Parse error: broken.grid:1:7\n   1 | A = \x7bx\n             ^^^\nExpected \x7d, got NEWLINE"

theorem solve_all_or_nothing_puzzleDisk :
    solveRequest.puzzles ≠ [] ∧
      loadSettings puzzleDisk solveRequest.manifest =
        .ok (.ok (Path.ofString "/work", Manifest.default)) ∧
      chosenFormat solveRequest.format Manifest.default = .ok .text ∧
      AllOrNothing puzzleDisk solveRequest (Path.ofString "/work") Manifest.default .text ∧
      (∃ notices, performSolve puzzleDisk solveRequest = .ok ⟨2, solveReport, "", notices⟩) ∧
      ∃ notices, ∀ later, performSolve puzzleDisk
          (solveRequest.naming (["vain.grid"] ++ "broken.grid" :: later)) =
        .ok ⟨1, "", brokenMessage ++ "\n", notices⟩ := by
  have manifest : loadSettings puzzleDisk solveRequest.manifest =
      .ok (.ok (Path.ofString "/work", Manifest.default)) := rfl
  have quick : Ends puzzleDisk 0 (Path.ofString "quick.grid") (.ok quickOutcome) :=
    ends_iff.mpr (by decide +kernel)
  have vain : Ends puzzleDisk 0 (Path.ofString "vain.grid") (.ok vainOutcome) :=
    ends_iff.mpr (by decide +kernel)
  have broken : Ends puzzleDisk 0 (Path.ofString "broken.grid") (.error brokenMessage) :=
    ends_iff.mpr (by decide +kernel)
  refine ⟨List.cons_ne_nil _ _, manifest, rfl, ?_, ?_, ?_⟩
  · exact solve_all_or_nothing (List.cons_ne_nil _ _) manifest rfl
  · have whole := @solve_all_or_nothing _ solveRequest _ _ .text (List.cons_ne_nil _ _) manifest rfl
    obtain ⟨⟨notices, shown⟩, _⟩ := whole.results [quickOutcome, vainOutcome, quickOutcome]
      (.cons quick (.cons vain (.cons quick .nil))) (by decide)
    have report : shownTogether .text Manifest.default.fieldOrder
        [quickOutcome, vainOutcome, quickOutcome] = solveReport := by
      decide +kernel
    rw [report] at shown
    exact ⟨notices, shown⟩
  · have whole := @solve_all_or_nothing _ (solveRequest.naming ["vain.grid", "broken.grid"]) _ _
      .text (List.cons_ne_nil _ _) manifest rfl
    obtain ⟨notices, told⟩ := whole.failure ["vain.grid"] [vainOutcome] "broken.grid" [] _ rfl
      (.cons vain .nil) broken
    have message : Text.shown brokenMessage = brokenMessage := by
      decide +kernel
    rw [message] at told
    exact ⟨notices, fun later => told puzzleDisk later manifest fun _ _ => rfl⟩

end Command

end LogicPuzzle
