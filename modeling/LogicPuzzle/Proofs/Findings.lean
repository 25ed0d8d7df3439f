import LogicPuzzle.Discovery
import LogicPuzzle.Proofs.Walks
import Mathlib.Data.List.Nodup
import Mathlib.Logic.Basic

/-!
# What is found on a disk

A listed path stands for the file that it leads to, or for all below the
directory that it leads to whose name has the ending of puzzles.  So the files
that are found are exactly the puzzles, and a directory is found where its name
has the ending too.  The search fails where a listed path cannot be looked up,
and where one of the directories below it cannot be looked into.
-/

namespace LogicPuzzle

namespace Discovery

/-! ## What lies below a directory -/

variable {path found : Path} {node : Node} {rest : List (String × Node)} {name : String}

/-- A path leads on from another one, into a node, and has the ending of puzzles. -/
def LiesBelow (path : Path) (node : Node) (found : Path) : Prop :=
  ∃ inner target, inner ≠ [] ∧ node.Leads inner target ∧
    found = { path with parts := path.parts ++ inner } ∧ hasEnding (inner.getLastD "") = true

theorem not_liesBelow_file (bytes : ByteArray) : ¬ LiesBelow path (.file bytes) found := by
  rintro ⟨inner, target, nonempty, leads, _⟩
  cases leads
  exact nonempty rfl

theorem not_liesBelow_empty : ¬ LiesBelow path (.directory []) found := by
  rintro ⟨inner, target, nonempty, leads, _⟩
  cases leads with
  | here => exact nonempty rfl
  | inside member => exact List.not_mem_nil member

theorem liesBelow_cons :
    LiesBelow path (.directory ((name, node) :: rest)) found ↔
      (hasEnding name = true ∧ found = { path with parts := path.parts ++ [name] }) ∨
        LiesBelow { path with parts := path.parts ++ [name] } node found ∨
          LiesBelow path (.directory rest) found := by
  constructor
  · rintro ⟨inner, target, nonempty, leads, same, ends⟩
    cases leads with
    | here => exact absurd rfl nonempty
    | @inside _ first next _ inner member leads =>
        rcases List.mem_cons.mp member with atHead | inRest
        · cases atHead
          cases inner with
          | nil => exact .inl ⟨ends, same⟩
          | cons second inner =>
              refine .inr (.inl ⟨second :: inner, target, List.cons_ne_nil _ _, leads, ?_, ends⟩)
              rw [same, List.append_assoc, List.singleton_append]
        · exact .inr (.inr ⟨_, target, List.cons_ne_nil _ _, .inside inRest leads, same, ends⟩)
  · rintro (⟨ends, same⟩ | ⟨inner, target, nonempty, leads, same, ends⟩ |
      ⟨inner, target, nonempty, leads, same, ends⟩)
    · exact ⟨[name], node, List.cons_ne_nil _ _, .inside List.mem_cons_self (.here node), same,
        ends⟩
    · refine ⟨name :: inner, target, List.cons_ne_nil _ _, .inside List.mem_cons_self leads, ?_, ?_⟩
      · rw [same, List.append_assoc, List.singleton_append]
      · obtain ⟨first, others, rfl⟩ := List.exists_cons_of_ne_nil nonempty
        exact ends
    · cases leads with
      | here => exact absurd rfl nonempty
      | inside member leads =>
          exact ⟨_, target, nonempty, .inside (List.mem_cons_of_mem _ member) leads, same, ends⟩

/-! ## Searching below a directory -/

/-- The directories at and below a place can be looked into: the way down to each of them is not
too deep, and its path not too long. -/
def Explorable (levels : Nat) (path : Path) (node : Node) : Prop :=
  ∀ inner entries, node.Leads inner (.directory entries) → inner.length < levels ∧
    ({ path with parts := path.parts ++ inner } : Path).toString.utf8ByteSize < Disk.pathLimit

/-- How a search ends: with all that is wanted, or, where it cannot be made, with a fault that is
not about something missing. -/
inductive Searched (possible : Prop) (wanted : Path → Prop) :
    Except DiskFault (List Path) → Prop where
  | found {paths : List Path} (made : possible) (mem : ∀ path, path ∈ paths ↔ wanted path) :
      Searched possible wanted (.ok paths)
  | refused {fault : DiskFault} (impossible : ¬ possible) (present : fault.isAbsence = false) :
      Searched possible wanted (.error fault)

theorem explorable_file (levels : Nat) (path : Path) (bytes : ByteArray) :
    Explorable levels path (.file bytes) := by
  intro inner entries leads
  cases leads

theorem explorable_directory {levels : Nat} {entries : List (String × Node)} :
    Explorable (levels + 1) path (.directory entries) ↔
      path.toString.utf8ByteSize < Disk.pathLimit ∧ ∀ entry ∈ entries,
        Explorable levels { path with parts := path.parts ++ [entry.1] } entry.2 := by
  constructor
  · intro explorable
    constructor
    · have here := (explorable [] entries (.here _)).2
      rwa [List.append_nil] at here
    · rintro ⟨name, node⟩ member inner inside leads
      obtain ⟨shallow, short⟩ := explorable (name :: inner) inside (.inside member leads)
      rw [List.append_cons] at short
      exact ⟨Nat.lt_of_succ_lt_succ shallow, short⟩
  · rintro ⟨short, deeper⟩ inner inside leads
    cases leads with
    | here =>
        rw [List.append_nil]
        exact ⟨Nat.succ_pos levels, short⟩
    | @inside _ name node _ inner member leads =>
        obtain ⟨shallow, shortInside⟩ := deeper (name, node) member inner inside leads
        rw [List.append_cons]
        exact ⟨Nat.succ_lt_succ shallow, shortInside⟩

section Searched

variable {possible other : Prop} {wanted otherWanted : Path → Prop}
  {first second : Except DiskFault (List Path)}

/-- Two searches one after the other, behind what is found without a search. -/
theorem Searched.append (front : List Path) (searched : Searched possible wanted first)
    (next : Searched other otherWanted second) :
    Searched (possible ∧ other) (fun path => path ∈ front ∨ wanted path ∨ otherWanted path)
      (do return front ++ (← first) ++ (← second)) := by
  cases searched with
  | refused impossible present => exact .refused (fun both => impossible both.1) present
  | found made mem =>
      cases next with
      | refused impossible present => exact .refused (fun both => impossible both.2) present
      | found otherMade otherMem =>
          refine .found ⟨made, otherMade⟩ fun path => ?_
          rw [List.mem_append, List.mem_append, mem, otherMem, or_assoc]

theorem Searched.ok (searched : Searched possible wanted first) (made : possible) :
    ∃ paths, first = .ok paths ∧ ∀ path, path ∈ paths ↔ wanted path := by
  cases searched with
  | found _ mem => exact ⟨_, rfl, mem⟩
  | refused impossible _ => exact absurd made impossible

theorem Searched.error (searched : Searched possible wanted first) (impossible : ¬ possible) :
    ∃ fault, first = .error fault ∧ fault.isAbsence = false := by
  cases searched with
  | found made _ => exact absurd made impossible
  | refused _ present => exact ⟨_, rfl, present⟩

end Searched

mutual

/-- What is found below a node are the paths that lead on into it and have the ending. -/
theorem searched_below (levels : Nat) (path : Path) : (node : Node) →
    Searched (Explorable levels path node) (LiesBelow path node) (below levels path node)
  | .file bytes => by
      rw [below]
      exact .found (explorable_file levels path bytes) fun _ =>
        iff_of_false List.not_mem_nil (not_liesBelow_file bytes)
  | .directory entries => by
      cases levels with
      | zero =>
          rw [below]
          exact .refused (fun explorable => Nat.not_lt_zero _ (explorable [] _ (.here _)).1) rfl
      | succ levels =>
          rw [below, explorable_directory]
          split
          · next long =>
              exact .refused (fun explorable => Nat.not_lt.mpr long explorable.1) rfl
          · next short =>
              rw [and_iff_right (Nat.not_le.mp short)]
              exact searched_belowEntries levels path entries

theorem searched_belowEntries (levels : Nat) (path : Path) : (entries : List (String × Node)) →
    Searched (∀ entry ∈ entries,
        Explorable levels { path with parts := path.parts ++ [entry.1] } entry.2)
      (LiesBelow path (.directory entries)) (belowEntries levels path entries)
  | [] => by
      rw [belowEntries]
      exact .found (List.forall_mem_nil _) fun _ =>
        iff_of_false List.not_mem_nil not_liesBelow_empty
  | (name, node) :: rest => by
      have lies : LiesBelow path (.directory ((name, node) :: rest)) = fun found =>
          found ∈ (if hasEnding name then [{ path with parts := path.parts ++ [name] }] else []) ∨
            LiesBelow { path with parts := path.parts ++ [name] } node found ∨
              LiesBelow path (.directory rest) found := by
        funext found
        rw [liesBelow_cons]
        cases ends : hasEnding name <;> simp
      rw [belowEntries, List.forall_mem_cons, lies]
      exact (searched_below levels _ node).append _ (searched_belowEntries levels path rest)

end

/-! ## Order -/

theorem notAfter_iff {first second : List String} :
    notAfter first second = true ↔ ¬ second < first := by
  induction first generalizing second with
  | nil => simp [notAfter]
  | cons name first ih =>
      cases second with
      | nil => simp [notAfter]
      | cons other second =>
          rw [notAfter, List.cons_lt_cons_iff]
          by_cases same : name = other
          · subst same
            rw [if_pos rfl, ih, or_iff_right (String.lt_irrefl name), and_iff_right rfl]
          · have apart : ¬ (other < name ∨ other = name ∧ second < first) ↔ ¬ other < name := by
              simp [Ne.symm same]
            rw [if_neg same, decide_eq_true_iff, apart]
            exact ⟨Std.not_gt_of_lt, fun notLess => Std.lt_of_le_of_ne notLess same⟩

/-- Erasing repetitions keeps the order of what is left, in which all is different. -/
theorem pairwise_eraseDups {α : Type} [BEq α] [LawfulBEq α] {before : α → α → Prop} :
    (elements : List α) → elements.Pairwise before →
      elements.eraseDups.Pairwise fun element next => before element next ∧ element ≠ next
  | [], _ => .nil
  | first :: rest, inOrder => by
      obtain ⟨ahead, restInOrder⟩ := List.pairwise_cons.mp inOrder
      rw [List.eraseDups_cons, List.pairwise_cons]
      constructor
      · intro next member
        rw [List.mem_eraseDups, List.mem_filter] at member
        exact ⟨ahead next member.1, fun same => by simp [same] at member⟩
      · exact pairwise_eraseDups _ (restInOrder.filter _)
termination_by elements => elements.length
decreasing_by exact Nat.lt_succ_of_le (List.length_filter_le ..)

theorem mem_ordered {paths : List Path} : found ∈ ordered paths ↔ found ∈ paths := by
  rw [ordered, List.mem_eraseDups, (List.mergeSort_perm ..).mem_iff]

/-- Absolute paths are put in strictly ascending order of their components. -/
theorem pairwise_ordered {paths : List Path} (absolute : ∀ path ∈ paths, path.anchor = .root) :
    (ordered paths).Pairwise fun path next => path.parts < next.parts := by
  have weakly : (List.mergeSort paths fun first second =>
      notAfter first.parts second.parts).Pairwise fun path next => ¬ next.parts < path.parts := by
    refine (List.pairwise_mergeSort ?_ ?_ paths).imp notAfter_iff.mp
    · intro first second third less next
      rw [notAfter_iff] at less next ⊢
      exact List.le_trans less next
    · intro first second
      rw [Bool.or_eq_true, notAfter_iff, notAfter_iff]
      exact List.le_total _ _
  refine (pairwise_eraseDups _ weakly).imp_of_mem fun {path next} member nextMember both => ?_
  have anchors : path.anchor = next.anchor :=
    (absolute path (mem_ordered.mp member)).trans (absolute next (mem_ordered.mp nextMember)).symm
  by_contra notLess
  have same : path.parts = next.parts := List.le_antisymm both.1 notLess
  refine both.2 ?_
  cases path
  cases next
  exact Path.mk.injEq .. ▸ ⟨anchors, same⟩

/-! ## Listed paths -/

abbrev place (directory : Path) (path : String) : Path :=
  Path.resolve directory (Path.ofString path)

/-- The system can be asked what is at a listed path and below it: nothing in it ends names, it is
not too long, it does not go on from a directory with a name that is too long, and the directories
that it leads to can be looked into. -/
structure Askable (disk : Disk) (directory : Path) (path : String) : Prop where
  sayable : (Path.ofString path).hasNul = false
  sayable_place : (place directory path).hasNul = false
  short : (place directory path).toString.utf8ByteSize < Disk.pathLimit
  short_names : ∀ before name after entries,
    (place directory path).parts = before ++ name :: after →
    disk.top.Leads before (.directory entries) → name.utf8ByteSize ≤ Node.nameLimit
  explorable : ∀ node, disk.top.Leads (place directory path).parts node →
    Explorable disk.reach.directories (place directory path) node

/-- A listed path that leads to a file stands for it, and one that leads to a directory for all
below it that has the ending of puzzles. -/
def StandsFor (top : Node) (base found : Path) : Prop :=
  ∃ node, top.Leads base.parts node ∧
    ((∃ bytes, node = .file bytes) ∧ found = base ∨ LiesBelow base node found)

def standing (disk : Disk) (directory : Path) (path : String) : Except DiskFault (List Path) := do
  listed disk (← Disk.locate directory (Path.ofString path))

variable {disk : Disk} {directory : Path} {written : String}

theorem standing_of_sayable (sayable : (Path.ofString written).hasNul = false) :
    standing disk directory written = listed disk (place directory written) := by
  rw [standing, Disk.locate, sayable]
  rfl

theorem node_place (sayable : (place directory written).hasNul = false)
    (short : (place directory written).toString.utf8ByteSize < Disk.pathLimit) :
    disk.node (place directory written) =
      disk.top.walk [] (place directory written).parts := by
  rw [Disk.node, sayable, if_neg Bool.false_ne_true, if_neg (Nat.not_le.mpr short)]
  rfl

/-- On a walk that is not stopped, no directory is followed by a name that is too long. -/
theorem short_names_of_walk {top : Node} (proper : top.Proper) {parts : List String}
    (plain : ".." ∉ parts) (walked : top.walk [] parts ≠ .error .nameTooLong) :
    ∀ before name after entries, parts = before ++ name :: after →
      top.Leads before (.directory entries) → name.utf8ByteSize ≤ Node.nameLimit := by
  rintro before name after entries rfl leads
  by_contra long
  exact walked (leads.walk_tooLong proper plain (Nat.not_le.mp long) [])

/-- What is listed stands for the file that it leads to, or for what is found below it. -/
theorem searched_listed (proper : disk.top.Proper) {target : Node}
    (found : disk.node (place directory written) = .ok target)
    (leads : disk.top.Leads (place directory written).parts target) :
    Searched (Explorable disk.reach.directories (place directory written) target)
      (StandsFor disk.top (place directory written)) (listed disk (place directory written)) := by
  have stands (found : Path) : StandsFor disk.top (place directory written) found ↔
      (∃ bytes, target = .file bytes) ∧ found = place directory written ∨
        LiesBelow (place directory written) target found :=
    ⟨fun ⟨_, other, stands⟩ => leads.unique other proper ▸ stands,
      fun stands => ⟨_, leads, stands⟩⟩
  rw [listed, found]
  cases target with
  | file bytes =>
      refine .found (explorable_file _ _ bytes) fun found => ?_
      rw [stands, List.mem_singleton, or_iff_left (not_liesBelow_file bytes),
        and_iff_right ⟨bytes, rfl⟩]
  | directory entries =>
      have lies : StandsFor disk.top (place directory written) =
          LiesBelow (place directory written) (.directory entries) := by
        funext found
        rw [stands, or_iff_right]
        rintro ⟨⟨bytes, impossible⟩, _⟩
        cases impossible
      rw [lies]
      exact searched_below _ _ (.directory entries)

/-- What leads nowhere stands for nothing. -/
theorem searched_nowhere (askable : Askable disk directory written) {fault : DiskFault}
    (fails : disk.node (place directory written) = .error fault)
    (absence : fault.isAbsence = true)
    (nowhere : ∀ node, ¬ disk.top.Leads (place directory written).parts node) :
    Searched (Askable disk directory written) (StandsFor disk.top (place directory written))
      (listed disk (place directory written)) := by
  have nothing : listed disk (place directory written) = .ok [] := by
    rw [listed, fails]
    exact if_pos absence
  rw [nothing]
  exact .found askable fun _ =>
    iff_of_false List.not_mem_nil fun ⟨node, leads, _⟩ => nowhere node leads

theorem searched_refused (refused : ¬ Askable disk directory written) {fault : DiskFault}
    (fails : disk.node (place directory written) = .error fault)
    (present : fault.isAbsence = false) :
    Searched (Askable disk directory written) (StandsFor disk.top (place directory written))
      (listed disk (place directory written)) := by
  have complaint : listed disk (place directory written) = .error fault := by
    rw [listed, fails]
    exact if_neg (present ▸ Bool.false_ne_true)
  rw [complaint]
  exact .refused refused present

/-- The system says what a listed path stands for, or complains where it cannot be asked. -/
theorem searched_standing (proper : disk.top.Proper) (directory : Path) (written : String) :
    Searched (Askable disk directory written) (StandsFor disk.top (place directory written))
      (standing disk directory written) := by
  by_cases sayable : (Path.ofString written).hasNul = false
  case neg =>
    rw [standing, Disk.locate, if_pos (Bool.not_eq_false _ ▸ sayable)]
    exact .refused (fun askable => sayable askable.sayable) rfl
  rw [standing_of_sayable sayable]
  by_cases sayablePlace : (place directory written).hasNul = false
  case neg =>
    exact searched_refused (fun askable => sayablePlace askable.sayable_place)
      (if_pos (Bool.not_eq_false _ ▸ sayablePlace)) rfl
  by_cases short : (place directory written).toString.utf8ByteSize < Disk.pathLimit
  case neg =>
    have tooLong : disk.node (place directory written) = .error .nameTooLong := by
      rw [Disk.node, sayablePlace, if_neg Bool.false_ne_true, if_pos (Nat.not_lt.mp short)]
    exact searched_refused (fun askable => short askable.short) tooLong rfl
  have plain : ".." ∉ (place directory written).parts := Path.dots_not_mem_collapse _
  have node : disk.node (place directory written) = _ := node_place sayablePlace short
  rcases Node.walk_cases disk.top plain [] with ⟨target, ends, leads⟩ |
    ⟨fault, ends, absence⟩ | ⟨ends, before, name, after, entries, same, leads, long⟩
  · have shortNames := short_names_of_walk proper plain (by rw [ends]; nofun)
    have askable : Askable disk directory written ↔
        Explorable disk.reach.directories (place directory written) target :=
      ⟨fun askable => askable.explorable target leads, fun explorable =>
        ⟨sayable, sayablePlace, short, shortNames, fun _ other =>
          leads.unique other proper ▸ explorable⟩⟩
    rw [askable]
    exact searched_listed proper (node.trans ends) leads
  · have nowhere (other : Node) : ¬ disk.top.Leads (place directory written).parts other := by
      intro leads
      rw [leads.walk proper plain []] at ends
      cases ends
    have shortNames := short_names_of_walk proper plain (by
      rw [ends]
      rintro ⟨⟩
      cases absence)
    exact searched_nowhere ⟨sayable, sayablePlace, short, shortNames, fun other leads =>
      absurd leads (nowhere other)⟩ (node.trans ends) absence nowhere
  · refine searched_refused (fun askable => ?_) (node.trans ends) rfl
    exact Nat.not_le.mpr long (askable.short_names _ _ _ _ same leads)

/-! ## The whole list -/

theorem find_eq (disk : Disk) (directory : Path) (paths : List String) :
    find disk directory paths =
      ((paths.mapM (standing disk directory)).map List.flatten).map ordered := by
  rw [find]
  change (paths.mapM (standing disk directory)) >>= _ = _
  cases paths.mapM (standing disk directory) <;> rfl

variable {paths : List String}

/-- The search for all listed paths fails when one of them cannot be asked about. -/
theorem searched_paths (proper : disk.top.Proper) (directory : Path) (paths : List String) :
    Searched (∀ path ∈ paths, Askable disk directory path)
      (fun found => ∃ path ∈ paths, StandsFor disk.top (place directory path) found)
      ((paths.mapM (standing disk directory)).map List.flatten) := by
  induction paths with
  | nil => exact .found (List.forall_mem_nil _) fun found => by simp
  | cons path paths ih =>
      have both := (searched_standing proper directory path).append [] ih
      have inOrder : ((path :: paths).mapM (standing disk directory)).map List.flatten =
          do return [] ++ (← standing disk directory path) ++
            (← (paths.mapM (standing disk directory)).map List.flatten) := by
        rw [List.mapM_cons]
        cases standing disk directory path with
        | error fault => rfl
        | ok first => cases paths.mapM (standing disk directory) <;> rfl
      rw [inOrder, List.forall_mem_cons]
      simpa only [List.exists_mem_cons_iff, List.not_mem_nil, false_or] using both

/-- A listed path that leads nowhere can be left out. -/
theorem find_of_nowhere (proper : disk.top.Proper) {path : String}
    (askable : Askable disk directory path)
    (nowhere : ∀ node, ¬ disk.top.Leads (place directory path).parts node)
    (before after : List String) :
    find disk directory (before ++ path :: after) = find disk directory (before ++ after) := by
  have nothing : standing disk directory path = .ok [] := by
    obtain ⟨found, done, stands⟩ := (searched_standing proper directory path).ok askable
    refine done.trans (congrArg _ (List.eq_nil_iff_forall_not_mem.mpr fun path member => ?_))
    obtain ⟨node, leads, _⟩ := (stands path).mp member
    exact nowhere node leads
  rw [find_eq, find_eq, List.mapM_append, List.mapM_append, List.mapM_cons, nothing]
  cases before.mapM (standing disk directory) with
  | error fault => rfl
  | ok earlier =>
      cases after.mapM (standing disk directory) with
      | error fault => rfl
      | ok later =>
          change Except.ok (ordered (earlier ++ [] :: later).flatten) =
            .ok (ordered (earlier ++ later).flatten)
          simp only [List.flatten_append, List.flatten_cons, List.nil_append]

def Listed (directory : Path) (paths : List String) (found : Path) : Prop :=
  ∃ path ∈ paths, found = place directory path

/-- A path lies at some depth below a listed one and has the ending of puzzles. -/
def Covered (directory : Path) (paths : List String) (found : Path) : Prop :=
  ∃ path ∈ paths, ∃ inner, inner ≠ [] ∧ found = ⟨.root, (place directory path).parts ++ inner⟩ ∧
    hasEnding found.name = true

/-- What listed paths stand for are files that are listed, and all below them that has the
ending of puzzles. -/
theorem standsFor_iff {top : Node} :
    (∃ path ∈ paths, StandsFor top (place directory path) found) ↔
      found.anchor = .root ∧ ∃ node, top.Leads found.parts node ∧
        ((∃ bytes, node = .file bytes) ∧ Listed directory paths found ∨
          Covered directory paths found) := by
  have nameOf {base inner : List String} (nonempty : inner ≠ []) :
      Path.name ⟨.root, base ++ inner⟩ = inner.getLastD "" := by
    rw [Path.name, List.getLastD_eq_getLast?, List.getLastD_eq_getLast?,
      List.getLast?_append_of_ne_nil _ nonempty]
  constructor
  · rintro ⟨path, member, node, leads, ⟨isFile, rfl⟩ | ⟨inner, target, nonempty, goesOn, rfl, ends⟩⟩
    · exact ⟨rfl, node, leads, .inl ⟨isFile, path, member, rfl⟩⟩
    · exact ⟨rfl, target, leads.append goesOn,
        .inr ⟨path, member, inner, nonempty, rfl, nameOf nonempty ▸ ends⟩⟩
  · rintro ⟨_, node, leads, ⟨isFile, path, member, rfl⟩ |
      ⟨path, member, inner, nonempty, rfl, ends⟩⟩
    · exact ⟨path, member, node, leads, .inl ⟨isFile, rfl⟩⟩
    · obtain ⟨middle, first, goesOn⟩ := Node.Leads.split leads
      exact ⟨path, member, middle, first,
        .inr ⟨inner, node, nonempty, goesOn, rfl, nameOf nonempty ▸ ends⟩⟩

/-- What is found is in ascending order, each path once, and there.  The files among it are
those that are listed and those with the ending of puzzles below listed directories.  The
directories among it are those with the ending below listed directories: it is free of
directories just when there are none of these. -/
structure Finds (top : Node) (directory : Path) (paths : List String) (found : List Path) :
    Prop where
  ascending : found.Pairwise fun path next => path.parts < next.parts
  there : ∀ path ∈ found, path.anchor = .root ∧ ∃ node, top.Leads path.parts node
  files : ∀ parts bytes, top.Leads parts (.file bytes) →
    (⟨.root, parts⟩ ∈ found ↔
      Listed directory paths ⟨.root, parts⟩ ∨ Covered directory paths ⟨.root, parts⟩)
  directories : ∀ parts entries, top.Leads parts (.directory entries) →
    (⟨.root, parts⟩ ∈ found ↔ Covered directory paths ⟨.root, parts⟩)
  only_files : (∀ path ∈ found, ∃ bytes, top.Leads path.parts (.file bytes)) ↔
    ∀ parts entries, top.Leads parts (.directory entries) →
      ¬ Covered directory paths ⟨.root, parts⟩

theorem finds_of_stands {top : Node} (proper : top.Proper) {files : List Path}
    (stands : ∀ found, found ∈ files ↔
      ∃ path ∈ paths, StandsFor top (place directory path) found) :
    Finds top directory paths (ordered files) := by
  have there (path : Path) (member : path ∈ ordered files) :
      path.anchor = .root ∧ ∃ node, top.Leads path.parts node ∧
        ((∃ bytes, node = .file bytes) ∧ Listed directory paths path ∨
          Covered directory paths path) :=
    standsFor_iff.mp ((stands path).mp (mem_ordered.mp member))
  have mem {parts : List String} {node : Node} (leads : top.Leads parts node) :
      ⟨.root, parts⟩ ∈ ordered files ↔
        (∃ bytes, node = .file bytes) ∧ Listed directory paths ⟨.root, parts⟩ ∨
          Covered directory paths ⟨.root, parts⟩ := by
    rw [mem_ordered, stands, standsFor_iff, and_iff_right rfl]
    exact ⟨fun ⟨_, other, which⟩ => leads.unique other proper ▸ which,
      fun which => ⟨node, leads, which⟩⟩
  have directories (parts : List String) (entries : List (String × Node))
      (leads : top.Leads parts (.directory entries)) :
      ⟨.root, parts⟩ ∈ ordered files ↔ Covered directory paths ⟨.root, parts⟩ := by
    rw [mem leads, or_iff_right]
    rintro ⟨⟨bytes, impossible⟩, _⟩
    cases impossible
  constructor
  case ascending =>
    exact pairwise_ordered fun path member => (there path (mem_ordered.mpr member)).1
  case there =>
    intro path member
    obtain ⟨anchored, node, leads, _⟩ := there path member
    exact ⟨anchored, node, leads⟩
  case files =>
    intro parts bytes leads
    rw [mem leads, and_iff_right ⟨bytes, rfl⟩]
  case directories => exact directories
  case only_files =>
    constructor
    · intro onlyFiles parts entries leads covered
      obtain ⟨bytes, other⟩ := onlyFiles _ ((directories parts entries leads).mpr covered)
      cases leads.unique other proper
    · intro uncovered path member
      obtain ⟨anchor, parts⟩ := path
      obtain ⟨rfl, node, leads, _⟩ := there _ member
      cases node with
      | file bytes => exact ⟨bytes, leads⟩
      | directory entries =>
          exact absurd ((directories parts entries leads).mp member) (uncovered parts entries leads)

/-- Finding puzzles gives an answer when the system can be asked about all that is listed, and
otherwise a complaint that is not about something missing.  Listed paths that lead nowhere add
nothing, and a listed path leads to what the system would find at it. -/
structure Answers (disk : Disk) (directory : Path) (paths : List String) : Prop where
  answered : (∀ path ∈ paths, Askable disk directory path) →
    ∃ found, find disk directory paths = .ok found ∧ Finds disk.top directory paths found
  refused : (∃ path ∈ paths, ¬ Askable disk directory path) →
    ∃ fault, find disk directory paths = .error fault ∧ fault.isAbsence = false
  nowhere : ∀ before path after, paths = before ++ path :: after → Askable disk directory path →
    (∀ node, ¬ disk.top.Leads (place directory path).parts node) →
    find disk directory paths = find disk directory (before ++ after)
  followed : ∀ path ∈ paths, ∀ node,
    disk.top.walk [] (directory.join (Path.ofString path)).parts = .ok node →
    disk.top.Leads (place directory path).parts node

/-- What is found for listed paths is known on every disk. -/
theorem find_answers (disk : Disk) (proper : disk.top.Proper) (directory : Path)
    (paths : List String) : Answers disk directory paths := by
  constructor
  case answered =>
    intro askable
    obtain ⟨files, done, stands⟩ := (searched_paths proper directory paths).ok askable
    exact ⟨ordered files, by rw [find_eq, done]; rfl, finds_of_stands proper stands⟩
  case refused =>
    rintro ⟨path, member, refused⟩
    obtain ⟨fault, fails, present⟩ := (searched_paths proper directory paths).error
      fun askable => refused (askable path member)
    exact ⟨fault, by rw [find_eq, fails]; rfl, present⟩
  case nowhere =>
    rintro before path after rfl askable nowhere
    exact find_of_nowhere proper askable nowhere before after
  case followed => exact fun path _ node found => Node.leads_of_walk found

/-- A box with the name of a puzzle stands on the shelf, and a puzzle lies in it. -/
def shelfDisk : Disk where
  workingDirectory := ⟨.root, []⟩
  top := .directory
    [("puzzles", .directory [("box.grid", .directory [("a.grid", .file ByteArray.empty)])])]

theorem proper_shelfDisk : shelfDisk.top.Proper := by
  have box {name : String} {node : Node} (short : name.utf8ByteSize ≤ Node.nameLimit)
      (proper : node.Proper) : Node.Proper (.directory [(name, node)]) :=
    .directory (List.nodup_singleton name) (by simpa using short) (by simpa using proper)
  exact box (by decide) (box (by decide) (box (by decide) (.file _)))

/-- The box is found beside the puzzle. -/
theorem find_answers_shelfDisk :
    shelfDisk.top.Proper ∧ ∃ found, find shelfDisk ⟨.root, []⟩ ["puzzles"] = .ok found ∧
      ⟨.root, ["puzzles", "box.grid"]⟩ ∈ found ∧
      ⟨.root, ["puzzles", "box.grid", "a.grid"]⟩ ∈ found := by
  have base : place ⟨.root, []⟩ "puzzles" = ⟨.root, ["puzzles"]⟩ := by decide
  have intoShelf : shelfDisk.top.Leads ["puzzles"] (.directory _) :=
    .inside List.mem_cons_self (.here _)
  have askable : Askable shelfDisk ⟨.root, []⟩ "puzzles" := by
    refine ⟨by decide, by decide, by decide, fun before name after entries same _ => ?_,
      fun node leads => ?_⟩
    · have member : name ∈ ["puzzles"] := by
        rw [← show _ = ["puzzles"] from congrArg Path.parts base, same]
        exact List.mem_append_right before List.mem_cons_self
      rw [List.mem_singleton.mp member]
      decide
    · rw [base] at leads ⊢
      rw [leads.unique intoShelf proper_shelfDisk]
      refine explorable_directory.mpr ⟨by decide, List.forall_mem_singleton.mpr ?_⟩
      refine explorable_directory.mpr ⟨by decide, List.forall_mem_singleton.mpr ?_⟩
      exact explorable_file _ _ _
  have covered {inner : List String} (nonempty : inner ≠ [])
      (ends : hasEnding (Path.name ⟨.root, "puzzles" :: inner⟩) = true) :
      Covered ⟨.root, []⟩ ["puzzles"] ⟨.root, "puzzles" :: inner⟩ :=
    ⟨"puzzles", List.mem_cons_self, inner, nonempty, by rw [base]; rfl, ends⟩
  obtain ⟨found, done, finds⟩ :=
    (find_answers shelfDisk proper_shelfDisk ⟨.root, []⟩ ["puzzles"]).answered
      fun path member => List.mem_singleton.mp member ▸ askable
  have intoBox : shelfDisk.top.Leads ["puzzles", "box.grid"] (.directory _) :=
    .inside List.mem_cons_self (.inside List.mem_cons_self (.here _))
  have intoPuzzle := intoBox.append (.inside List.mem_cons_self (.here _))
  exact ⟨proper_shelfDisk, found, done,
    (finds.directories _ _ intoBox).mpr (covered (List.cons_ne_nil _ _) (by decide)),
    (finds.files _ _ intoPuzzle).mpr (.inr (covered (List.cons_ne_nil _ _) (by decide)))⟩

end Discovery

end LogicPuzzle
