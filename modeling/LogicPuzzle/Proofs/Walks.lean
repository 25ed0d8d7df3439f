import LogicPuzzle.Disk

/-!
# Walks over disks

Components lead from a node to the nodes below it.  A walk without pairs of dots
finds what its components lead to.  A walk that goes back on pairs of dots finds
what the components lead to that are left without them.
-/

namespace LogicPuzzle

namespace Path

/-- The components that are kept, the last one first, after one more: two dots take one back. -/
def keep (kept : List String) (part : String) : List String :=
  if part = ".." then kept.drop 1 else part :: kept

theorem collapse_eq (parts : List String) : collapse parts = (parts.foldl keep []).reverse :=
  rfl

theorem dots_not_mem_keep {kept : List String} (plain : ".." ∉ kept) (part : String) :
    ".." ∉ keep kept part := by
  rw [keep]
  split
  · exact fun member => plain (List.mem_of_mem_drop member)
  · next notDots => exact fun member => (List.mem_cons.mp member).elim (notDots ∘ Eq.symm) plain

theorem dots_not_mem_foldl_keep {kept : List String} (plain : ".." ∉ kept) (parts : List String) :
    ".." ∉ parts.foldl keep kept := by
  induction parts generalizing kept with
  | nil => exact plain
  | cons part parts ih => exact ih (dots_not_mem_keep plain part)

/-- A path that is collapsed has no pairs of dots. -/
theorem dots_not_mem_collapse (parts : List String) : ".." ∉ collapse parts := by
  rw [collapse_eq, List.mem_reverse]
  exact dots_not_mem_foldl_keep List.not_mem_nil parts

end Path

namespace Node

/-- Components lead from a node to itself, or into its entries and on. -/
inductive Leads : Node → List String → Node → Prop where
  | here (node : Node) : Leads node [] node
  | inside {entries : List (String × Node)} {name : String} {inner target : Node}
      {parts : List String} (member : (name, inner) ∈ entries) (leads : Leads inner parts target) :
      Leads (.directory entries) (name :: parts) target

/-- The names in a directory are different and not too long, and so in the directories inside. -/
inductive Proper : Node → Prop where
  | file (bytes : ByteArray) : Proper (.file bytes)
  | directory {entries : List (String × Node)} (distinct : (Table.names entries).Nodup)
      (short : ∀ entry ∈ entries, entry.1.utf8ByteSize ≤ nameLimit)
      (inside : ∀ entry ∈ entries, Proper entry.2) : Proper (.directory entries)

variable {node target : Node} {parts before after : List String} {entries : List (String × Node)}

theorem Leads.append {middle : Node} (leads : node.Leads before middle)
    (goesOn : middle.Leads after target) : node.Leads (before ++ after) target := by
  induction leads with
  | here => exact goesOn
  | inside member _ ih => exact .inside member (ih goesOn)

theorem Leads.split (leads : node.Leads (before ++ after) target) :
    ∃ middle, node.Leads before middle ∧ middle.Leads after target := by
  induction before generalizing node with
  | nil => exact ⟨node, .here node, leads⟩
  | cons name before ih =>
      cases leads with
      | inside member leads =>
          obtain ⟨middle, first, rest⟩ := ih leads
          exact ⟨middle, .inside member first, rest⟩

/-- Components lead to one node. -/
theorem Leads.unique {other : Node} (leads : node.Leads parts target)
    (otherLeads : node.Leads parts other) (proper : node.Proper) : target = other := by
  induction leads with
  | here =>
      cases otherLeads
      rfl
  | inside member _ ih =>
      cases otherLeads with
      | inside otherMember rest =>
          cases proper with
          | directory distinct _ inside =>
              have same := Table.find?_eq_some_of_mem distinct otherMember
              rw [Table.find?_eq_some_of_mem distinct member] at same
              cases same
              exact ih rest (inside _ member)

/-! ## Walks -/

theorem walk_name {name : String} (notDots : name ≠ "..") (behind : List Node) :
    walk behind (.directory entries) (name :: parts) =
      if nameLimit < name.utf8ByteSize then .error .nameTooLong
      else match Table.find? name entries with
        | none => .error .missing
        | some inner => walk (.directory entries :: behind) inner parts := by
  rw [walk.eq_def]
  exact if_neg notDots

/-- Pairs of dots lead back, and from the top to the top. -/
theorem walk_dots (behind : List Node) :
    walk behind (.directory entries) (".." :: parts) =
      match behind with
      | [] => walk [] (.directory entries) parts
      | outer :: others => walk others outer parts := by
  rw [walk.eq_def]
  exact if_pos rfl

/-- A walk without pairs of dots follows the components that lead on. -/
theorem Leads.walk_append (leads : node.Leads before target) (proper : node.Proper)
    (plain : ".." ∉ before) (behind : List Node) (after : List String) :
    ∃ passed, walk behind node (before ++ after) = walk passed target after := by
  induction leads generalizing behind with
  | here => exact ⟨behind, rfl⟩
  | @inside entries name inner target parts member _ ih =>
      obtain ⟨notDots, plain⟩ := not_or.mp (mt List.mem_cons.mpr plain)
      cases proper with
      | directory distinct short inside =>
          obtain ⟨passed, goesOn⟩ := ih (inside _ member) plain (.directory entries :: behind)
          refine ⟨passed, ?_⟩
          have within : ¬ nameLimit < name.utf8ByteSize := Nat.not_lt.mpr (short _ member)
          rw [List.cons_append, walk_name (Ne.symm notDots), if_neg within,
            Table.find?_eq_some_of_mem distinct member]
          exact goesOn

/-- A walk stops where a directory is followed by a name that is too long. -/
theorem Leads.walk_tooLong {name : String} (leads : node.Leads before (.directory entries))
    (proper : node.Proper) (plain : ".." ∉ before ++ name :: after)
    (long : nameLimit < name.utf8ByteSize) (behind : List Node) :
    walk behind node (before ++ name :: after) = .error .nameTooLong := by
  obtain ⟨plainBefore, plainAfter⟩ := not_or.mp (mt List.mem_append.mpr plain)
  have notDots : name ≠ ".." := fun dots => plainAfter (dots ▸ List.mem_cons_self)
  obtain ⟨passed, goesOn⟩ := leads.walk_append proper plainBefore behind (name :: after)
  rw [goesOn, walk_name notDots, if_pos long]

theorem Leads.walk (leads : node.Leads parts target) (proper : node.Proper)
    (plain : ".." ∉ parts) (behind : List Node) : walk behind node parts = .ok target := by
  obtain ⟨passed, goesOn⟩ := leads.walk_append proper plain behind []
  rw [List.append_nil] at goesOn
  rw [goesOn, Node.walk]

/-- A walk without pairs of dots ends at what the components lead to, or where nothing is, or
in front of a name that is too long. -/
theorem walk_cases (node : Node) (plain : ".." ∉ parts) (behind : List Node) :
    (∃ target, walk behind node parts = .ok target ∧ node.Leads parts target) ∨
      (∃ fault, walk behind node parts = .error fault ∧ fault.isAbsence = true) ∨
      (walk behind node parts = .error .nameTooLong ∧ ∃ before name after entries,
        parts = before ++ name :: after ∧ node.Leads before (.directory entries) ∧
          nameLimit < name.utf8ByteSize) := by
  induction parts generalizing node behind with
  | nil => exact .inl ⟨node, by rw [walk], .here node⟩
  | cons name parts ih =>
      obtain ⟨notDots, plain⟩ := not_or.mp (mt List.mem_cons.mpr plain)
      cases node with
      | file bytes => exact .inr (.inl ⟨_, by rw [walk], rfl⟩)
      | directory entries =>
          rw [walk_name (Ne.symm notDots)]
          by_cases long : nameLimit < name.utf8ByteSize
          · rw [if_pos long]
            exact .inr (.inr ⟨rfl, [], name, parts, entries, rfl, .here _, long⟩)
          · rw [if_neg long]
            cases found : Table.find? name entries with
            | none => exact .inr (.inl ⟨_, rfl, rfl⟩)
            | some inner =>
                have member := Table.mem_of_find? found
                rcases ih inner plain (.directory entries :: behind) with
                  ⟨target, ends, leads⟩ | absent |
                    ⟨ends, before, late, after, last, same, leads, long⟩
                · exact .inl ⟨target, ends, .inside member leads⟩
                · exact .inr (.inl absent)
                · exact .inr (.inr ⟨ends, name :: before, late, after, last, by rw [same]; rfl,
                    .inside member leads, long⟩)

/-! ## Paths with pairs of dots -/

/-- The components that a walk has gone into, the last one first, the nodes that it has passed,
and the node that it stands at. -/
inductive Trail (top : Node) : List String → List Node → Node → Prop where
  | top : Trail top [] [] top
  | inside {kept : List String} {behind : List Node} {entries : List (String × Node)}
      {name : String} {inner : Node} (trail : Trail top kept behind (.directory entries))
      (member : (name, inner) ∈ entries) :
      Trail top (name :: kept) (.directory entries :: behind) inner

variable {top : Node} {kept : List String} {behind : List Node}

theorem Trail.leads (trail : Trail top kept behind node) : top.Leads kept.reverse node := by
  induction trail with
  | top => exact .here top
  | inside _ member ih =>
      rw [List.reverse_cons]
      exact ih.append (.inside member (.here _))

/-- What a walk comes to is what the components lead to of which no pair of dots takes back. -/
theorem Trail.leads_of_walk (trail : Trail top kept behind node)
    (found : walk behind node parts = .ok target) :
    top.Leads (parts.foldl Path.keep kept).reverse target := by
  induction parts generalizing kept behind node with
  | nil =>
      rw [walk] at found
      cases found
      exact trail.leads
  | cons name parts ih =>
      rw [List.foldl_cons]
      cases node with
      | file bytes =>
          rw [walk] at found
          cases found
      | directory entries =>
          -- Two dots take the walk back along its trail, as they take a component back.
          by_cases dots : name = ".."
          · subst dots
            rw [walk_dots] at found
            rw [Path.keep, if_pos rfl]
            cases trail with
            | top => exact ih .top found
            | inside trail member => exact ih trail found
          · rw [walk_name dots] at found
            rw [Path.keep, if_neg dots]
            split at found
            · cases found
            · cases inner : Table.find? name entries with
              | none =>
                  rw [inner] at found
                  cases found
              | some next =>
                  rw [inner] at found
                  exact ih (.inside trail (Table.mem_of_find? inner)) found

/-- Where the system finds something at a path, the path without pairs of dots leads to it. -/
theorem leads_of_walk (found : walk [] top parts = .ok target) :
    top.Leads (Path.collapse parts) target :=
  Trail.leads_of_walk .top found

end Node

end LogicPuzzle
