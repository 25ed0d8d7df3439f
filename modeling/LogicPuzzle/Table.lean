/-!
# Tables

A table gives values to names.  It keeps its names in the order in which they
were first put in; putting a value under a name that is there replaces the value
and leaves the order alone.
-/

namespace LogicPuzzle

/-- Values under names, in order of first insertion. -/
abbrev Table (β : Type) := List (String × β)

namespace Table

variable {β : Type}

def put (name : String) (value : β) : Table β → Table β
  | [] => [(name, value)]
  | (other, old) :: rest =>
      if other = name then (name, value) :: rest else (other, old) :: put name value rest

def find? (name : String) : Table β → Option β
  | [] => none
  | (other, value) :: rest => if other = name then some value else find? name rest

def names (table : Table β) : List String :=
  table.map (·.1)

/-- The table that putting in named values one after the other gives. -/
def ofList (entries : List (String × β)) : Table β :=
  entries.foldl (fun table entry => table.put entry.1 entry.2) []

theorem find?_put (name : String) (value : β) (table : Table β) (key : String) :
    find? key (put name value table) = if name = key then some value else find? key table := by
  induction table with
  | nil => rfl
  | cons entry rest ih =>
      obtain ⟨other, old⟩ := entry
      by_cases first : other = name
      · subst first
        by_cases same : other = key <;> simp [put, find?, same]
      · by_cases same : other = key
        · subst same
          simp [put, find?, first, Ne.symm first]
        · simp [put, find?, first, same, ih]

theorem names_put (name : String) (value : β) (table : Table β) :
    names (put name value table) =
      if name ∈ names table then names table else names table ++ [name] := by
  induction table with
  | nil => rfl
  | cons entry rest ih =>
      obtain ⟨other, old⟩ := entry
      by_cases first : other = name
      · simp [put, names, first]
      · have names_rest : names ((other, old) :: rest) = other :: names rest := rfl
        by_cases known : name ∈ names rest
        · simp_all [put, names]
        · simp_all [put, names, Ne.symm first]

theorem nodup_names_put (name : String) (value : β) {table : Table β}
    (distinct : (names table).Nodup) : (names (put name value table)).Nodup := by
  rw [names_put]
  split
  · exact distinct
  · next unknown =>
      rw [List.nodup_append]
      refine ⟨distinct, by simp, ?_⟩
      intro known member other same
      rw [List.mem_singleton.mp same]
      exact fun equal => unknown (equal ▸ member)

theorem mem_of_mem_put {name : String} {value : β} {table : Table β} {entry : String × β}
    (member : entry ∈ put name value table) : entry = (name, value) ∨ entry ∈ table := by
  induction table with
  | nil => exact .inl (List.mem_singleton.mp member)
  | cons first rest ih =>
      rw [put] at member
      split at member
      · exact (List.mem_cons.mp member).imp_right (List.mem_cons_of_mem _)
      · obtain atHead | inRest := List.mem_cons.mp member
        · exact .inr (atHead ▸ List.mem_cons_self)
        · exact (ih inRest).imp_right (List.mem_cons_of_mem _)

theorem mem_of_mem_ofList {entries : List (String × β)} {entry : String × β}
    (member : entry ∈ ofList entries) : entry ∈ entries := by
  have onto (entries : List (String × β)) (table : Table β)
      (found : entry ∈ entries.foldl (fun table entry => table.put entry.1 entry.2) table) :
      entry ∈ entries ∨ entry ∈ table := by
    induction entries generalizing table with
    | nil => exact .inr found
    | cons first rest ih =>
        obtain inRest | inPut := ih _ found
        · exact .inl (List.mem_cons_of_mem _ inRest)
        · exact (mem_of_mem_put inPut).imp_left fun same => List.mem_cons.mpr (.inl same)
  exact (onto entries [] member).resolve_right List.not_mem_nil

/-- A table made from a list has every name once. -/
theorem nodup_names_ofList (entries : List (String × β)) : (names (ofList entries)).Nodup := by
  have onto (table : Table β) (distinct : (names table).Nodup) :
      (names (entries.foldl (fun table entry => table.put entry.1 entry.2) table)).Nodup := by
    induction entries generalizing table with
    | nil => exact distinct
    | cons entry rest ih => exact ih _ (nodup_names_put _ _ distinct)
  exact onto [] List.nodup_nil

/-- A table made from a list has its names in the order in which they first occur. -/
theorem names_ofList (entries : List (String × β)) :
    names (ofList entries) = (entries.map (·.1)).eraseDups := by
  have without (keys known : List String) (key : String) :
      keys.removeAll (known ++ [key]) = (keys.removeAll known).filter fun other => !other == key := by
    simp only [List.removeAll, List.filter_filter, List.elem_eq_contains, List.contains_append]
    congr 1
    funext other
    by_cases same : other = key <;> simp [same]
  have onto (table : Table β) :
      names (entries.foldl (fun table entry => table.put entry.1 entry.2) table) =
        names table ++ ((entries.map (·.1)).removeAll (names table)).eraseDups := by
    induction entries generalizing table with
    | nil => simp [List.removeAll]
    | cons entry rest ih =>
        rw [List.foldl_cons, ih, names_put, List.map_cons, List.cons_removeAll]
        by_cases known : entry.1 ∈ names table
        · simp [known]
        · simp [known, without, List.eraseDups_cons]
  have all : (entries.map (·.1)).removeAll [] = entries.map (·.1) :=
    List.filter_eq_self.mpr fun _ _ => rfl
  exact (onto []).trans (congrArg List.eraseDups all)

theorem mem_names_ofList {name : String} {entries : List (String × β)} :
    name ∈ names (ofList entries) ↔ name ∈ entries.map (·.1) := by
  rw [names_ofList, List.mem_eraseDups]

/-- A table made from a list gives every name the last value put under it. -/
theorem find?_ofList (key : String) (entries : List (String × β)) :
    find? key (ofList entries) =
      (entries.reverse.find? fun entry => entry.1 == key).map (·.2) := by
  have onto (table : Table β) :
      find? key (entries.foldl (fun table entry => table.put entry.1 entry.2) table) =
        ((entries.reverse.find? fun entry => entry.1 == key).map (·.2)).or (find? key table) := by
    induction entries generalizing table with
    | nil => rfl
    | cons entry rest ih =>
        rw [List.foldl_cons, ih, find?_put, List.reverse_cons, List.find?_append]
        cases rest.reverse.find? fun entry => entry.1 == key with
        | some later => rfl
        | none => by_cases same : entry.1 = key <;> simp [same]
  rw [ofList, onto, find?, Option.or_none]

theorem find?_eq_some_of_mem {name : String} {value : β} {table : Table β}
    (distinct : (names table).Nodup) (member : (name, value) ∈ table) : find? name table = some value := by
  induction table with
  | nil => cases member
  | cons entry rest ih =>
      rcases entry with ⟨other, old⟩
      obtain ⟨fresh, restDistinct⟩ := List.nodup_cons.mp distinct
      rcases List.mem_cons.mp member with same | inRest
      · cases same
        exact if_pos rfl
      · have different : other ≠ name := fun same =>
          fresh (List.mem_map.mpr ⟨(name, value), inRest, same.symm⟩)
        rw [find?, if_neg different]
        exact ih restDistinct inRest

theorem mem_of_find? {name : String} {value : β} {table : Table β}
    (found : find? name table = some value) : (name, value) ∈ table := by
  induction table with
  | nil => cases found
  | cons entry rest ih =>
      obtain ⟨other, old⟩ := entry
      rw [find?] at found
      split at found
      · next same =>
          cases found
          exact same ▸ List.mem_cons_self
      · exact List.mem_cons_of_mem _ (ih found)

/-- The value under a name stands at the place of the name. -/
theorem find?_eq_bind_idxOf? (key : String) (table : Table β) :
    find? key table = ((names table).idxOf? key).bind fun place => table[place]?.map (·.2) := by
  induction table with
  | nil => rfl
  | cons entry rest ih =>
      obtain ⟨other, value⟩ := entry
      have names_rest : names ((other, value) :: rest) = other :: names rest := rfl
      rw [names_rest, List.idxOf?_cons]
      by_cases same : other = key
      · simp [find?, same]
      · cases place : (names rest).idxOf? key <;> simp_all [find?]

end Table

end LogicPuzzle
