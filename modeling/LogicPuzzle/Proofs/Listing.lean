import LogicPuzzle.Proofs.Lexemes
import LogicPuzzle.Report
import Mathlib.Data.List.Nodup

/-!
# Listings of solutions

The report of a solution lists the elements of the arrays one after the other,
sorted by the names of the arrays and then by index, each with all its labels.
Names that are words hold none of the marks that stand between them, so the
lines can be told apart, the empty lines show where elements end, and the text
says everything about the solution but the order of the arrays.
-/

namespace LogicPuzzle

/-- The first place of a mark splits a list in one way only. -/
theorem append_cons_inj_of_fresh {α : Type} {first second rest other : List α} {mark : α}
    (fresh : mark ∉ first) (otherFresh : mark ∉ second)
    (same : first ++ mark :: rest = second ++ mark :: other) : first = second ∧ rest = other := by
  induction first generalizing second with
  | nil =>
      cases second with
      | nil => exact ⟨rfl, (List.cons.inj same).2⟩
      | cons head tail => exact absurd (List.mem_cons.mpr (.inl (List.cons.inj same).1)) otherFresh
  | cons head tail ih =>
      obtain ⟨different, tailFresh⟩ := not_or.mp (mt List.mem_cons.mpr fresh)
      cases second with
      | nil => exact absurd (List.cons.inj same).1.symm different
      | cons otherHead otherTail =>
          obtain ⟨_, otherTailFresh⟩ := not_or.mp (mt List.mem_cons.mpr otherFresh)
          obtain ⟨heads, tails⟩ := List.cons.inj same
          obtain ⟨rfl, rests⟩ := ih tailFresh otherTailFresh tails
          exact ⟨by rw [heads], rests⟩

/-- The characters of a name are parts of words. -/
theorem isWordPart_of_isName {name : String} (named : isName name = true) :
    ∀ c ∈ name.toList, Text.isWordPart c = true := by
  obtain ⟨first, others, same, start, parts, _⟩ := isName_cons named
  rw [same]
  exact List.forall_mem_cons.mpr ⟨Text.isWordPart_of_isWordStart start, parts⟩

theorem not_mem_of_isName {name : String} {c : Char} (named : isName name = true)
    (mark : Text.isWordPart c = false) : c ∉ name.toList := by
  intro member
  rw [isWordPart_of_isName named c member] at mark
  cases mark

/-- A solution over different names that are words, without empty arrays or elements. -/
structure Outcome.Listable (outcome : Outcome) : Prop where
  solved : outcome.status = .solved
  records_distinct : outcome.records.names.Nodup
  scalars_distinct : outcome.scalars.names.Nodup
  fields_distinct : ∀ array ∈ outcome.records, ∀ labels ∈ array.2, labels.names.Nodup
  records_filled : ∀ array ∈ outcome.records, array.2 ≠ []
  scalars_filled : ∀ array ∈ outcome.scalars, array.2 ≠ []
  fields_filled : ∀ array ∈ outcome.records, ∀ labels ∈ array.2, labels ≠ []
  records_named : ∀ array ∈ outcome.records, isName array.1
  scalars_named : ∀ array ∈ outcome.scalars, isName array.1
  fields_named : ∀ array ∈ outcome.records, ∀ labels ∈ array.2, ∀ entry ∈ labels,
    isName entry.1 ∧ isName entry.2
  labels_named : ∀ array ∈ outcome.scalars, ∀ label ∈ array.2, isName label

namespace Report

variable {α : Type} {arrays : Table (List α)}

/-! ## Elements in order -/

def placed (arrays : Table (List α)) : List (String × Nat × α) :=
  arrays.flatMap fun array => array.2.mapIdx fun index element => (array.1, index, element)

/-- Elements stand in the order of the names of their arrays, by code points, and then by index. -/
def Ascending (elements : List (String × Nat × α)) : Prop :=
  elements.Pairwise fun element next =>
    element.1 < next.1 ∨ element.1 = next.1 ∧ element.2.1 < next.2.1

theorem mem_placed {name : String} {index : Nat} {element : α} :
    (name, index, element) ∈ placed arrays ↔
      ∃ elements, (name, elements) ∈ arrays ∧ elements[index]? = some element := by
  simp only [placed, List.mem_flatMap, List.mem_mapIdx, Prod.mk.injEq]
  constructor
  · rintro ⟨⟨_, elements⟩, member, place, below, rfl, rfl, rfl⟩
    exact ⟨elements, member, List.getElem?_eq_getElem below⟩
  · rintro ⟨elements, member, found⟩
    obtain ⟨below, rfl⟩ := List.getElem?_eq_some_iff.mp found
    exact ⟨(name, elements), member, index, below, rfl, rfl, rfl⟩

theorem sorted_perm (arrays : Table α) : (sorted arrays).Perm arrays :=
  List.mergeSort_perm ..

/-- Arrays of different names are sorted strictly. -/
theorem pairwise_sorted {arrays : Table α} (distinct : arrays.names.Nodup) :
    (sorted arrays).Pairwise fun array next => array.1 < next.1 := by
  have weakly : (sorted arrays).Pairwise fun array next => array.1 ≤ next.1 := by
    refine (List.pairwise_mergeSort ?_ ?_ arrays).imp fun less => of_decide_eq_true less
    · intro first second third less next
      simp only [decide_eq_true_eq] at less next ⊢
      exact String.le_trans less next
    · intro first second
      simp only [Bool.or_eq_true, decide_eq_true_eq]
      exact String.le_total ..
  have different : (sorted arrays).Pairwise fun array next => array.1 ≠ next.1 :=
    List.pairwise_map.mp (((sorted_perm arrays).map Prod.fst).nodup_iff.mpr distinct)
  exact (weakly.and different).imp fun both => Std.lt_of_le_of_ne both.1 both.2

/-- Arrays of different names are sorted alike from any order. -/
theorem sorted_eq_of_perm {arrays others : Table α} (distinct : arrays.names.Nodup)
    (same : arrays.Perm others) : sorted arrays = sorted others := by
  have otherDistinct : others.names.Nodup := (same.map Prod.fst).nodup_iff.mp distinct
  have sortedPerm : (sorted arrays).Perm (sorted others) :=
    (sorted_perm arrays).trans (same.trans (sorted_perm others).symm)
  refine List.Perm.eq_of_pairwise (fun _ _ _ _ less more => ?_) (pairwise_sorted distinct)
    (pairwise_sorted otherDistinct) sortedPerm
  exact absurd more (Std.not_gt_of_lt less)

theorem ascending_placed (distinct : arrays.names.Nodup) : Ascending (placed (sorted arrays)) := by
  rw [Ascending, placed, List.pairwise_flatMap]
  constructor
  · intro array _
    rw [List.pairwise_iff_getElem]
    intro first second _ _ less
    rw [List.getElem_mapIdx, List.getElem_mapIdx]
    exact .inr ⟨rfl, less⟩
  · refine (pairwise_sorted distinct).imp fun less => ?_
    simp only [List.mem_mapIdx]
    rintro _ ⟨_, _, rfl⟩ _ ⟨_, _, rfl⟩
    exact .inl less

theorem mem_placed_sorted {name : String} {index : Nat} {element : α} :
    (name, index, element) ∈ placed (sorted arrays) ↔
      ∃ elements, (name, elements) ∈ arrays ∧ elements[index]? = some element := by
  simp only [mem_placed, (sorted_perm arrays).mem_iff]

theorem exists_of_mem_placed {name : String} {index : Nat} {element : α}
    (member : (name, index, element) ∈ placed (sorted arrays)) :
    ∃ elements, (name, elements) ∈ arrays ∧ element ∈ elements := by
  obtain ⟨elements, inArrays, found⟩ := mem_placed_sorted.mp member
  exact ⟨elements, inArrays, List.mem_of_getElem? found⟩

/-- Elements of an array are those that are placed under its name. -/
theorem getElem?_eq_some_iff_placed (distinct : arrays.names.Nodup) {name : String}
    {elements : List α} (member : (name, elements) ∈ arrays) {index : Nat} {element : α} :
    elements[index]? = some element ↔ (name, index, element) ∈ placed (sorted arrays) := by
  rw [mem_placed_sorted]
  constructor
  · exact fun found => ⟨elements, member, found⟩
  · rintro ⟨others, otherMember, found⟩
    cases List.inj_on_of_nodup_map distinct otherMember member rfl
    exact found

/-- An array that is not empty is known from the elements that are placed. -/
theorem mem_of_placed_eq {others : Table (List α)} (distinct : arrays.names.Nodup)
    (otherDistinct : others.names.Nodup) (filled : ∀ array ∈ arrays, array.2 ≠ [])
    (same : placed (sorted arrays) = placed (sorted others)) :
    ∀ array ∈ arrays, array ∈ others := by
  rintro ⟨name, elements⟩ member
  obtain ⟨first, rest, rfl⟩ := List.exists_cons_of_ne_nil (filled _ member)
  have firstPlaced : (name, 0, first) ∈ placed (sorted others) :=
    same ▸ (getElem?_eq_some_iff_placed distinct member).mp rfl
  obtain ⟨found, foundMember, _⟩ := mem_placed_sorted.mp firstPlaced
  have alike : first :: rest = found := by
    refine List.ext_getElem? fun index => Option.ext fun element => ?_
    rw [getElem?_eq_some_iff_placed distinct member, same,
      getElem?_eq_some_iff_placed otherDistinct foundMember]
  rwa [alike]

theorem perm_of_placed_eq {others : Table (List α)} (distinct : arrays.names.Nodup)
    (otherDistinct : others.names.Nodup) (filled : ∀ array ∈ arrays, array.2 ≠ [])
    (otherFilled : ∀ array ∈ others, array.2 ≠ [])
    (same : placed (sorted arrays) = placed (sorted others)) : arrays.Perm others :=
  (List.perm_ext_iff_of_nodup (List.Nodup.of_map _ distinct)
      (List.Nodup.of_map _ otherDistinct)).mpr fun array =>
    ⟨mem_of_placed_eq distinct otherDistinct filled same array,
      mem_of_placed_eq otherDistinct distinct otherFilled same.symm array⟩

/-! ## Rows -/

/-- What a line of a listing says: the label of a field of an element, that an element ends, or
the label of an element of a scalar array. -/
inductive Row where
  | field (array : String) (index : Nat) (name label : String)
  | gap
  | single (array : String) (index : Nat) (label : String)
  deriving DecidableEq, Repr

namespace Row

def text : Row → String
  | .field array index name label => line (elementName array index ++ "." ++ name) label
  | .gap => ""
  | .single array index label => line (elementName array index) label

def Named : Row → Prop
  | .field array _ name label => isName array ∧ isName name ∧ isName label
  | .gap => True
  | .single array _ label => isName array ∧ isName label

def single? : Row → Option (String × Nat × String)
  | .single array index label => some (array, index, label)
  | _ => none

def opening (array : String) (index : Nat) (rest : List Char) : List Char :=
  array.toList ++ '[' :: (Nat.toDigits 10 index ++ ']' :: rest)

theorem toList_text_field (array : String) (index : Nat) (name label : String) :
    (field array index name label).text.toList =
      opening array index ('.' :: (name.toList ++ ' ' :: '=' :: ' ' :: label.toList)) := by
  simp [text, line, elementName, opening, Nat.toString_eq_repr, Nat.toList_repr]

theorem toList_text_single (array : String) (index : Nat) (label : String) :
    (single array index label).text.toList =
      opening array index (' ' :: '=' :: ' ' :: label.toList) := by
  simp [text, line, elementName, opening, Nat.toString_eq_repr, Nat.toList_repr]

theorem not_mem_toDigits {c : Char} (mark : c.isDigit = false) (n : Nat) :
    c ∉ Nat.toDigits 10 n := by
  intro member
  rw [Nat.isDigit_of_mem_toDigits (by decide) (by decide) member] at mark
  cases mark

/-- The name of an element can be read from the line that it opens. -/
theorem opening_inj {array other : String} {index place : Nat} {rest more : List Char}
    (named : isName array = true) (otherNamed : isName other = true)
    (same : opening array index rest = opening other place more) :
    array = other ∧ index = place ∧ rest = more := by
  obtain ⟨arrays, same⟩ := append_cons_inj_of_fresh (not_mem_of_isName named rfl)
    (not_mem_of_isName otherNamed rfl) same
  obtain ⟨digits, rests⟩ := append_cons_inj_of_fresh (not_mem_toDigits rfl index)
    (not_mem_toDigits rfl place) same
  have numbers := congrArg (fun digits => Nat.ofDigitChars 10 digits 0) digits
  simp only [Nat.ofDigitChars_toDigits (b := 10) (by decide) (by decide)] at numbers
  exact ⟨String.toList_inj.mp arrays, numbers, rests⟩

theorem opening_ne_nil (array : String) (index : Nat) (rest : List Char) :
    opening array index rest ≠ [] := by
  simp [opening]

theorem text_eq_empty_iff {row : Row} : row.text = "" ↔ row = gap := by
  rw [← String.toList_inj, String.toList_empty]
  cases row with
  | gap => exact ⟨fun _ => rfl, fun _ => rfl⟩
  | field array index name label =>
      rw [toList_text_field]
      exact ⟨fun empty => absurd empty (opening_ne_nil _ _ _), nofun⟩
  | single array index label =>
      rw [toList_text_single]
      exact ⟨fun empty => absurd empty (opening_ne_nil _ _ _), nofun⟩

/-- Rows can be told apart by their lines. -/
theorem eq_of_text {first second : Row} (named : first.Named) (otherNamed : second.Named)
    (same : first.text = second.text) : first = second := by
  have characters := congrArg String.toList same
  cases first with
  | gap => exact (text_eq_empty_iff.mp same.symm).symm
  | field array index name label =>
      obtain ⟨arrayNamed, nameNamed, labelNamed⟩ := named
      rw [toList_text_field] at characters
      cases second with
      | gap => exact text_eq_empty_iff.mp same
      | field other place otherName otherLabel =>
          obtain ⟨otherArrayNamed, otherNameNamed, otherLabelNamed⟩ := otherNamed
          rw [toList_text_field] at characters
          obtain ⟨rfl, rfl, rests⟩ := opening_inj arrayNamed otherArrayNamed characters
          obtain ⟨names, labels⟩ := append_cons_inj_of_fresh (not_mem_of_isName nameNamed rfl)
            (not_mem_of_isName otherNameNamed rfl) (List.cons.inj rests).2
          have labels : label.toList = otherLabel.toList := by simpa using labels
          rw [String.toList_inj.mp names, String.toList_inj.mp labels]
      | single other place otherLabel =>
          rw [toList_text_single] at characters
          obtain ⟨_, _, rests⟩ := opening_inj arrayNamed otherNamed.1 characters
          cases rests
  | single array index label =>
      rw [toList_text_single] at characters
      cases second with
      | gap => exact text_eq_empty_iff.mp same
      | field other place otherName otherLabel =>
          rw [toList_text_field] at characters
          obtain ⟨_, _, rests⟩ := opening_inj named.1 otherNamed.1 characters
          cases rests
      | single other place otherLabel =>
          rw [toList_text_single] at characters
          obtain ⟨rfl, rfl, rests⟩ := opening_inj named.1 otherNamed.1 characters
          have labels : label.toList = otherLabel.toList := by simpa using rests
          rw [String.toList_inj.mp labels]

theorem newline_not_mem_text {row : Row} (named : row.Named) : '\n' ∉ row.text.toList := by
  have word {name : String} (named : isName name = true) : '\n' ∉ name.toList :=
    not_mem_of_isName named rfl
  have digits (n : Nat) : '\n' ∉ Nat.toDigits 10 n := not_mem_toDigits rfl n
  cases row with
  | gap => exact List.not_mem_nil
  | field array index name label =>
      simp [toList_text_field, opening, word named.1, word named.2.1, word named.2.2, digits]
  | single array index label =>
      simp [toList_text_single, opening, word named.1, word named.2, digits]

end Row

def written (rows : List Row) : String :=
  String.join (rows.map fun row => row.text ++ "\n")

theorem toList_written_cons (row : Row) (rows : List Row) :
    (written (row :: rows)).toList = row.text.toList ++ '\n' :: (written rows).toList := by
  simp [written]

/-- Rows of words can be read from their text. -/
theorem eq_of_written {rows others : List Row} (named : ∀ row ∈ rows, row.Named)
    (otherNamed : ∀ row ∈ others, row.Named) (same : written rows = written others) :
    rows = others := by
  have characters := congrArg String.toList same
  clear same
  induction rows generalizing others with
  | nil =>
      cases others with
      | nil => rfl
      | cons other others =>
          rw [toList_written_cons] at characters
          exact absurd characters.symm (by simp [written])
  | cons row rows ih =>
      cases others with
      | nil =>
          rw [toList_written_cons] at characters
          exact absurd characters (by simp [written])
      | cons other others =>
          obtain ⟨rowNamed, rowsNamed⟩ := List.forall_mem_cons.mp named
          obtain ⟨otherRowNamed, othersNamed⟩ := List.forall_mem_cons.mp otherNamed
          rw [toList_written_cons, toList_written_cons] at characters
          -- No row holds a newline, so the first newline ends the first row of both texts.
          obtain ⟨texts, rests⟩ := append_cons_inj_of_fresh (Row.newline_not_mem_text rowNamed)
            (Row.newline_not_mem_text otherRowNamed) characters
          rw [Row.eq_of_text rowNamed otherRowNamed (String.toList_inj.mp texts),
            ih rowsNamed othersNamed rests]

/-! ## Listings -/

def fieldRows (element : String × Nat × Table String) : List Row :=
  element.2.2.map fun entry => .field element.1 element.2.1 entry.1 entry.2

/-- The rows of an element of a record array: its labels, and a gap behind them. -/
def elementRows (element : String × Nat × Table String) : List Row :=
  fieldRows element ++ [.gap]

def singleRow (single : String × Nat × String) : Row :=
  .single single.1 single.2.1 single.2.2

def rows (outcome : Outcome) : List Row :=
  (placed (sorted outcome.records)).flatMap elementRows ++
    (placed (sorted outcome.scalars)).map singleRow

theorem flatMap_mapIdx {β γ : Type} (elements : List α) (number : Nat → α → β)
    (piece : β → List γ) :
    (elements.mapIdx number).flatMap piece =
      (elements.mapIdx fun index element => piece (number index element)).flatten := by
  rw [List.mapIdx_eq_zipIdx_map, List.mapIdx_eq_zipIdx_map, List.flatMap_map, List.flatMap_def]

theorem elementLines_eq {array : String} {index : Nat} {labels : Table String}
    (distinct : labels.names.Nodup) :
    elementLines [] array index labels = (elementRows (array, index, labels)).map Row.text := by
  have found (entry : String × String) (member : entry ∈ labels) :
      line (elementName array index ++ "." ++ entry.1)
          ((Table.find? entry.1 labels).getD "") =
        (Row.field array index entry.1 entry.2).text := by
    rw [Table.find?_eq_some_of_mem distinct member, Option.getD_some, Row.text]
  rw [elementLines, shownFields, Table.find?, elementRows, fieldRows, List.map_append, Table.names,
    List.map_map, List.map_map]
  exact congrArg (· ++ [""]) (List.map_congr_left found)

theorem recordLines_eq {array : String × List (Table String)}
    (distinct : ∀ labels ∈ array.2, labels.names.Nodup) :
    recordLines [] array =
      ((array.2.mapIdx fun index labels => (array.1, index, labels)).flatMap elementRows).map
        Row.text := by
  rw [List.map_flatMap, flatMap_mapIdx, recordLines]
  congr 1
  refine List.mapIdx_eq_mapIdx_iff.mpr fun index below => ?_
  exact elementLines_eq (distinct _ (List.getElem_mem below))

/-- A book that stands alone has one line and an empty one. -/
example : recordLines [] ("Books", [[("color", "red")]]) = ["Books[0].color = red", ""] := by
  decide

theorem scalarLines_eq (array : String × List String) :
    scalarLines array =
      ((array.2.mapIdx fun index label => (array.1, index, label)).map singleRow).map Row.text := by
  rw [scalarLines, List.mapIdx_eq_zipIdx_map, List.mapIdx_eq_zipIdx_map, List.map_map, List.map_map]
  rfl

theorem solutionLines_eq {outcome : Outcome}
    (distinct : ∀ array ∈ outcome.records, ∀ labels ∈ array.2, labels.names.Nodup) :
    solutionLines [] outcome = "SUCCESS:" :: (rows outcome).map Row.text := by
  have records : (sorted outcome.records).flatMap (recordLines []) =
      ((placed (sorted outcome.records)).flatMap elementRows).map Row.text := by
    rw [placed, List.flatMap_assoc, List.map_flatMap]
    refine List.flatMap_congr fun array member => ?_
    exact recordLines_eq (distinct array ((sorted_perm _).mem_iff.mp member))
  have scalars : (sorted outcome.scalars).flatMap scalarLines =
      ((placed (sorted outcome.scalars)).map singleRow).map Row.text := by
    rw [placed, List.map_flatMap, List.map_flatMap]
    exact List.flatMap_congr fun array _ => scalarLines_eq array
  rw [solutionLines, records, scalars, rows, List.map_append]

theorem intercalate_newline (first : String) (lines : List String) :
    "\n".intercalate (first :: lines) ++ "\n" =
      first ++ "\n" ++ String.join (lines.map fun line => line ++ "\n") := by
  rw [← String.toList_inj]
  induction lines generalizing first with
  | nil => simp
  | cons next lines ih =>
      have later := ih next
      simp only [String.toList_append, String.toList_intercalate, String.toList_join,
        List.map_cons, List.intercalate_cons_cons, List.flatMap_cons, List.append_assoc] at later ⊢
      rw [later]

theorem render_eq {outcome : Outcome} (solved : outcome.status = .solved)
    (distinct : ∀ array ∈ outcome.records, ∀ labels ∈ array.2, labels.names.Nodup) :
    render [] outcome = "SUCCESS:\n" ++ written (rows outcome) := by
  rw [render, solved]
  simp only [solutionLines_eq distinct, intercalate_newline, written, List.map_map]
  rfl

theorem gap_not_mem_fieldRows (element : String × Nat × Table String) :
    Row.gap ∉ fieldRows element := by
  simp [fieldRows]

theorem eq_of_fieldRows {element other : String × Nat × Table String} (filled : element.2.2 ≠ [])
    (same : fieldRows element = fieldRows other) : element = other := by
  obtain ⟨array, index, labels⟩ := element
  obtain ⟨otherArray, place, others⟩ := other
  obtain ⟨entry, rest, rfl⟩ := List.exists_cons_of_ne_nil filled
  cases others with
  | nil => cases same
  | cons otherEntry others =>
      have heads := (List.cons.inj same).1
      simp only [Row.field.injEq] at heads
      obtain ⟨rfl, rfl, _, _⟩ := heads
      have labels := (List.map_inj_right ?_).mp same
      · exact congrArg (fun labels => (array, index, labels)) labels
      · intro first second alike
        simp only [Row.field.injEq, true_and] at alike
        exact Prod.ext alike.1 alike.2

/-- The rows of elements with labels show where each element ends. -/
theorem eq_of_elementRows {elements others : List (String × Nat × Table String)}
    (filled : ∀ element ∈ elements, element.2.2 ≠ [])
    (same : elements.flatMap elementRows = others.flatMap elementRows) : elements = others := by
  induction elements generalizing others with
  | nil =>
      cases others with
      | nil => rfl
      | cons other others => simp [elementRows] at same
  | cons element elements ih =>
      cases others with
      | nil => simp [elementRows] at same
      | cons other others =>
          obtain ⟨nonempty, elementsFilled⟩ := List.forall_mem_cons.mp filled
          rw [List.flatMap_cons, List.flatMap_cons, elementRows, elementRows, List.append_assoc,
            List.append_assoc, List.singleton_append, List.singleton_append] at same
          obtain ⟨labels, rests⟩ := append_cons_inj_of_fresh (gap_not_mem_fieldRows element)
            (gap_not_mem_fieldRows other) same
          rw [eq_of_fieldRows nonempty labels, ih elementsFilled rests]

theorem single?_elementRows {row : Row} {elements : List (String × Nat × Table String)}
    (member : row ∈ elements.flatMap elementRows) : row.single? = none := by
  obtain ⟨element, _, inElement⟩ := List.mem_flatMap.mp member
  rcases List.mem_append.mp inElement with isField | isGap
  · obtain ⟨entry, _, rfl⟩ := List.mem_map.mp isField
    rfl
  · rw [List.mem_singleton.mp isGap]
    rfl

/-- The rows of the scalar arrays can be told from those of the record arrays. -/
theorem placed_eq_of_rows {outcome other : Outcome}
    (filled : ∀ element ∈ placed (sorted outcome.records), element.2.2 ≠ [])
    (same : rows outcome = rows other) :
    placed (sorted outcome.records) = placed (sorted other.records) ∧
      placed (sorted outcome.scalars) = placed (sorted other.scalars) := by
  have singles (outcome : Outcome) :
      (rows outcome).filterMap Row.single? = placed (sorted outcome.scalars) := by
    have none :
        ((placed (sorted outcome.records)).flatMap elementRows).filterMap Row.single? = [] :=
      List.filterMap_eq_nil_iff.mpr fun row => single?_elementRows
    rw [rows, List.filterMap_append, none, List.filterMap_map, List.nil_append]
    exact List.filterMap_some
  have scalars : placed (sorted outcome.scalars) = placed (sorted other.scalars) := by
    rw [← singles, ← singles, same]
  rw [rows, rows, scalars] at same
  exact ⟨eq_of_elementRows filled (List.append_cancel_right same), scalars⟩

/-! ## What a report shows -/

/-- The text of an element of a record array: a line for each label, and an empty line. -/
def elementText (element : String × Nat × Table String) : String :=
  String.join (element.2.2.map fun entry =>
    element.1 ++ "[" ++ toString element.2.1 ++ "]." ++ entry.1 ++ " = " ++ entry.2 ++ "\n") ++ "\n"

def singleText (single : String × Nat × String) : String :=
  single.1 ++ "[" ++ toString single.2.1 ++ "] = " ++ single.2.2 ++ "\n"

/-- A text lists the elements of the record arrays of a solution and then those of its scalar
arrays, all of them once and in order. -/
structure Lists (text : String) (outcome : Outcome)
    (elements : List (String × Nat × Table String)) (singles : List (String × Nat × String)) :
    Prop where
  text_eq : text =
    "SUCCESS:\n" ++ String.join (elements.map elementText) ++ String.join (singles.map singleText)
  elements_ascend : Ascending elements
  singles_ascend : Ascending singles
  mem_elements : ∀ array index labels, (array, index, labels) ∈ elements ↔
    ∃ all, (array, all) ∈ outcome.records ∧ all[index]? = some labels
  mem_singles : ∀ array index label, (array, index, label) ∈ singles ↔
    ∃ all, (array, all) ∈ outcome.scalars ∧ all[index]? = some label
  fields_once : (elements.flatMap fun element =>
    element.2.2.map fun entry => (element.1, element.2.1, entry.1)).Nodup

theorem toList_written (rows : List Row) :
    (written rows).toList = rows.flatMap fun row => row.text.toList ++ ['\n'] := by
  simp [written, List.flatMap_map]

theorem toList_elementText (element : String × Nat × Table String) :
    (elementText element).toList = (written (elementRows element)).toList := by
  simp [elementText, toList_written, elementRows, fieldRows, List.flatMap_map, Row.text, line,
    elementName]

theorem toList_singleText (single : String × Nat × String) :
    (singleText single).toList = (singleRow single).text.toList ++ ['\n'] := by
  simp [singleText, singleRow, Row.text, line, elementName]

theorem written_rows (outcome : Outcome) :
    written (rows outcome) = String.join ((placed (sorted outcome.records)).map elementText) ++
      String.join ((placed (sorted outcome.scalars)).map singleText) := by
  rw [← String.toList_inj, String.toList_append, String.toList_join, String.toList_join,
    toList_written, rows, List.flatMap_append, List.flatMap_assoc, List.flatMap_map,
    List.flatMap_map, List.flatMap_map]
  simp only [toList_elementText, toList_singleText, toList_written]

theorem nodup_fieldKeys {elements : List (String × Nat × Table String)}
    (ascend : Ascending elements) (distinct : ∀ element ∈ elements, element.2.2.names.Nodup) :
    (elements.flatMap fun element =>
      element.2.2.map fun entry => (element.1, element.2.1, entry.1)).Nodup := by
  rw [List.Nodup, List.pairwise_flatMap]
  constructor
  · intro element member
    have names : element.2.2.Pairwise fun entry next => entry.1 ≠ next.1 :=
      List.pairwise_map.mp (distinct element member)
    refine List.pairwise_map.mpr (names.imp fun different same => ?_)
    simp only [Prod.mk.injEq, true_and] at same
    exact different same
  · refine ascend.imp fun {element next} before => ?_
    simp only [List.mem_map]
    rintro _ ⟨_, _, rfl⟩ _ ⟨_, _, rfl⟩ same
    simp only [Prod.mk.injEq] at same
    rcases before with less | ⟨_, less⟩
    · exact absurd (same.1 ▸ less) (String.lt_irrefl _)
    · exact absurd (same.2.1 ▸ less) (Nat.lt_irrefl _)

end Report

namespace Outcome.Listable

open Report

variable {outcome other : Outcome} (listable : outcome.Listable)
include listable

theorem named : ∀ row ∈ rows outcome, row.Named := by
  intro row member
  rcases List.mem_append.mp member with inRecords | inScalars
  · obtain ⟨⟨array, index, labels⟩, isPlaced, inElement⟩ := List.mem_flatMap.mp inRecords
    obtain ⟨all, isArray, isElement⟩ := exists_of_mem_placed isPlaced
    rcases List.mem_append.mp inElement with isField | isGap
    · obtain ⟨entry, isEntry, rfl⟩ := List.mem_map.mp isField
      exact ⟨listable.records_named _ isArray,
        listable.fields_named _ isArray _ isElement _ isEntry⟩
    · rw [List.mem_singleton.mp isGap]
      trivial
  · obtain ⟨⟨array, index, label⟩, isPlaced, rfl⟩ := List.mem_map.mp inScalars
    obtain ⟨all, isArray, isElement⟩ := exists_of_mem_placed isPlaced
    exact ⟨listable.scalars_named _ isArray, listable.labels_named _ isArray _ isElement⟩

theorem lists : Lists (render [] outcome) outcome (placed (sorted outcome.records))
    (placed (sorted outcome.scalars)) where
  text_eq := by
    rw [render_eq listable.solved listable.fields_distinct, written_rows, String.append_assoc]
  elements_ascend := ascending_placed listable.records_distinct
  singles_ascend := ascending_placed listable.scalars_distinct
  mem_elements _ _ _ := mem_placed_sorted
  mem_singles _ _ _ := mem_placed_sorted
  fields_once := by
    refine nodup_fieldKeys (ascending_placed listable.records_distinct) ?_
    rintro ⟨array, index, labels⟩ member
    obtain ⟨all, isArray, isElement⟩ := exists_of_mem_placed member
    exact listable.fields_distinct _ isArray _ isElement

theorem placed_eq (otherListable : other.Listable) (same : render [] outcome = render [] other) :
    placed (sorted outcome.records) = placed (sorted other.records) ∧
      placed (sorted outcome.scalars) = placed (sorted other.scalars) := by
  rw [render_eq listable.solved listable.fields_distinct,
    render_eq otherListable.solved otherListable.fields_distinct] at same
  have written : written (rows outcome) = written (rows other) :=
    (String.append_right_inj _).mp same
  refine placed_eq_of_rows ?_ (eq_of_written listable.named otherListable.named written)
  rintro ⟨array, index, labels⟩ member
  obtain ⟨all, isArray, isElement⟩ := exists_of_mem_placed member
  exact listable.fields_filled _ isArray _ isElement

end Outcome.Listable

/-- The report of a solution lists all that the solution has, and two solutions have one report
exactly when they are the same up to the order of their arrays. -/
theorem report_determines {outcome : Outcome} (listable : outcome.Listable) :
    (∃ elements singles, Report.Lists (Report.render [] outcome) outcome elements singles) ∧
      ∀ other : Outcome, other.Listable →
        (Report.render [] other = Report.render [] outcome ↔
          other.records.Perm outcome.records ∧ other.scalars.Perm outcome.scalars) := by
  refine ⟨⟨_, _, listable.lists⟩, fun other otherListable => ⟨fun same => ?_, fun same => ?_⟩⟩
  · obtain ⟨records, scalars⟩ := otherListable.placed_eq listable same
    exact ⟨Report.perm_of_placed_eq otherListable.records_distinct listable.records_distinct
        otherListable.records_filled listable.records_filled records,
      Report.perm_of_placed_eq otherListable.scalars_distinct listable.scalars_distinct
        otherListable.scalars_filled listable.scalars_filled scalars⟩
  · rw [Report.render, Report.render, otherListable.solved, listable.solved, Report.solutionLines,
      Report.solutionLines, Report.sorted_eq_of_perm otherListable.records_distinct same.1,
      Report.sorted_eq_of_perm otherListable.scalars_distinct same.2]

def shelfOutcome : Outcome where
  puzzle := "shelf"
  status := .solved
  iterations := 5
  searchSpace := 64
  records := [
    ("Vases", [[("color", "red"), ("size", "big")], [("color", "blue"), ("size", "big")]]),
    ("Books", [[("color", "red")]])]
  scalars := [("Lamps", ["on"])]

def turnedShelfOutcome : Outcome :=
  { shelfOutcome with iterations := 7, records := shelfOutcome.records.reverse }

theorem listable_shelfOutcome : shelfOutcome.Listable := by
  constructor <;> decide +kernel

theorem listable_turnedShelfOutcome : turnedShelfOutcome.Listable := by
  constructor <;> decide +kernel

/-- The two shelves have one report, and it lists them. -/
theorem report_determines_shelfOutcome :
    (∃ elements singles,
      Report.Lists (Report.render [] shelfOutcome) shelfOutcome elements singles) ∧
      Report.render [] turnedShelfOutcome = Report.render [] shelfOutcome := by
  obtain ⟨lists, determines⟩ := report_determines listable_shelfOutcome
  have turned : turnedShelfOutcome.records.Perm shelfOutcome.records := List.reverse_perm _
  exact ⟨lists, (determines _ listable_turnedShelfOutcome).mpr ⟨turned, .refl _⟩⟩

end LogicPuzzle
