import LogicPuzzle.Manifest
import LogicPuzzle.Proofs.Building

/-!
# Checked settings

A manifest is made from a document by a list of checks, one behind the other.
Each asks something of the value at its place and is passed where nothing
stands.  When all are passed the settings are those of the document; otherwise
the first check that is not passed gives the failure.  Two kinds of values are
passed that are not of the type of their setting, and three kinds of failures
name no fault, two of them at values that cannot be quoted.
-/

namespace LogicPuzzle

open Toml

/-! ## Places of a document -/

namespace Toml.Value

/-- The value that names lead to, from a table to one of its values each. -/
def at? (value : Value) : Key → Option Value
  | [] => some value
  | name :: key =>
      match value.entries?.bind (Table.find? name) with
      | none => none
      | some inner => inner.at? key

def ofStrings (texts : List String) : Value :=
  .array (texts.map .string)

theorem entries?_eq_some_iff {value : Value} {entries : Table Value} :
    value.entries? = some entries ↔ value = .table entries := by
  cases value <;> simp [entries?]

theorem string?_eq_some_iff {value : Value} {text : String} :
    value.string? = some text ↔ value = .string text := by
  cases value <;> simp [string?]

theorem mapM_string?_eq_some_iff {items : List Value} {texts : List String} :
    items.mapM string? = some texts ↔ items = texts.map .string := by
  induction items generalizing texts with
  | nil => cases texts <;> simp
  | cons item items ih =>
      simp only [List.mapM_cons, Option.bind_eq_bind, Option.bind_eq_some_iff, string?_eq_some_iff,
        ih]
      cases texts with
      | nil => simp
      | cons text texts => simp [eq_comm]

theorem strings?_eq_some_iff {value : Value} {texts : List String} :
    value.strings? = some texts ↔ value = ofStrings texts := by
  cases value with
  | array items => simp [strings?, ofStrings, mapM_string?_eq_some_iff]
  | _ => simp [strings?, ofStrings]

theorem at?_table_cons (document : Table Value) (name : String) (key : Key) :
    (table document).at? (name :: key) =
      (Table.find? name document).bind fun value => value.at? key := by
  rw [at?, entries?, Option.bind_some]
  cases Table.find? name document <;> rfl

/-! ## Values that can be quoted -/

/-- A value stands in another one, so many levels down. -/
inductive Holds : Value → Nat → Value → Prop where
  | here (value : Value) : Holds value 0 value
  | item {items : List Value} {item inner : Value} {depth : Nat} (member : item ∈ items)
      (holds : Holds item depth inner) : Holds (.array items) (depth + 1) inner
  | entry {entries : Table Value} {name : String} {value inner : Value} {depth : Nat}
      (member : (name, value) ∈ entries) (holds : Holds value depth inner) :
      Holds (.table entries) (depth + 1) inner

/-- How many levels the listing of a value has below its own, those of its items apart. -/
def ownLevels : Value → Nat
  | .moment instant => instant.offsetLevels
  | _ => 0

/-- A value can be quoted when all that stands in it is within the levels of a listing, and all
numbers in it can be written. -/
def Quotable (levels : Nat) (value : Value) : Prop :=
  ∀ depth inner, value.Holds depth inner → depth + inner.ownLevels < levels ∧
    ∀ n, inner = .integer n → Numeral.tooLong n = false

theorem quotable_array {levels : Nat} {items : List Value} :
    (array items).Quotable (levels + 1) ↔ ∀ item ∈ items, item.Quotable levels := by
  constructor
  · intro quotable item member depth inner holds
    obtain ⟨shallow, short⟩ := quotable _ _ (.item member holds)
    exact ⟨by omega, short⟩
  · intro quotable depth inner holds
    cases holds with
    | here => exact ⟨Nat.succ_pos levels, nofun⟩
    | item member holds =>
        obtain ⟨shallow, short⟩ := quotable _ member _ _ holds
        exact ⟨by omega, short⟩

theorem quotable_table {levels : Nat} {entries : Table Value} :
    (table entries).Quotable (levels + 1) ↔ ∀ entry ∈ entries, entry.2.Quotable levels := by
  constructor
  · rintro quotable ⟨name, value⟩ member depth inner holds
    obtain ⟨shallow, short⟩ := quotable _ _ (.entry member holds)
    exact ⟨by omega, short⟩
  · intro quotable depth inner holds
    cases holds with
    | here => exact ⟨Nat.succ_pos levels, nofun⟩
    | entry member holds =>
        obtain ⟨shallow, short⟩ := quotable _ member _ _ holds
        exact ⟨by omega, short⟩

/-- What holds nothing but itself can be quoted when its own levels and numbers can be. -/
theorem quotable_plain {levels : Nat} {value : Value}
    (plain : ∀ depth inner, value.Holds depth inner → depth = 0 ∧ inner = value) :
    value.Quotable (levels + 1) ↔
      value.ownLevels ≤ levels ∧ ∀ n, value = .integer n → Numeral.tooLong n = false := by
  constructor
  · intro quotable
    obtain ⟨shallow, short⟩ := quotable 0 value (.here value)
    exact ⟨by omega, short⟩
  · rintro ⟨shallow, short⟩ depth inner holds
    obtain ⟨rfl, rfl⟩ := plain depth inner holds
    exact ⟨by omega, short⟩

theorem unquotable?_eq_none_iff {levels : Nat} {value : Value} :
    value.unquotable? levels = none ↔ value.Quotable levels := by
  induction levels generalizing value with
  | zero =>
      rw [unquotable?]
      exact iff_of_false nofun fun quotable =>
        Nat.not_lt_zero _ (quotable 0 value (.here value)).1
  | succ levels ih =>
      cases value with
      | array items =>
          simp only [unquotable?, List.findSome?_eq_none_iff, ih, quotable_array]
      | table entries =>
          simp only [unquotable?, List.findSome?_eq_none_iff, ih, quotable_table]
      | _ =>
          rw [quotable_plain (by
            intro depth inner holds
            cases holds
            exact ⟨rfl, rfl⟩)]
          simp [unquotable?, ownLevels]

end Toml.Value

def Limit.value : Limit → Value
  | .count n => .integer n
  | .flag value => .boolean value

theorem Limit.ofValue?_eq_some_iff {value : Value} {limit : Limit} :
    ofValue? value = some limit ↔ value = limit.value := by
  cases value with
  | boolean => cases limit <;> simp [ofValue?, Limit.value]
  | integer n =>
      cases limit with
      | flag => simp [ofValue?, Limit.value]
      | count natural =>
          simp only [ofValue?, Limit.value, Option.ite_none_right_eq_some, Option.some.injEq,
            count.injEq, Value.integer.injEq]
          omega
  | _ => cases limit <;> simp [ofValue?, Limit.value]

def Format.value (format : Format) : Value :=
  .string format.name

theorem Format.ofName?_eq_some_iff {name : String} {format : Format} :
    ofName? name = some format ↔ name = format.name := by
  unfold ofName?
  split
  · next text =>
      cases format <;> simp [Format.name, text]
  · next noText =>
      split
      · next json => cases format <;> simp [Format.name, json]
      · next noJson => cases format <;> simp [Format.name, noText, noJson]

theorem Format.ofValue_eq_some_iff {value : Value} {format : Format} :
    value.string?.bind ofName? = some format ↔ value = format.value := by
  rw [Option.bind_eq_some_iff, Format.value]
  constructor
  · rintro ⟨name, isString, named⟩
    rw [Value.string?_eq_some_iff.mp isString, ofName?_eq_some_iff.mp named]
  · rintro rfl
    exact ⟨format.name, rfl, ofName?_eq_some_iff.mpr rfl⟩

def orderValue (order : String × List String) : String × Value :=
  (order.1, .ofStrings order.2)

/-! ## Checks -/

/-- What is asked of the value at a place of a document, and the failures that tell of a value
that does not meet it. -/
structure Check where
  place : Key
  Meets : Value → Prop
  Tells : Value → ManifestFailure → Prop

namespace Check

/-- A section has to be a table.  Another value there is told without its place. -/
def table (place : Key) : Check where
  place := place
  Meets found := ∃ entries, found = .table entries
  Tells _ failure := failure = .notTable

/-- A setting has to be of one kind.  The fault quotes another value there, if this can be
quoted. -/
def setting {α : Type} (levels : Nat) (place : Key) (encode : α → Value)
    (fault : Value → ManifestFault) : Check where
  place := place
  Meets found := ∃ value, found = encode value
  Tells found failure := failure = Manifest.refusal levels fault found

/-- All entries of a table have to be arrays of strings.  The fault names the first that is not. -/
def orders (place : Key) : Check where
  place := place
  Meets found := ∀ entries, found = .table entries →
    ∃ fields : Table (List String), entries = fields.map orderValue
  Tells found failure := ∃ (fields : Table (List String)) (array : String) (value : Value)
    (others : Table Value),
    found = .table (fields.map orderValue ++ (array, value) :: others) ∧
      (∀ texts, value ≠ .ofStrings texts) ∧ failure = .fault (.fieldOrder array)

/-- A document passes a check where nothing stands, or what meets the check. -/
def Passes (check : Check) (document : Table Value) : Prop :=
  ∀ found, (Value.table document).at? check.place = some found → check.Meets found

/-- The failure of a document at the first of some checks that it does not pass. -/
inductive Refuses (document : Table Value) : List Check → ManifestFailure → Prop where
  | first {check : Check} {later : List Check} {found : Value} {failure : ManifestFailure}
      (stands : (Value.table document).at? check.place = some found)
      (missed : ¬ check.Meets found) (told : check.Tells found failure) :
      Refuses document (check :: later) failure
  | later {check : Check} {later : List Check} {failure : ManifestFailure}
      (passes : check.Passes document) (refuses : Refuses document later failure) :
      Refuses document (check :: later) failure

/-- A result follows from some checks: it gives what they let through, and else the failure at the
first that is not passed. -/
structure Decides {α : Type} (document : Table Value) (checks : List Check) (Gives : α → Prop)
    (result : Except ManifestFailure α) : Prop where
  ok_iff : ∀ value, result = .ok value ↔ (∀ check ∈ checks, check.Passes document) ∧ Gives value
  error_iff : ∀ failure, result = .error failure ↔ Refuses document checks failure

variable {α β : Type} {document : Table Value} {checks later : List Check} {check : Check}

theorem refuses_append {failure : ManifestFailure} :
    Refuses document (checks ++ later) failure ↔ Refuses document checks failure ∨
      (∀ check ∈ checks, check.Passes document) ∧ Refuses document later failure := by
  induction checks with
  | nil =>
      simp only [List.nil_append, List.not_mem_nil, false_implies, implies_true, true_and]
      exact ⟨.inr, fun either => either.resolve_left nofun⟩
  | cons check checks ih =>
      rw [List.cons_append, List.forall_mem_cons]
      constructor
      · rintro (⟨stands, missed, told⟩ | ⟨passes, refuses⟩)
        · exact .inl (.first stands missed told)
        · rcases ih.mp refuses with early | ⟨others, late⟩
          · exact .inl (.later passes early)
          · exact .inr ⟨⟨passes, others⟩, late⟩
      · rintro ((⟨stands, missed, told⟩ | ⟨passes, early⟩) | ⟨⟨passes, others⟩, late⟩)
        · exact .first stands missed told
        · exact .later passes (ih.mpr (.inl early))
        · exact .later passes (ih.mpr (.inr ⟨others, late⟩))

/-- What is refused has not passed all checks. -/
theorem Refuses.not_passed {failure : ManifestFailure} (refuses : Refuses document checks failure) :
    ¬ ∀ check ∈ checks, check.Passes document := by
  induction refuses with
  | first stands missed _ =>
      exact fun passed => missed ((List.forall_mem_cons.mp passed).1 _ stands)
  | later _ _ ih => exact fun passed => ih (List.forall_mem_cons.mp passed).2

theorem Refuses.told {failure : ManifestFailure} (refuses : Refuses document checks failure) :
    ∃ check ∈ checks, ∃ found, check.Tells found failure := by
  induction refuses with
  | @first check _ found _ _ _ told => exact ⟨check, List.mem_cons_self, found, told⟩
  | later _ _ ih =>
      obtain ⟨check, among, tells⟩ := ih
      exact ⟨check, List.mem_cons_of_mem _ among, tells⟩

theorem Decides.pure (value : α) :
    Decides document [] (fun result => result = value) (.ok value : Except ManifestFailure α) where
  ok_iff result := by
    simp only [Except.ok.injEq, List.not_mem_nil, false_implies, implies_true, true_and, eq_comm]
  error_iff _ := iff_of_false nofun nofun

/-- Checks are made one behind the other, the later ones on what the earlier ones let through. -/
theorem Decides.bind {Gives : α → Prop} {Makes : α → β → Prop}
    {first : Except ManifestFailure α} {next : α → Except ManifestFailure β}
    (decides : Decides document checks Gives first)
    (nextDecides : ∀ value, Gives value → Decides document later (Makes value) (next value)) :
    Decides document (checks ++ later) (fun result => ∃ value, Gives value ∧ Makes value result)
      (first >>= next) where
  ok_iff result := by
    rw [List.forall_mem_append]
    constructor
    · intro done
      obtain ⟨value, firstDone, nextDone⟩ := ok_of_bind done
      obtain ⟨passed, gives⟩ := (decides.ok_iff value).mp firstDone
      obtain ⟨laterPassed, makes⟩ := ((nextDecides value gives).ok_iff result).mp nextDone
      exact ⟨⟨passed, laterPassed⟩, value, gives, makes⟩
    · rintro ⟨⟨passed, laterPassed⟩, value, gives, makes⟩
      rw [(decides.ok_iff value).mpr ⟨passed, gives⟩]
      exact ((nextDecides value gives).ok_iff result).mpr ⟨laterPassed, makes⟩
  error_iff failure := by
    rw [refuses_append]
    cases done : first with
    | error other =>
        have refuses := (decides.error_iff other).mp done
        rw [or_iff_left fun ⟨passed, _⟩ => refuses.not_passed passed, ← decides.error_iff, done,
          Except.error.injEq]
        exact iff_of_eq (Except.error.injEq other failure)
    | ok value =>
        obtain ⟨passed, gives⟩ := (decides.ok_iff value).mp done
        rw [or_iff_right fun refuses => refuses.not_passed passed, and_iff_right passed]
        exact (nextDecides value gives).error_iff failure

/-! ## Single checks -/

theorem refuses_single_iff {failure : ManifestFailure} :
    Refuses document [check] failure ↔
      ∃ found, (Value.table document).at? check.place = some found ∧ ¬ check.Meets found ∧
        check.Tells found failure := by
  constructor
  · rintro (⟨stands, missed, told⟩ | ⟨_, refuses⟩)
    · exact ⟨_, stands, missed, told⟩
    · cases refuses
  · rintro ⟨found, stands, missed, told⟩
    exact .first stands missed told

/-- A reader of values that decides a check: it reads exactly the values that meet the check, and
tells of the others. -/
structure ReadBy (check : Check) (encode : α → Value) (read : Value → Except ManifestFailure α) :
    Prop where
  ok_iff : ∀ found value, read found = .ok value ↔ found = encode value
  meets_iff : ∀ found, check.Meets found ↔ ∃ value, found = encode value
  error_iff : ∀ found failure, read found = .error failure ↔
    ¬ check.Meets found ∧ check.Tells found failure

/-- Where nothing stands the default is given. -/
theorem ReadBy.decides {encode : α → Value} {read : Value → Except ManifestFailure α}
    (reads : check.ReadBy encode read) (fallback : α) :
    Decides document [check]
      (fun value => ((Value.table document).at? check.place).getD (encode fallback) = encode value)
      (((Value.table document).at? check.place).elim (.ok fallback) read) := by
  have injective {value other : α} (same : encode value = encode other) : value = other :=
    Except.ok.inj (((reads.ok_iff _ value).mpr rfl).symm.trans ((reads.ok_iff _ other).mpr same))
  constructor
  · intro value
    rw [List.forall_mem_singleton, Passes]
    cases (Value.table document).at? check.place with
    | none =>
        simp only [reduceCtorEq, false_implies, implies_true, true_and, Option.getD_none,
          Option.elim_none, Except.ok.injEq]
        exact ⟨congrArg encode, injective⟩
    | some found =>
        simp only [Option.some.injEq, Option.getD_some, Option.elim_some, reads.ok_iff]
        constructor
        · intro same
          exact ⟨fun _ given => given ▸ (reads.meets_iff found).mpr ⟨value, same⟩, same⟩
        · exact And.right
  · intro failure
    rw [refuses_single_iff]
    cases (Value.table document).at? check.place with
    | none => exact iff_of_false nofun fun ⟨_, impossible, _⟩ => nomatch impossible
    | some found =>
        simp only [Option.some.injEq, exists_eq_left']
        exact reads.error_iff found failure

theorem tableOf_eq (entries : Table Value) (name : String) :
    Manifest.tableOf entries name = (Table.find? name entries).elim (.ok [])
      fun found => found.entries?.elim (.error .notTable) .ok := by
  rw [Manifest.tableOf]
  cases Table.find? name entries with
  | none => rfl
  | some found =>
      dsimp only [Option.elim_some]
      cases found.entries? <;> rfl

theorem decides_table {entries : Table Value} {place : Key} {name : String}
    (stands : (Value.table document).at? place = Table.find? name entries) :
    Decides document [table place]
      (fun inner => ((Value.table document).at? place).getD (.table []) = .table inner)
      (Manifest.tableOf entries name) := by
  have reads : (table place).ReadBy Value.table fun found =>
      found.entries?.elim (.error .notTable) .ok := by
    constructor
    · intro found inner
      rw [← Value.entries?_eq_some_iff]
      cases found.entries? <;> simp
    · exact fun found => Iff.rfl
    · intro found failure
      simp only [table, ← Value.entries?_eq_some_iff]
      cases found.entries? <;> simp [eq_comm]
  rw [tableOf_eq, ← stands]
  exact reads.decides []

theorem setting_eq (levels : Nat) (entries : Table Value) (name : String) (fallback : α)
    (read : Value → Option α) (fault : Value → ManifestFault) :
    Manifest.setting levels entries name fallback read fault =
      (Table.find? name entries).elim (.ok fallback) fun found => (read found).elim
        (.error (Manifest.refusal levels fault found)) .ok := by
  rw [Manifest.setting]
  cases Table.find? name entries with
  | none => rfl
  | some found =>
      dsimp only [Option.elim_some]
      cases read found <;> rfl

theorem decides_setting {encode : α → Value} {read : Value → Option α} (levels : Nat)
    (fault : Value → ManifestFault)
    (reads : ∀ found value, read found = some value ↔ found = encode value)
    {entries : Table Value} {place : Key} {name : String}
    (stands : (Value.table document).at? place = Table.find? name entries) (fallback : α) :
    Decides document [setting levels place encode fault]
      (fun value =>
        ((Value.table document).at? place).getD (encode fallback) = encode value)
      (Manifest.setting levels entries name fallback read fault) := by
  have readBy : (setting levels place encode fault).ReadBy encode fun found => (read found).elim
      (.error (Manifest.refusal levels fault found)) .ok := by
    constructor
    · intro found value
      rw [← reads]
      cases read found <;> simp
    · exact fun found => Iff.rfl
    · intro found failure
      simp only [setting, ← reads]
      cases read found with
      | some value => simp
      | none =>
          simp only [reduceCtorEq, exists_false, not_false_eq_true, true_and, Option.elim_none,
            Except.error.injEq]
          exact eq_comm
  rw [setting_eq, ← stands]
  exact readBy.decides fallback

theorem fieldOrderEntry_eq_ok_iff {entry : String × Value} {order : String × List String} :
    Manifest.fieldOrderEntry entry = .ok order ↔ entry = orderValue order := by
  obtain ⟨array, value⟩ := entry
  obtain ⟨name, texts⟩ := order
  simp only [Manifest.fieldOrderEntry, orderValue, Prod.mk.injEq, ← Value.strings?_eq_some_iff]
  cases value.strings? <;> simp

theorem fieldOrderEntry_eq_error_iff {entry : String × Value} {failure : ManifestFailure} :
    Manifest.fieldOrderEntry entry = .error failure ↔
      (∀ texts, entry.2 ≠ .ofStrings texts) ∧ failure = .fault (.fieldOrder entry.1) := by
  simp only [Manifest.fieldOrderEntry, ne_eq, ← Value.strings?_eq_some_iff]
  cases entry.2.strings? <;> simp [eq_comm]

theorem mapM_fieldOrderEntry_eq_ok_iff {entries : Table Value} {orders : Table (List String)} :
    entries.mapM Manifest.fieldOrderEntry = .ok orders ↔ entries = orders.map orderValue := by
  induction entries generalizing orders with
  | nil => cases orders <;> simp [pure, Except.pure]
  | cons entry entries ih =>
      rw [List.mapM_cons]
      constructor
      · intro done
        obtain ⟨order, first, rest⟩ := ok_of_bind done
        obtain ⟨others, more, made⟩ := ok_of_bind rest
        cases made
        rw [fieldOrderEntry_eq_ok_iff.mp first, ih.mp more, List.map_cons]
      · intro same
        cases orders with
        | nil => cases same
        | cons order others =>
            obtain ⟨first, more⟩ := List.cons.inj same
            rw [fieldOrderEntry_eq_ok_iff.mpr first, ih.mpr more]
            rfl

theorem mapM_fieldOrderEntry_eq_error_iff {entries : Table Value} {failure : ManifestFailure} :
    entries.mapM Manifest.fieldOrderEntry = .error failure ↔
      ∃ (fields : Table (List String)) (array : String) (value : Value) (others : Table Value),
        entries = fields.map orderValue ++ (array, value) :: others ∧
          (∀ texts, value ≠ .ofStrings texts) ∧ failure = .fault (.fieldOrder array) := by
  induction entries with
  | nil => simp [pure, Except.pure]
  | cons entry entries ih =>
      rw [List.mapM_cons]
      cases first : Manifest.fieldOrderEntry entry with
      | error other =>
          obtain ⟨untyped, rfl⟩ := fieldOrderEntry_eq_error_iff.mp first
          change Except.error _ = Except.error failure ↔ _
          rw [Except.error.injEq]
          constructor
          · rintro rfl
            exact ⟨[], entry.1, entry.2, entries, rfl, untyped, rfl⟩
          · rintro ⟨fields, array, value, others, same, _, rfl⟩
            cases fields with
            | nil =>
                obtain ⟨rfl, _⟩ := List.cons.inj same
                rfl
            | cons field fields =>
                obtain ⟨rfl, _⟩ := List.cons.inj same
                exact absurd rfl (untyped field.2)
      | ok order =>
          obtain rfl := fieldOrderEntry_eq_ok_iff.mp first
          have goesOn : (Except.ok order >>= fun order =>
                entries.mapM Manifest.fieldOrderEntry >>= fun orders =>
                  pure (order :: orders)) = Except.error failure ↔
              entries.mapM Manifest.fieldOrderEntry = .error failure := by
            cases entries.mapM Manifest.fieldOrderEntry <;>
              simp [bind, Except.bind, pure, Except.pure]
          rw [goesOn, ih]
          constructor
          · rintro ⟨fields, array, value, others, rfl, untyped, told⟩
            exact ⟨order :: fields, array, value, others, rfl, untyped, told⟩
          · rintro ⟨fields, array, value, others, same, untyped, told⟩
            cases fields with
            | nil =>
                obtain ⟨isFirst, _⟩ := List.cons.inj same
                exact absurd (congrArg Prod.snd isFirst).symm (untyped order.2)
            | cons field fields =>
                exact ⟨fields, array, value, others, (List.cons.inj same).2, untyped, told⟩

theorem decides_orders {entries : Table Value} {place : Key}
    (stands : ((Value.table document).at? place).getD (.table []) = .table entries) :
    Decides document [orders place] (fun orders => entries = orders.map orderValue)
      (entries.mapM Manifest.fieldOrderEntry) := by
  constructor
  · intro fields
    rw [List.forall_mem_singleton, mapM_fieldOrderEntry_eq_ok_iff, iff_and_self]
    rintro rfl found given inner rfl
    have given : (Value.table document).at? place = some (.table inner) := given
    rw [given] at stands
    cases stands
    exact ⟨fields, rfl⟩
  · intro failure
    rw [mapM_fieldOrderEntry_eq_error_iff, refuses_single_iff]
    cases given : (Value.table document).at? place with
    | none =>
        rw [given] at stands
        cases stands
        refine iff_of_false ?_ ?_
        · rintro ⟨fields, array, value, others, impossible, _⟩
          exact absurd impossible.symm (by simp)
        · rintro ⟨found, impossible, _⟩
          exact nomatch given.symm.trans impossible
    | some found =>
        rw [given] at stands
        cases stands
        constructor
        · rintro ⟨fields, array, value, others, split, untyped, told⟩
          refine ⟨_, given, fun meets => ?_, fields, array, value, others, congrArg _ split,
            untyped, told⟩
          obtain ⟨orders, typed⟩ := meets entries rfl
          have among : (array, value) ∈ orders.map orderValue := by simp [← typed, split]
          obtain ⟨order, _, same⟩ := List.mem_map.mp among
          exact untyped order.2 (congrArg Prod.snd same).symm
        · rintro ⟨found, stands, _, fields, array, value, others, split, untyped, told⟩
          obtain rfl := Option.some.inj (given.symm.trans stands)
          exact ⟨fields, array, value, others, Value.table.inj split, untyped, told⟩

theorem Decides.congr {Gives Makes : α → Prop} {result : Except ManifestFailure α}
    (decides : Decides document checks Gives result)
    (same : (∀ check ∈ checks, check.Passes document) → ∀ value, Gives value ↔ Makes value) :
    Decides document checks Makes result where
  ok_iff value := (decides.ok_iff value).trans (and_congr_right fun passed => same passed value)
  error_iff := decides.error_iff

theorem exists_entries {place : Key} (passes : (table place).Passes document) :
    ∃ entries, ((Value.table document).at? place).getD (.table []) = .table entries := by
  cases given : (Value.table document).at? place with
  | none => exact ⟨[], rfl⟩
  | some found => exact passes found given

end Check

/-! ## The checks of a manifest -/

namespace Manifest

variable {levels : Nat} {document : Table Value} {manifest : Manifest}

def checks (levels : Nat) : List Check :=
  [.table ["project"], .setting levels ["project", "puzzles"] .ofStrings .puzzlePaths,
    .table ["solver"], .setting levels ["solver", "max_iterations"] Limit.value .limit,
    .table ["report"], .setting levels ["report", "format"] Format.value .format,
    .table ["report", "field_order"], .orders ["report", "field_order"]]

/-- A bad value is the fault that is told exactly when it can be quoted. -/
theorem refusal_eq_fault_iff {fault : Value → ManifestFault} {found : Value} :
    refusal levels fault found = .fault (fault found) ↔ found.Quotable levels := by
  rw [← Value.unquotable?_eq_none_iff, refusal]
  cases found.unquotable? levels with
  | none => simp
  | some why => cases why <;> simp

/-- The number stands a level too deep to be quoted. -/
example : refusal 2 .limit (.array [.array [.integer 1]]) = .tooDeep := by
  rfl

theorem refusal_cases (levels : Nat) (fault : Value → ManifestFault) (found : Value) :
    refusal levels fault found = .fault (fault found) ∨
      refusal levels fault found = .tooDeep ∨ refusal levels fault found = .numeral := by
  rw [refusal]
  cases found.unquotable? levels with
  | none => exact .inl rfl
  | some why =>
      cases why with
      | tooDeep => exact .inr (.inl rfl)
      | numeral => exact .inr (.inr rfl)

/-- The settings are those of a document, and the defaults where nothing stands. -/
structure ReadFrom (document : Table Value) (manifest : Manifest) : Prop where
  name : ((Value.table document).at? ["project", "name"]).getD default.name = manifest.name
  puzzlePaths : ((Value.table document).at? ["project", "puzzles"]).getD
    (.ofStrings default.puzzlePaths) = .ofStrings manifest.puzzlePaths
  limit : ((Value.table document).at? ["solver", "max_iterations"]).getD default.limit.value =
    manifest.limit.value
  format : ((Value.table document).at? ["report", "format"]).getD default.format.value =
    manifest.format.value
  fieldOrder : ((Value.table document).at? ["report", "field_order"]).getD
    (.table (default.fieldOrder.map orderValue)) = .table (manifest.fieldOrder.map orderValue)

theorem at?_single (document : Table Value) (name : String) :
    (Value.table document).at? [name] = Table.find? name document := by
  rw [Value.at?_table_cons]
  cases Table.find? name document <;> rfl

theorem at?_inside {outer : String} {entries : Table Value}
    (stands : ((Value.table document).at? [outer]).getD (.table []) = .table entries)
    (name : String) : (Value.table document).at? [outer, name] = Table.find? name entries := by
  rw [at?_single] at stands
  rw [Value.at?_table_cons]
  cases given : Table.find? outer document with
  | none =>
      rw [given] at stands
      cases stands
      rfl
  | some value =>
      rw [given] at stands
      obtain rfl : value = .table entries := stands
      exact at?_single _ name

theorem ofDocument_decides (levels : Nat) (document : Table Value) :
    Check.Decides document (checks levels) (ReadFrom document) (ofDocument levels document) := by
  have decides := (Check.decides_table (at?_single document "project")).bind
    fun project isProject => (Check.decides_setting levels .puzzlePaths
      (fun _ _ => Value.strings?_eq_some_iff) (at?_inside isProject "puzzles")
      default.puzzlePaths).bind
    fun puzzlePaths _ => (Check.decides_table (at?_single document "solver")).bind
    fun solver isSolver => (Check.decides_setting levels .limit
      (fun _ _ => Limit.ofValue?_eq_some_iff) (at?_inside isSolver "max_iterations")
      default.limit).bind
    fun limit _ => (Check.decides_table (at?_single document "report")).bind
    fun report isReport => (Check.decides_setting levels .format
      (fun _ _ => Format.ofValue_eq_some_iff) (at?_inside isReport "format")
      default.format).bind
    fun format _ => (Check.decides_table (at?_inside isReport "field_order")).bind
    fun orders areOrders => (Check.decides_orders areOrders).bind
    fun fieldOrder _ => Check.Decides.pure (Manifest.mk
      ((Table.find? "name" project).getD default.name) puzzlePaths limit format fieldOrder)
  refine decides.congr fun passed manifest => ?_
  constructor
  · rintro ⟨project, isProject, puzzlePaths, arePaths, solver, isSolver, limit, isLimit, report,
      isReport, format, isFormat, orders, areOrders, fieldOrder, rfl, rfl⟩
    exact ⟨by rw [at?_inside isProject], arePaths, isLimit, isFormat, areOrders⟩
  · intro reads
    simp only [List.forall_mem_append, List.forall_mem_singleton] at passed
    obtain ⟨projectPasses, _, solverPasses, _, reportPasses, _⟩ := passed
    obtain ⟨project, isProject⟩ := Check.exists_entries projectPasses
    obtain ⟨solver, isSolver⟩ := Check.exists_entries solverPasses
    obtain ⟨report, isReport⟩ := Check.exists_entries reportPasses
    refine ⟨project, isProject, _, reads.puzzlePaths, solver, isSolver, _, reads.limit, report,
      isReport, _, reads.format, _, reads.fieldOrder, _, rfl, ?_⟩
    rw [← at?_inside isProject, reads.name]

/-! ## Settings of their types -/

/-- The name of a manifest is a text and its limit a number. -/
structure Typed (manifest : Manifest) : Prop where
  name : ∃ text, manifest.name = .string text
  limit : ∃ n, manifest.limit = .count n

/-- A fault is told, or a manifest is made with every setting of its type. -/
def ChecksAll (result : Except ManifestFailure Manifest) : Prop :=
  (∃ fault, result = .error (.fault fault)) ∨ ∃ manifest, result = .ok manifest ∧ manifest.Typed

/-- What slips through the checks of a document: a failure that names no fault, at a section that is
no table or at a bad value that cannot be quoted, a name that is no string, or a truth value for a
limit. -/
inductive Slips (levels : Nat) (document : Table Value) : Prop where
  | noTable (refuses : Check.Refuses document (checks levels) .notTable)
  | tooDeep (refuses : Check.Refuses document (checks levels) .tooDeep)
  | numeral (refuses : Check.Refuses document (checks levels) .numeral)
  | name (passed : ∀ check ∈ checks levels, check.Passes document) {found : Value}
      (stands : (Value.table document).at? ["project", "name"] = some found)
      (untyped : ∀ text, found ≠ .string text)
  | flag (passed : ∀ check ∈ checks levels, check.Passes document) {value : Bool}
      (stands : (Value.table document).at? ["solver", "max_iterations"] = some (.boolean value))

/-- A refusal that names no fault slips through. -/
theorem fault_or_slips {failure : ManifestFailure}
    (refuses : Check.Refuses document (checks levels) failure) :
    (∃ fault, failure = .fault fault) ∨ Slips levels document := by
  have tells : (∃ fault, failure = .fault fault) ∨ failure = .notTable ∨ failure = .tooDeep ∨
      failure = .numeral := by
    obtain ⟨check, among, found, told⟩ := refuses.told
    have setting (fault : Value → ManifestFault) (told : failure = refusal levels fault found) :
        (∃ fault, failure = .fault fault) ∨ failure = .notTable ∨ failure = .tooDeep ∨
          failure = .numeral := by
      rw [told]
      exact (refusal_cases levels fault found).imp (fun isFault => ⟨_, isFault⟩) .inr
    simp only [checks, List.mem_cons, List.not_mem_nil, or_false] at among
    rcases among with rfl | rfl | rfl | rfl | rfl | rfl | rfl | rfl
    case inr.inr.inr.inr.inr.inr.inr =>
      obtain ⟨_, array, _, _, _, _, told⟩ := told
      exact .inl ⟨.fieldOrder array, told⟩
    all_goals first
      | exact .inr (.inl told)
      | exact setting _ told
  rcases tells with isFault | rfl | rfl | rfl
  · exact .inl isFault
  · exact .inr (.noTable refuses)
  · exact .inr (.tooDeep refuses)
  · exact .inr (.numeral refuses)

/-- Where nothing slips through, the settings of a document are of their types. -/
theorem ReadFrom.typed_or_slips (reads : manifest.ReadFrom document)
    (passed : ∀ check ∈ checks levels, check.Passes document) :
    manifest.Typed ∨ Slips levels document := by
  by_cases named : ∃ text, manifest.name = .string text
  · cases limited : manifest.limit with
    | count n => exact .inl ⟨named, n, limited⟩
    | flag value =>
        have stands := reads.limit
        rw [limited] at stands
        cases given : (Value.table document).at? ["solver", "max_iterations"] with
        | none => exact nomatch given ▸ stands
        | some found =>
            rw [given] at stands
            cases stands
            exact .inr (.flag passed given)
  · have stands := reads.name
    cases given : (Value.table document).at? ["project", "name"] with
    | none => exact absurd ⟨"puzzles", (given ▸ stands).symm⟩ named
    | some found =>
        rw [given] at stands
        cases stands
        exact .inr (.name passed given fun text isText => named ⟨text, isText⟩)

theorem checksAll_iff (levels : Nat) (document : Table Value) :
    ChecksAll (ofDocument levels document) ↔ ¬ Slips levels document := by
  have decides := ofDocument_decides levels document
  constructor
  · rintro (⟨fault, told⟩ | ⟨manifest, done, typed⟩) slips
    · have refuses := (decides.error_iff _).mp told
      cases slips with
      | noTable other => cases told.symm.trans ((decides.error_iff _).mpr other)
      | tooDeep other => cases told.symm.trans ((decides.error_iff _).mpr other)
      | numeral other => cases told.symm.trans ((decides.error_iff _).mpr other)
      | name passed => exact refuses.not_passed passed
      | flag passed => exact refuses.not_passed passed
    · obtain ⟨passed, reads⟩ := (decides.ok_iff _).mp done
      cases slips with
      | noTable refuses => exact refuses.not_passed passed
      | tooDeep refuses => exact refuses.not_passed passed
      | numeral refuses => exact refuses.not_passed passed
      | name _ stands untyped =>
          obtain ⟨text, isText⟩ := typed.name
          have same := reads.name
          rw [stands, isText] at same
          exact untyped text same
      | flag _ stands =>
          obtain ⟨n, isCount⟩ := typed.limit
          have same := reads.limit
          rw [stands, isCount] at same
          cases same
  · intro holds
    cases made : ofDocument levels document with
    | error failure =>
        exact ((fault_or_slips ((decides.error_iff _).mp made)).resolve_right holds).imp
          (fun _ => congrArg _) |> .inl
    | ok manifest =>
        obtain ⟨passed, reads⟩ := (decides.ok_iff _).mp made
        exact .inr ⟨manifest, rfl, (reads.typed_or_slips passed).resolve_right holds⟩

/-- The settings in a file that holds a document are those of the document. -/
theorem load_of_read {disk : Disk} {path : Path} {text : String}
    (isText : disk.text path = .ok text) (isDocument : read text = .ok document) :
    load disk path = ofDocument disk.reach.values document := by
  have holds : disk.holds path = .ok true := by
    rw [Disk.text, Disk.bytes] at isText
    rw [Disk.holds]
    cases found : disk.node path with
    | error fault => simp [found] at isText
    | ok node => rfl
  rw [load, holds]
  simp only [isText, ofText, isDocument]

/-- The settings in the file of a document follow from its checks, whatever values stand in it and
however deep values can be quoted.  A fault is told or all settings are of their types, unless
something slips through the checks. -/
theorem load_checks_document (levels : Nat) (document : Table Value) :
    (∀ manifest, ofDocument levels document = .ok manifest ↔
        (∀ check ∈ checks levels, check.Passes document) ∧ manifest.ReadFrom document) ∧
      (∀ failure, ofDocument levels document = .error failure ↔
        Check.Refuses document (checks levels) failure) ∧
      (∀ fault found, refusal levels fault found = .fault (fault found) ↔
        found.Quotable levels) ∧
      (ChecksAll (ofDocument levels document) ↔ ¬ Slips levels document) ∧
      ∀ disk path text, Disk.text disk path = .ok text → read text = .ok document →
        load disk path = ofDocument disk.reach.values document :=
  ⟨(ofDocument_decides levels document).ok_iff, (ofDocument_decides levels document).error_iff,
    fun _ _ => refusal_eq_fault_iff, checksAll_iff levels document, fun _ _ _ => load_of_read⟩

def flagText : String :=
  "[solver]\nmax_iterations = true\n"

def flagDocument : Table Value :=
  [("solver", .table [("max_iterations", .boolean true)])]

def flagDisk : Disk where
  workingDirectory := Path.ofString "/work"
  top := .directory [("work", .directory [(fileName, .file flagText.toUTF8)])]

def flagSettings : Manifest :=
  { default with limit := .flag true }

theorem load_checks_document_flagDocument :
    flagDisk.text (Path.ofString fileName) = .ok flagText ∧ read flagText = .ok flagDocument ∧
      load flagDisk (Path.ofString fileName) = .ok flagSettings ∧
      ¬ ChecksAll (load flagDisk (Path.ofString fileName)) := by
  obtain ⟨-, -, -, checksAll, loaded⟩ :=
    load_checks_document flagDisk.reach.values flagDocument
  have isText : flagDisk.text (Path.ofString fileName) = .ok flagText := by decide +kernel
  have isDocument : read flagText = .ok flagDocument := by rfl
  have made : ofDocument flagDisk.reach.values flagDocument = .ok flagSettings := rfl
  rw [loaded _ _ _ isText isDocument, made]
  refine ⟨isText, isDocument, rfl, fun all => ?_⟩
  exact (checksAll.mp (made ▸ all)) (.flag ((ofDocument_decides _ _).ok_iff _ |>.mp made).1 rfl)

end Manifest

end LogicPuzzle
