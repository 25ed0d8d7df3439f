import LogicPuzzle.Proofs.PhraseReading

/-!
# Reading statements

A statement is read exactly when its tokens come first, its numbers can be read
and, for a domain, its labels are distinct.  Where it ends with the end of a
line, the empty lines that follow are consumed too.
-/

namespace LogicPuzzle

namespace Reading

open Grammar

variable {α : Type} {tokens rest : List Token}

/-! ## Lists with commas -/

/-- A reading that succeeds when the tokens of an item come first. -/
def Reads (reading : Reading α) (item : α → List Token → Prop) : Prop :=
  ∀ tokens value rest, reading tokens = .ok value rest ↔
    ∃ used, tokens = used ++ rest ∧ item value used

def AfterComma (item : α → List Token → Prop) (value : α) (tokens : List Token) : Prop :=
  ∃ comma used, comma.kind = .comma ∧ item value used ∧ tokens = comma :: used

variable {reading : Reading α} {item : α → List Token → Prop}

theorem commaRound_readsItem (reads : Reads reading item) :
    ReadsItem (commaRound reading) (AfterComma item) := by
  intro tokens value rest
  rw [commaRound, accept_bind_ok_iff]
  simp only [if_true, Bool.false_eq_true, if_false, bind_ok_iff, pure_ok_iff]
  constructor
  · rintro (⟨comma, _, rfl, separates, _, _, done, same, rfl⟩ | ⟨_, impossible, _⟩)
    · cases same
      obtain ⟨used, rfl, spelled⟩ := (reads _ _ _).mp done
      exact ⟨comma :: used, rfl, comma, used, separates, spelled, rfl⟩
    · cases impossible
  · rintro ⟨_, rfl, comma, used, separates, spelled, rfl⟩
    exact .inl ⟨comma, _, rfl, separates, value, rest, (reads _ _ _).mpr ⟨used, rfl, spelled⟩,
      rfl, rfl⟩

theorem commaRound_done_iff {last : Unit} :
    commaRound reading tokens = .ok (.done last) rest ↔
      tokens = rest ∧ startsWith .comma rest = false := by
  rw [commaRound, accept_bind_ok_iff]
  simp only [if_true, Bool.false_eq_true, if_false, bind_ok_iff, pure_ok_iff]
  constructor
  · rintro (⟨_, _, _, _, _, _, _, impossible, _⟩ | ⟨none, _, rfl⟩)
    · cases impossible
    · exact ⟨rfl, none⟩
  · rintro ⟨rfl, none⟩
    exact .inr ⟨none, trivial, rfl⟩

theorem separated_comma_iff {first : α} {more : List α} :
    Separated Comma item (first :: more) tokens ↔
      ∃ used others, item first used ∧ Sequence (AfterComma item) more others ∧
        tokens = used ++ others := by
  induction more generalizing first tokens with
  | nil =>
      constructor
      · intro separated
        cases separated with
        | one only => exact ⟨tokens, [], only, .nil, (List.append_nil _).symm⟩
        | cons _ _ others => cases others
      · rintro ⟨used, _, only, sequence, rfl⟩
        cases sequence
        rw [List.append_nil]
        exact .one only
  | cons second more ih =>
      constructor
      · intro separated
        cases separated with
        | @cons _ _ used _ _ only separates others =>
            rcases separates with ⟨comma, isComma, rfl⟩
            obtain ⟨secondUsed, othersUsed, spelled, sequence, rfl⟩ := ih.mp others
            exact ⟨used, _, only, .cons ⟨comma, secondUsed, isComma, spelled, rfl⟩ sequence, rfl⟩
      · rintro ⟨used, _, only, sequence, rfl⟩
        cases sequence with
        | @cons _ _ _ othersUsed first others =>
            rcases first with ⟨comma, secondUsed, isComma, spelled, rfl⟩
            have separated := ih.mpr ⟨secondUsed, othersUsed, spelled, others, rfl⟩
            change Separated Comma item _ (used ++ ([comma] ++ (secondUsed ++ othersUsed)))
            exact .cons only ⟨comma, isComma, rfl⟩ separated

theorem commaRound_progressive (reads : Reads reading item) : Progressive (commaRound reading) := by
  apply progressive_of_readsItem (commaRound_readsItem reads)
  rintro _ _ ⟨comma, used, _, _, rfl⟩
  exact List.cons_ne_nil _ _

/-- A list is read up to the last of its items. -/
theorem commaList_ok_iff (reads : Reads reading item) {values : List α} :
    commaList reading tokens = .ok values rest ↔
      ∃ used, tokens = used ++ rest ∧ Separated Comma item values used ∧
        startsWith .comma rest = false := by
  simp only [commaList, bind_ok_iff, pure_ok_iff, Prod.exists,
    collect_ok_iff (commaRound_progressive reads),
    repeats_iff_sequence (commaRound_readsItem reads), commaRound_done_iff]
  constructor
  · rintro ⟨first, _, done, more, _, _, ⟨others, _, rfl, sequence, rfl, ends⟩, rfl, rfl⟩
    obtain ⟨used, rfl, spelled⟩ := (reads _ _ _).mp done
    exact ⟨used ++ others, (List.append_assoc _ _ _).symm,
      separated_comma_iff.mpr ⟨used, others, spelled, sequence, rfl⟩, ends⟩
  · rintro ⟨_, rfl, separated, ends⟩
    cases values with
    | nil => cases separated
    | cons first more =>
        obtain ⟨used, others, spelled, sequence, rfl⟩ := separated_comma_iff.mp separated
        exact ⟨first, others ++ rest, (reads _ _ _).mpr ⟨used, List.append_assoc _ _ _, spelled⟩,
          more, (), _, ⟨others, rest, rfl, sequence, rfl, ends⟩, rfl, rfl⟩

theorem identifier_reads : Reads (expect .identifier) Identifier := by
  intro tokens token rest
  rw [expect_ok_iff]
  constructor
  · rintro ⟨rfl, names⟩
    exact ⟨[token], rfl, names, rfl⟩
  · rintro ⟨_, rfl, names, rfl⟩
    exact ⟨rfl, names⟩

theorem entry_reads : Reads entry Entry.SpelledBy := by
  intro tokens result rest
  rw [entry, accept_bind_ok_iff]
  simp only [bind_ok_iff, expect_ok_iff, pure_ok_iff]
  constructor
  · rintro (⟨keyword, _, rfl, marks, type, _, ⟨rfl, types⟩, name, _, ⟨rfl, names⟩, rfl, rfl⟩ |
      ⟨_, type, _, ⟨rfl, types⟩, name, _, ⟨rfl, names⟩, rfl, rfl⟩)
    · exact ⟨[keyword, type, name], rfl, .unique marks types names⟩
    · exact ⟨[type, name], rfl, .plain types names⟩
  · rintro ⟨used, rfl, spelled⟩
    cases spelled with
    | @plain type name types names =>
        exact .inr ⟨startsWith_cons (by simp [types]), type, _, ⟨rfl, types⟩, name, _,
          ⟨rfl, names⟩, rfl, rfl⟩
    | @unique keyword type name marks types names =>
        exact .inl ⟨keyword, _, rfl, marks, type, _, ⟨rfl, types⟩, name, _, ⟨rfl, names⟩, rfl,
          rfl⟩

/-! ## Definitions -/

theorem firstRepeated?_eq_none_iff {seen : List String} {labels : List Token} :
    firstRepeated? seen labels = none ↔
      (labels.map (·.text)).Nodup ∧ ∀ label ∈ labels, label.text ∉ seen := by
  induction labels generalizing seen with
  | nil => simp [firstRepeated?]
  | cons label labels ih =>
      rw [firstRepeated?]
      by_cases known : label.text ∈ seen
      · rw [if_pos known]
        simp [known]
      · rw [if_neg known, ih, List.map_cons, List.nodup_cons, List.forall_mem_cons]
        simp only [List.mem_cons, not_or, List.mem_map, not_exists, not_and]
        constructor
        · rintro ⟨distinct, fresh⟩
          exact ⟨⟨fun other member => (fresh other member).1, distinct⟩, known,
            fun other member => (fresh other member).2⟩
        · rintro ⟨⟨apart, distinct⟩, _, fresh⟩
          exact ⟨distinct, fun other member => ⟨apart other member, fresh other member⟩⟩

theorem domainBody_ok_iff {name : String} {domain : Domain} :
    domainBody name tokens = .ok domain rest ↔
      ∃ labels used closing lines after, tokens = used ++ closing :: (lines ++ after) ∧
        Separated Comma Identifier labels used ∧ closing.kind = .closeBrace ∧ LineEnd lines ∧
          domain = ⟨name, labels.map (·.text)⟩ ∧ domain.labels.Nodup ∧
            rest = afterNewlines after := by
  simp only [domainBody, bind_ok_iff, commaList_ok_iff identifier_reads, expect_ok_iff,
    endLine_ok_iff]
  constructor
  · rintro ⟨labels, _, ⟨used, rfl, lists, _⟩, closing, _, ⟨rfl, closes⟩, _, _,
      ⟨lines, after, ends, rfl, rfl⟩, done⟩
    cases repeated : firstRepeated? [] labels with
    | some token =>
        simp only [repeated] at done
        exact absurd done failAt_ne_ok
    | none =>
        simp only [repeated] at done
        obtain ⟨rfl, rfl⟩ := pure_ok_iff.mp done
        exact ⟨labels, used, closing, lines, after, rfl, lists, closes, ends, rfl,
          (firstRepeated?_eq_none_iff.mp repeated).1, rfl⟩
  · rintro ⟨labels, used, closing, lines, after, rfl, lists, closes, ends, rfl, distinct, rfl⟩
    refine ⟨labels, _, ⟨used, rfl, lists, startsWith_cons (by simp [closes])⟩, closing, _,
      ⟨rfl, closes⟩, (), _, ⟨lines, after, ends, rfl, rfl⟩, ?_⟩
    have fresh := firstRepeated?_eq_none_iff.mpr
      ⟨distinct, fun _ _ => List.not_mem_nil⟩
    simp only [fresh]
    rfl

theorem schemaBody_ok_iff {name : String} {schema : Schema} :
    schemaBody name tokens = .ok schema rest ↔
      ∃ entries used closing lines after, tokens = used ++ closing :: (lines ++ after) ∧
        Separated Comma Entry.SpelledBy entries used ∧ closing.kind = .closeBracket ∧
          LineEnd lines ∧ schema = ⟨name, entries⟩ ∧ rest = afterNewlines after := by
  simp only [schemaBody, bind_ok_iff, commaList_ok_iff entry_reads, expect_ok_iff,
    endLine_ok_iff, pure_ok_iff]
  constructor
  · rintro ⟨entries, _, ⟨used, rfl, lists, _⟩, closing, _, ⟨rfl, closes⟩, _, _,
      ⟨lines, after, ends, rfl, rfl⟩, rfl, rfl⟩
    exact ⟨entries, used, closing, lines, after, rfl, lists, closes, ends, rfl, rfl⟩
  · rintro ⟨entries, used, closing, lines, after, rfl, lists, closes, ends, rfl, rfl⟩
    exact ⟨entries, _, ⟨used, rfl, lists, startsWith_cons (by simp [closes])⟩, closing, _,
      ⟨rfl, closes⟩, (), _, ⟨lines, after, ends, rfl, rfl⟩, rfl, rfl⟩

/-- A definition is read when its tokens come first and its labels are distinct. -/
theorem definition_ok_iff {result : Definition} :
    definition tokens = .ok result rest ↔
      ∃ used after, tokens = used ++ after ∧ (Statement.definition result).SpelledBy used ∧
        (Statement.definition result).LabelsDistinct ∧ rest = afterNewlines after := by
  simp only [definition, expect_bind_ok_iff, accept_bind_ok_iff, if_true, Bool.false_eq_true,
    if_false]
  simp only [bind_ok_iff, pure_ok_iff, domainBody_ok_iff, schemaBody_ok_iff, fail_ne_ok,
    and_false, or_false]
  constructor
  · rintro ⟨name, _, rfl, names, equals, _, rfl, defines,
      ⟨opening, _, rfl, opens, _, _, ⟨labels, used, closing, lines, after, rfl, lists, closes,
        ends, rfl, distinct, rfl⟩, rfl, rfl⟩ |
      ⟨_, opening, _, rfl, opens, _, _, ⟨entries, used, closing, lines, after, rfl, lists, closes,
        ends, rfl, rfl⟩, rfl, rfl⟩⟩
    · refine ⟨name :: equals :: opening :: (used ++ closing :: lines), after, by simp,
        .domain names defines opens lists closes ends, ?_, rfl⟩
      intro domain defined
      cases defined
      exact distinct
    · refine ⟨name :: equals :: opening :: (used ++ closing :: lines), after, by simp,
        .schema names defines opens lists closes ends, ?_, rfl⟩
      intro domain defined
      cases defined
  · rintro ⟨_, after, rfl, spelled, distinct, rfl⟩
    cases spelled with
    | @domain name equals opening closing labels used lines names defines opens lists closes ends =>
        refine ⟨name, _, rfl, names, equals, _, rfl, defines, .inl ⟨opening, _, rfl, opens, _, _,
          ⟨labels, used, closing, lines, after, by simp, lists, closes, ends, rfl, ?_, rfl⟩, rfl,
          rfl⟩⟩
        exact distinct _ rfl
    | @schema name equals opening closing entries used lines names defines opens lists closes
        ends =>
        exact ⟨name, _, rfl, names, equals, _, rfl, defines,
          .inr ⟨startsWith_cons (by simp [opens]), opening, _, rfl, opens, _, _,
            ⟨entries, used, closing, lines, after, by simp, lists, closes, ends, rfl, rfl⟩, rfl,
            rfl⟩⟩

/-! ## Numbers -/

theorem numbersRead_of_gap {gap : List Token} (blank : Gap gap) : NumbersRead gap := by
  intro token member isNumber
  rw [blank token member] at isNumber
  cases isNumber

theorem numbersRead_of_separated {separator : List Token → Prop} {values : List α}
    {used : List Token} (between : ∀ tokens, separator tokens → NumbersRead tokens)
    (items : ∀ value tokens, item value tokens → NumbersRead tokens)
    (separated : Separated separator item values used) : NumbersRead used := by
  induction separated with
  | one only => exact items _ _ only
  | cons first separates _ ih =>
      rw [numbersRead_append, numbersRead_append]
      exact ⟨items _ _ first, between _ separates, ih⟩

theorem numbersRead_of_comma {tokens : List Token} (comma : Comma tokens) :
    NumbersRead tokens := by
  rcases comma with ⟨token, isComma, rfl⟩
  exact (numbersRead_cons_of_ne (by simp [isComma])).mpr numbersRead_nil

theorem numbersRead_of_entry {result : Entry} {used : List Token}
    (spelled : result.SpelledBy used) : NumbersRead used := by
  cases spelled with
  | plain types names =>
      rw [numbersRead_cons_of_ne (by simp [types]), numbersRead_cons_of_ne (by simp [names])]
      exact numbersRead_nil
  | unique marks types names =>
      rw [numbersRead_cons_of_ne (by simp [marks]), numbersRead_cons_of_ne (by simp [types]),
        numbersRead_cons_of_ne (by simp [names])]
      exact numbersRead_nil

/-- A definition has no numbers. -/
theorem numbersRead_of_definition {result : Definition} {used : List Token}
    (spelled : (Statement.definition result).SpelledBy used) : NumbersRead used := by
  cases spelled with
  | domain names defines opens lists closes ends =>
      rw [numbersRead_cons_of_ne (by simp [names]), numbersRead_cons_of_ne (by simp [defines]),
        numbersRead_cons_of_ne (by simp [opens]), numbersRead_append,
        numbersRead_cons_of_ne (by simp [closes])]
      refine ⟨numbersRead_of_separated (fun _ => numbersRead_of_comma) ?_ lists,
        numbersRead_of_gap ends.2⟩
      rintro label _ ⟨names, rfl⟩
      exact (numbersRead_cons_of_ne (by simp [names])).mpr numbersRead_nil
  | schema names defines opens lists closes ends =>
      rw [numbersRead_cons_of_ne (by simp [names]), numbersRead_cons_of_ne (by simp [defines]),
        numbersRead_cons_of_ne (by simp [opens]), numbersRead_append,
        numbersRead_cons_of_ne (by simp [closes])]
      exact ⟨numbersRead_of_separated (fun _ => numbersRead_of_comma)
        (fun _ _ => numbersRead_of_entry) lists, numbersRead_of_gap ends.2⟩

/-! ## Declarations -/

theorem size?_ok_iff {size : Option Int} :
    size? tokens = .ok size rest ↔
      ∃ used, tokens = used ++ rest ∧ Grammar.Size size used ∧ NumbersRead used ∧
        (size = none → startsWith .openBracket rest = false) := by
  rw [size?, accept_bind_ok_iff]
  simp only [if_true, Bool.false_eq_true, if_false, bind_ok_iff, number_ok_iff, expect_ok_iff,
    pure_ok_iff]
  constructor
  · rintro (⟨opening, _, rfl, opens, _, _, ⟨number, rfl, counts, read, rfl⟩, closing, _,
      ⟨rfl, closes⟩, rfl, rfl⟩ | ⟨none, rfl, rfl⟩)
    · refine ⟨[opening, number, closing], rfl, .given opens counts closes, ?_, nofun⟩
      rw [numbersRead_cons_of_ne (by simp [opens]), numbersRead_cons]
      exact ⟨read, (numbersRead_cons_of_ne (by simp [closes])).mpr numbersRead_nil⟩
    · exact ⟨[], rfl, .absent, numbersRead_nil, fun _ => none⟩
  · rintro ⟨used, rfl, sized, read, ends⟩
    cases sized with
    | absent => exact .inr ⟨ends rfl, rfl, rfl⟩
    | @given opening number closing opens counts closes =>
        rw [numbersRead_cons_of_ne (by simp [opens]), numbersRead_cons] at read
        exact .inl ⟨opening, _, rfl, opens, _, _, ⟨number, rfl, counts, read.1, rfl⟩, closing, _,
          ⟨rfl, closes⟩, rfl, rfl⟩

theorem startsWith_lineEnd {kind : Kind} (other : kind ≠ .newline) {lines : List Token}
    (ends : LineEnd lines) : startsWith kind (lines ++ rest) = false := by
  rcases ends with ⟨nonempty, blank⟩
  cases lines with
  | nil => exact absurd rfl nonempty
  | cons newline gap =>
      apply startsWith_cons
      rw [blank newline List.mem_cons_self]
      exact other.symm

/-- A declaration is read when its tokens come first and its size can be read. -/
theorem declaration_ok_iff {result : Declaration} :
    declaration tokens = .ok result rest ↔
      ∃ used after, tokens = used ++ after ∧ (Statement.declaration result).SpelledBy used ∧
        NumbersRead used ∧ rest = afterNewlines after := by
  simp only [declaration, bind_ok_iff, expect_ok_iff, size?_ok_iff, endLine_ok_iff, pure_ok_iff]
  constructor
  · rintro ⟨keyword, _, ⟨rfl, declares⟩, name, _, ⟨rfl, names⟩, colon, _, ⟨rfl, separates⟩, type,
      _, ⟨rfl, types⟩, size, _, ⟨used, rfl, sized, read, _⟩, _, _, ⟨lines, after, ends, rfl, rfl⟩,
      rfl, rfl⟩
    refine ⟨keyword :: name :: colon :: type :: (used ++ lines), after, by simp,
      .array declares names separates types sized ends, ?_, rfl⟩
    rw [numbersRead_cons_of_ne (by simp [declares]), numbersRead_cons_of_ne (by simp [names]),
      numbersRead_cons_of_ne (by simp [separates]), numbersRead_cons_of_ne (by simp [types]),
      numbersRead_append]
    exact ⟨read, numbersRead_of_gap ends.2⟩
  · rintro ⟨_, after, rfl, spelled, read, rfl⟩
    cases spelled with
    | @array keyword name colon type size used lines declares names separates types sized ends =>
        rw [numbersRead_cons_of_ne (by simp [declares]), numbersRead_cons_of_ne (by simp [names]),
          numbersRead_cons_of_ne (by simp [separates]), numbersRead_cons_of_ne (by simp [types]),
          numbersRead_append] at read
        exact ⟨keyword, _, ⟨rfl, declares⟩, name, _, ⟨rfl, names⟩, colon, _, ⟨rfl, separates⟩, type,
          _, ⟨rfl, types⟩, size, _, ⟨used, List.append_assoc _ _ _, sized, read.1,
            fun _ => startsWith_lineEnd (by decide) ends⟩, (), _, ⟨lines, after, ends, rfl, rfl⟩,
          rfl, rfl⟩

end Reading

end LogicPuzzle
