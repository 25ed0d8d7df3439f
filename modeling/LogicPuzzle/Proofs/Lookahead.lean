import LogicPuzzle.Proofs.PhraseReading

/-!
# How far readings look

A reading of a phrase looks at the tokens that it consumes and at the one behind
them.  Whatever comes later makes no difference, neither to a value nor to a
fault, and a fault concerns the token at which the reading stands.
-/

namespace LogicPuzzle

namespace Reading

variable {α β ω : Type}

def left : EStateM.Result Misreading (List Token) α → List Token
  | .ok _ rest => rest
  | .error _ rest => rest

def leaving (other : List Token) :
    EStateM.Result Misreading (List Token) α → EStateM.Result Misreading (List Token) α
  | .ok value _ => .ok value other
  | .error misreading _ => .error misreading other

/-- A fault concerns the first of the tokens left over. -/
def FaultsAhead (result : EStateM.Result Misreading (List Token) α) : Prop :=
  ∀ cause token rest, result = .error (.fault cause token) rest → token = rest.head?

/-- A reading that looks no further than at the first token it leaves over. -/
structure LooksAhead (reading : Reading α) : Prop where
  sees : ∀ tokens, ∃ used, tokens = used ++ left (reading tokens) ∧
    ∀ other, other.head? = (left (reading tokens)).head? →
      reading (used ++ other) = leaving other (reading tokens)
  faults : ∀ tokens, FaultsAhead (reading tokens)

/-! ## Elementary readings -/

theorem looksAhead_pure (value : α) : LooksAhead (pure value) where
  sees _ := ⟨[], rfl, fun _ _ => rfl⟩
  faults _ _ _ _ := nofun

theorem looksAhead_fail (cause : Fault) : LooksAhead (fail cause : Reading α) where
  sees tokens := by
    refine ⟨[], rfl, fun other same => ?_⟩
    have fault : other.head? = tokens.head? := same
    rw [List.nil_append, fail, fault]
    rfl
  faults tokens _ _ _ failed := by
    cases failed
    rfl

theorem looksAhead_numeral (text : String) :
    LooksAhead (throw (.numeral text) : Reading α) where
  sees _ := ⟨[], rfl, fun _ _ => rfl⟩
  faults _ _ _ _ := nofun

theorem startsWith_congr {kind : Kind} {tokens other : List Token}
    (same : other.head? = tokens.head?) : startsWith kind other = startsWith kind tokens := by
  rw [startsWith, startsWith, same]

theorem looksAhead_expect (kind : Kind) : LooksAhead (expect kind) where
  sees tokens := by
    cases tokens with
    | nil =>
        refine ⟨[], rfl, fun other same => ?_⟩
        obtain rfl : other = [] := List.head?_eq_none_iff.mp same
        rfl
    | cons token rest =>
        by_cases found : token.kind = kind
        · refine ⟨[token], ?_, fun other _ => ?_⟩
          · rw [expect, if_pos found]
            rfl
          · simp only [List.cons_append, List.nil_append, expect, if_pos found, leaving]
        · refine ⟨[], ?_, fun other same => ?_⟩
          · rw [expect, if_neg found]
            rfl
          · rw [expect, if_neg found] at same
            obtain ⟨others, rfl⟩ := List.head?_eq_some_iff.mp same
            simp only [List.nil_append, expect, if_neg found, leaving]
  faults tokens cause blamed rest failed := by
    cases tokens with
    | nil =>
        cases failed
        rfl
    | cons token rest =>
        rw [expect] at failed
        split at failed
        · cases failed
        · cases failed
          rfl

theorem looksAhead_accept (kind : Kind) : LooksAhead (accept kind) where
  sees tokens := by
    cases found : startsWith kind tokens with
    | true =>
        obtain ⟨token, rest, rfl, named⟩ := startsWith_iff.mp found
        refine ⟨[token], ?_, fun other _ => ?_⟩
        · rw [accept, if_pos found]
          rfl
        · have starts : startsWith kind ([token] ++ other) = true :=
            startsWith_iff.mpr ⟨token, other, rfl, named⟩
          rw [accept, accept, if_pos found, if_pos starts]
          rfl
    | false =>
        have refused : accept kind tokens = .ok false tokens := by
          rw [accept, found]
          rfl
        refine ⟨[], ?_, fun other same => ?_⟩
        · rw [refused]
          rfl
        · rw [refused] at same
          have starts : startsWith kind other = false := (startsWith_congr same).trans found
          rw [refused, List.nil_append, accept, starts]
          rfl
  faults tokens cause token rest failed := by
    rw [accept] at failed
    split at failed <;> cases failed

theorem looksAhead_skipNewlines : LooksAhead skipNewlines where
  sees tokens := by
    obtain ⟨gap, blank, split⟩ := exists_gap tokens
    refine ⟨gap, split, fun other same => ?_⟩
    have starts : startsWith .newline other = false :=
      (startsWith_congr same).trans startsWith_afterNewlines
    rw [skipNewlines, afterNewlines_gap blank, afterNewlines_eq_self starts]
    rfl
  faults _ _ _ _ := nofun

/-! ## Readings that are joined -/

theorem head?_append_congr (used : List Token) {rest other : List Token}
    (same : other.head? = rest.head?) : (used ++ other).head? = (used ++ rest).head? := by
  rw [List.head?_append, List.head?_append, same]

theorem looksAhead_bind {first : Reading α} {next : α → Reading β} (looks : LooksAhead first)
    (looksNext : ∀ value, LooksAhead (next value)) : LooksAhead (first >>= next) where
  sees tokens := by
    change ∃ used, tokens = used ++ left (EStateM.bind first next tokens) ∧ ∀ other : List Token,
      other.head? = (left (EStateM.bind first next tokens)).head? →
        EStateM.bind first next (used ++ other) = leaving other (EStateM.bind first next tokens)
    obtain ⟨used, split, stays⟩ := looks.sees tokens
    simp only [EStateM.bind]
    cases read : first tokens with
    | error misreading between =>
        rw [read] at split stays
        refine ⟨used, split, fun other same => ?_⟩
        rw [stays other same]
        rfl
    | ok value between =>
        rw [read] at split stays
        obtain ⟨usedNext, splitNext, staysNext⟩ := (looksNext value).sees between
        refine ⟨used ++ usedNext, ?_, fun other same => ?_⟩
        · rw [List.append_assoc, ← splitNext]
          exact split
        · -- The second reading starts at the same token, whether or not it consumes one.
          have ahead : (usedNext ++ other).head? = between.head? := by
            rw [splitNext]
            exact head?_append_congr usedNext same
          rw [List.append_assoc, stays _ ahead]
          exact staysNext other same
  faults tokens cause token rest failed := by
    obtain here | ⟨value, between, _, later⟩ := bind_error_iff.mp failed
    · exact looks.faults tokens cause token rest here
    · exact (looksNext value).faults between cause token rest later

theorem looksAhead_choice {first second : Reading α} {choice : Bool} (looks : LooksAhead first)
    (looksSecond : LooksAhead second) : LooksAhead (if choice then first else second) := by
  cases choice with
  | true => exact looks
  | false => exact looksSecond

theorem leads_lookahead {round : Reading (Round α ω)} (looks : LooksAhead round)
    {tokens between : List Token} {items : List α} (leads : Leads round tokens items between) :
    ∃ used, tokens = used ++ between ∧
      ∀ other, other.head? = between.head? → Leads round (used ++ other) items other := by
  induction leads with
  | here => exact ⟨[], rfl, fun _ _ => .here⟩
  | @again tokens middle _ _ _ more _ ih =>
      obtain ⟨used, split, stays⟩ := looks.sees tokens
      obtain ⟨usedNext, rfl, staysNext⟩ := ih
      rw [more] at split stays
      refine ⟨used ++ usedNext, ?_, fun other same => ?_⟩
      · rw [List.append_assoc]
        exact split
      · rw [List.append_assoc]
        exact .again (stays _ (head?_append_congr usedNext same)) (staysNext other same)

/-- The last round of a repetition gives the same after the same rounds. -/
theorem last_lookahead {round : Reading (Round α ω)} (looks : LooksAhead round)
    {tokens between : List Token} {items : List α} (leads : Leads round tokens items between) :
    ∃ used, tokens = used ++ left (round between) ∧
      ∀ other, other.head? = (left (round between)).head? →
        ∃ start, Leads round (used ++ other) items start ∧
          round start = leaving other (round between) := by
  obtain ⟨used, rfl, stays⟩ := leads_lookahead looks leads
  obtain ⟨usedLast, split, staysLast⟩ := looks.sees between
  refine ⟨used ++ usedLast, ?_, fun other same => ?_⟩
  · rw [List.append_assoc, ← split]
  · have ahead : (usedLast ++ other).head? = between.head? := by
      rw [split]
      exact head?_append_congr usedLast same
    rw [List.append_assoc]
    exact ⟨_, stays _ ahead, staysLast other same⟩

/-- Rounds that look no further make a repetition that looks no further. -/
theorem looksAhead_collect {round : Reading (Round α ω)} (looks : LooksAhead round)
    (progressive : Progressive round) : LooksAhead (collect round) where
  sees tokens := by
    cases collected : collect round tokens with
    | ok result rest =>
        obtain ⟨between, leads, ended⟩ :=
          repeats_iff_leads.mp ((collect_ok_iff progressive).mp collected)
        obtain ⟨used, split, stays⟩ := last_lookahead looks leads
        rw [ended] at split stays
        refine ⟨used, split, fun other same => ?_⟩
        exact (collect_ok_iff progressive).mpr (repeats_iff_leads.mpr (stays other same))
    | error misreading rest =>
        obtain ⟨items, between, leads, failed⟩ := (collect_error_iff progressive).mp collected
        obtain ⟨used, split, stays⟩ := last_lookahead looks leads
        rw [failed] at split stays
        refine ⟨used, split, fun other same => ?_⟩
        exact (collect_error_iff progressive).mpr ⟨items, stays other same⟩
  faults tokens cause token rest failed := by
    obtain ⟨_, between, _, last⟩ := (collect_error_iff progressive).mp failed
    exact looks.faults between cause token rest last

/-! ## Phrases -/

theorem looksAhead_number : LooksAhead number := by
  refine looksAhead_bind (looksAhead_expect .number) fun token => ?_
  cases Numeral.read? token.text.toList with
  | some n => exact looksAhead_pure n
  | none => exact looksAhead_numeral token.text

theorem looksAhead_selectorRound : LooksAhead selectorRound := by
  refine looksAhead_bind (looksAhead_accept .openBracket) fun opens => looksAhead_choice ?_ ?_
  · refine looksAhead_bind looksAhead_number fun n => ?_
    exact looksAhead_bind (looksAhead_expect .closeBracket) fun _ => looksAhead_pure _
  · refine looksAhead_bind (looksAhead_accept .dot) fun selects => looksAhead_choice ?_ ?_
    · exact looksAhead_bind (looksAhead_expect .identifier) fun _ => looksAhead_pure _
    · exact looksAhead_pure _

theorem looksAhead_reference : LooksAhead reference := by
  refine looksAhead_bind (looksAhead_expect .identifier) fun name => ?_
  exact looksAhead_bind (looksAhead_collect looksAhead_selectorRound selectorRound_progressive)
    fun _ => looksAhead_pure _

theorem looksAhead_comparisonOperator : LooksAhead comparisonOperator := by
  refine looksAhead_bind (looksAhead_accept .equals) fun equal => looksAhead_choice ?_ ?_
  · exact looksAhead_pure false
  · refine looksAhead_bind (looksAhead_accept .differs) fun different => looksAhead_choice ?_ ?_
    · exact looksAhead_pure true
    · exact looksAhead_fail .missingComparison

theorem looksAhead_comparison : LooksAhead comparison := by
  refine looksAhead_bind looksAhead_reference fun left => ?_
  refine looksAhead_bind looksAhead_comparisonOperator fun negated => ?_
  exact looksAhead_bind looksAhead_reference fun right => looksAhead_pure _

theorem looksAhead_endLine : LooksAhead endLine :=
  looksAhead_bind (looksAhead_expect .newline) fun _ => looksAhead_skipNewlines

/-- Nothing behind the token at which the head of a rule is read or refused makes a difference. -/
theorem looksAhead_ruleHead : LooksAhead ruleHead := by
  refine looksAhead_bind looksAhead_comparison fun guard => ?_
  refine looksAhead_bind (looksAhead_accept .yields) fun yields => looksAhead_choice ?_ ?_
  · exact looksAhead_pure _
  · exact looksAhead_bind looksAhead_endLine fun _ => looksAhead_pure _

end Reading

end LogicPuzzle
