import LogicPuzzle.Proofs.PuzzleReading

/-!
# Relocated tokens

A reading sees the kinds and the texts of tokens, but neither their places nor
how many ends of lines follow each other.  So when tokens get other places, and
of several ends of lines in a row only the first one is kept, every reading
gives the same, with the other places in it.
-/

namespace LogicPuzzle

/-! ## Other places -/

def Reference.moved (move : Position → Position) (reference : Reference) : Reference :=
  { reference with position := move reference.position }

def Comparison.moved (move : Position → Position) (comparison : Comparison) : Comparison where
  left := comparison.left.moved move
  negated := comparison.negated
  right := comparison.right.moved move

def Rule.moved (move : Position → Position) (rule : Rule) : Rule where
  guard := rule.guard.moved move
  consequents := rule.consequents.map (Comparison.moved move)

def Declaration.moved (move : Position → Position) (declaration : Declaration) : Declaration :=
  { declaration with position := move declaration.position }

def Statement.moved (move : Position → Position) : Statement → Statement
  | .definition found => .definition found
  | .declaration found => .declaration (found.moved move)
  | .rule found => .rule (found.moved move)

/-- Other places for tokens.  The places of names and of declarations are moved
alike, whatever the token. -/
structure Relocation where
  token : Token → Token
  position : Position → Position
  kind_token : ∀ found, (token found).kind = found.kind
  text_token : ∀ found, (token found).text = found.text
  position_token : ∀ found, found.kind = .identifier ∨ found.kind = .var →
    (token found).position = position found.position

def Position.columnless (position : Position) : Position :=
  { position with column := 0 }

def Token.columnless (token : Token) : Token :=
  { token with position := token.position.columnless }

namespace Reading

def singleEnds : List Token → List Token
  | [] => []
  | token :: rest =>
      token :: if token.kind = .newline then afterNewlines (singleEnds rest) else singleEnds rest

theorem length_singleEnds_le (tokens : List Token) :
    (singleEnds tokens).length ≤ tokens.length := by
  induction tokens with
  | nil => exact Nat.le_refl 0
  | cons token rest ih =>
      have fewer : (afterNewlines (singleEnds rest)).length ≤ (singleEnds rest).length :=
        (List.dropWhile_sublist _).length_le
      rw [singleEnds]
      split
      · exact Nat.succ_le_succ (fewer.trans ih)
      · exact Nat.succ_le_succ ih

theorem afterNewlines_cons_newline {token : Token} (ends : token.kind = .newline)
    (rest : List Token) : afterNewlines (token :: rest) = afterNewlines rest := by
  rw [afterNewlines, List.dropWhile_cons_of_pos (by simp [ends])]
  rfl

theorem afterNewlines_cons_other {token : Token} (other : token.kind ≠ .newline)
    (rest : List Token) : afterNewlines (token :: rest) = token :: rest :=
  afterNewlines_eq_self (startsWith_cons other)

theorem afterNewlines_singleEnds (tokens : List Token) :
    afterNewlines (singleEnds tokens) = singleEnds (afterNewlines tokens) := by
  induction tokens with
  | nil => rfl
  | cons token rest ih =>
      rcases eq_or_ne token.kind .newline with ends | other
      · rw [singleEnds, if_pos ends, afterNewlines_cons_newline ends,
          afterNewlines_cons_newline ends, afterNewlines_idem, ih]
      · rw [singleEnds, if_neg other, afterNewlines_cons_other other,
          afterNewlines_cons_other other, singleEnds, if_neg other]

/-- One more end of a line behind another one makes no difference. -/
theorem singleEnds_again {front back : List Token} {last extra : Token}
    (ends : last.kind = .newline) (again : extra.kind = .newline) :
    singleEnds (front ++ last :: extra :: back) = singleEnds (front ++ last :: back) := by
  induction front with
  | nil =>
      simp only [List.nil_append, singleEnds, if_pos ends, if_pos again,
        afterNewlines_cons_newline again, afterNewlines_idem]
  | cons token front ih =>
      simp only [List.cons_append, singleEnds, ih]

end Reading

def Round.map {α β ω ξ : Type} (f : α → β) (g : ω → ξ) : Round α ω → Round β ξ
  | .again item => .again (f item)
  | .done last => .done (g last)

/-! ## Relocated readings -/

namespace Relocation

open Reading

def identity : Relocation where
  token := id
  position := id
  kind_token _ := rfl
  text_token _ := rfl
  position_token _ _ := rfl

def columnless : Relocation where
  token := Token.columnless
  position := Position.columnless
  kind_token _ := rfl
  text_token _ := rfl
  position_token _ _ := rfl

variable {α β γ δ ω ξ : Type} (relocation : Relocation)

def tokens (found : List Token) : List Token :=
  singleEnds (found.map relocation.token)

def misreading : Misreading → Misreading
  | .fault cause token => .fault cause (token.map relocation.token)
  | .numeral text => .numeral text

def stop (found : Stop) : Stop :=
  (found.1, found.2.map relocation.token)

def result (f : α → β) :
    EStateM.Result Misreading (List Token) α → EStateM.Result Misreading (List Token) β
  | .ok value rest => .ok (f value) (relocation.tokens rest)
  | .error misreading rest => .error (relocation.misreading misreading) (relocation.tokens rest)

/-- The second reading gives at other places what the first one gives. -/
def Carries (f : α → β) (first : Reading α) (second : Reading β) : Prop :=
  ∀ found, second (relocation.tokens found) = relocation.result f (first found)

variable {relocation}

theorem tokens_cons {token : Token} (other : token.kind ≠ .newline) (rest : List Token) :
    relocation.tokens (token :: rest) = relocation.token token :: relocation.tokens rest := by
  rw [tokens, List.map_cons, singleEnds, if_neg (by rwa [relocation.kind_token])]
  rfl

theorem head?_tokens (found : List Token) :
    (relocation.tokens found).head? = found.head?.map relocation.token := by
  cases found <;> rfl

theorem afterNewlines_tokens (found : List Token) :
    afterNewlines (relocation.tokens found) = relocation.tokens (afterNewlines found) := by
  have kinds : (fun token : Token => token.kind == .newline) ∘ relocation.token =
      fun token => token.kind == .newline := by
    funext token
    rw [Function.comp_apply, relocation.kind_token]
  rw [tokens, tokens, afterNewlines_singleEnds]
  rw [afterNewlines, afterNewlines, List.dropWhile_map, kinds]

theorem length_tokens_le (found : List Token) :
    (relocation.tokens found).length ≤ found.length :=
  (length_singleEnds_le _).trans (Nat.le_of_eq (List.length_map _))

theorem startsWith_tokens (kind : Kind) (found : List Token) :
    startsWith kind (relocation.tokens found) = startsWith kind found := by
  rw [startsWith, startsWith, head?_tokens, Option.any_map]
  simp only [relocation.kind_token]

theorem isEmpty_tokens (found : List Token) :
    (relocation.tokens found).isEmpty = found.isEmpty := by
  cases found <;> rfl

theorem startsDefinition_tokens (found : List Token) :
    startsDefinition (relocation.tokens found) = startsDefinition found := by
  cases found with
  | nil => rfl
  | cons first rest =>
      rcases eq_or_ne first.kind .newline with ends | other
      · have none (others : List Token) : startsDefinition (first :: others) = false := by
          cases others <;> simp [startsDefinition, ends]
        have moved (others : List Token) :
            startsDefinition (relocation.token first :: others) = false := by
          cases others <;> simp [startsDefinition, relocation.kind_token, ends]
        rw [none, tokens, List.map_cons, singleEnds, moved]
      · rw [tokens_cons other]
        have head : (relocation.tokens rest).head? = _ := head?_tokens rest
        cases rest with
        | nil => rfl
        | cons second others =>
            cases moved : relocation.tokens (second :: others) with
            | nil =>
                rw [moved] at head
                cases head
            | cons movedSecond movedOthers =>
                rw [moved] at head
                cases head
                simp only [startsDefinition, relocation.kind_token]

/-! ### Elementary readings -/

theorem carries_pure {f : α → β} {value : α} {image : β} (same : f value = image) :
    relocation.Carries f (pure value) (pure image) := by
  intro found
  rw [← same]
  rfl

theorem carries_bind {f : α → β} {g : γ → δ} {first : Reading α} {second : Reading β}
    {next : α → Reading γ} {image : β → Reading δ} (carries : relocation.Carries f first second)
    (others : ∀ value, relocation.Carries g (next value) (image (f value))) :
    relocation.Carries g (first >>= next) (second >>= image) := by
  intro found
  change EStateM.bind second image _ = relocation.result g (EStateM.bind first next found)
  rw [EStateM.bind, EStateM.bind, carries found]
  cases first found with
  | ok value rest => exact others value rest
  | error misreading rest => rfl

theorem carries_fail {f : α → β} (cause : Fault) :
    relocation.Carries f (fail cause) (fail cause) := by
  intro found
  rw [fail, fail, head?_tokens]
  rfl

theorem carries_failAt {f : α → β} (token : Token) (cause : Fault) :
    relocation.Carries f (failAt token cause) (failAt (relocation.token token) cause) := by
  intro found
  rfl

/-- The next token is expected, and what follows may use its kind. -/
theorem carries_expect_bind {g : γ → δ} {kind : Kind} (other : kind ≠ .newline)
    {next : Token → Reading γ} {image : Token → Reading δ}
    (others : ∀ token, token.kind = kind →
      relocation.Carries g (next token) (image (relocation.token token))) :
    relocation.Carries g (expect kind >>= next) (expect kind >>= image) := by
  intro found
  change EStateM.bind (expect kind) image _ =
    relocation.result g (EStateM.bind (expect kind) next found)
  rw [EStateM.bind, EStateM.bind]
  cases found with
  | nil => rfl
  | cons token rest =>
      rcases eq_or_ne token.kind kind with same | differs
      · rw [tokens_cons (same ▸ other)]
        simp only [expect, relocation.kind_token, if_pos same]
        exact others token same rest
      · have head : relocation.tokens (token :: rest) = relocation.token token ::
            (relocation.tokens (token :: rest)).tail := rfl
        rw [head]
        simp only [expect, relocation.kind_token, if_neg differs]
        rfl

theorem carries_expect {kind : Kind} (other : kind ≠ .newline) :
    relocation.Carries relocation.token (expect kind) (expect kind) := by
  have carries : relocation.Carries relocation.token (expect kind >>= pure)
      (expect kind >>= pure) := by
    apply carries_expect_bind other
    intro token _
    exact carries_pure rfl
  rwa [bind_pure] at carries

theorem carries_sees_bind {g : γ → δ} {kind : Kind} {next : Bool → Reading γ}
    {image : Bool → Reading δ}
    (others : ∀ found, relocation.Carries g (next found) (image found)) :
    relocation.Carries g (sees kind >>= next) (sees kind >>= image) := by
  refine carries_bind (f := id) ?_ others
  intro found
  rw [sees, sees, startsWith_tokens]
  rfl

theorem carries_accept_bind {g : γ → δ} {kind : Kind} (other : kind ≠ .newline)
    {next : Bool → Reading γ} {image : Bool → Reading δ}
    (others : ∀ accepted, relocation.Carries g (next accepted) (image accepted)) :
    relocation.Carries g (accept kind >>= next) (accept kind >>= image) := by
  refine carries_bind (f := id) ?_ others
  intro found
  rw [accept, accept, startsWith_tokens]
  split
  · next starts =>
      obtain ⟨token, rest, rfl, same⟩ := startsWith_iff.mp starts
      rw [tokens_cons (same ▸ other)]
      rfl
  · rfl

theorem carries_skipNewlines : relocation.Carries id skipNewlines skipNewlines := by
  intro found
  rw [skipNewlines, skipNewlines, afterNewlines_tokens]
  rfl

/-- After the end of a line it makes no difference how many empty lines follow. -/
theorem carries_endLine : relocation.Carries id endLine endLine := by
  intro found
  change EStateM.bind (expect .newline) _ _ =
    relocation.result id (EStateM.bind (expect .newline) _ found)
  rw [EStateM.bind, EStateM.bind]
  cases found with
  | nil => rfl
  | cons token rest =>
      rw [tokens, List.map_cons, singleEnds]
      rcases eq_or_ne token.kind .newline with ends | other
      · simp only [expect, relocation.kind_token, if_pos ends, skipNewlines, afterNewlines_idem]
        exact congrArg (EStateM.Result.ok ()) (afterNewlines_tokens rest)
      · simp only [expect, relocation.kind_token, if_neg other]
        rw [← tokens, ← tokens_cons other]
        rfl

/-! ### Repetitions -/

theorem carries_collectWithin {f : α → β} {g : ω → ξ} {round : Reading (Round α ω)}
    {other : Reading (Round β ξ)} (carries : relocation.Carries (Round.map f g) round other)
    (bound : List Token) :
    relocation.Carries (Prod.map (List.map f) g) (collectWithin round bound)
      (collectWithin other bound) := by
  induction bound with
  | nil =>
      intro found
      simp only [collectWithin, carries found]
      cases round found with
      | error misreading rest => rfl
      | ok result rest =>
          cases result with
          | done last => rfl
          | again item => exact carries_fail Fault.endOfInput rest
  | cons token bound ih =>
      intro found
      simp only [collectWithin, carries found]
      cases round found with
      | error misreading rest => rfl
      | ok result rest =>
          cases result with
          | done last => rfl
          | again item =>
              simp only [Relocation.result, Round.map, ih rest]
              cases collectWithin round bound rest <;> rfl

theorem carries_collect {f : α → β} {g : ω → ξ} {round : Reading (Round α ω)}
    {other : Reading (Round β ξ)} (progressive : Progressive other)
    (carries : relocation.Carries (Round.map f g) round other) :
    relocation.Carries (Prod.map (List.map f) g) (collect round) (collect other) := by
  intro found
  have enough := collectWithin_enough progressive (Nat.le_refl (relocation.tokens found).length)
    (length_tokens_le found)
  exact enough.trans (carries_collectWithin carries found found)

/-! ### Phrases -/

theorem carries_number : relocation.Carries id number number := by
  refine carries_expect_bind (by decide) fun token _ => ?_
  rw [relocation.text_token]
  cases Numeral.read? token.text.toList with
  | none => exact fun found => rfl
  | some n => exact carries_pure rfl

theorem carries_selectorRound :
    relocation.Carries (Round.map id id) selectorRound selectorRound := by
  refine carries_accept_bind (by decide) fun accepted => ?_
  cases accepted with
  | true =>
      refine carries_bind carries_number fun n => ?_
      exact carries_expect_bind (by decide) fun _ _ => carries_pure rfl
  | false =>
      refine carries_accept_bind (by decide) fun accepted => ?_
      cases accepted with
      | true =>
          refine carries_expect_bind (by decide) fun field _ => ?_
          rw [relocation.text_token]
          exact carries_pure rfl
      | false => exact carries_pure rfl

theorem carries_reference :
    relocation.Carries (Reference.moved relocation.position) reference reference := by
  refine carries_expect_bind (by decide) fun name named => ?_
  refine carries_bind (carries_collect selectorRound_progressive carries_selectorRound) ?_
  rintro ⟨selectors, _⟩
  rw [relocation.text_token, relocation.position_token name (.inl named)]
  refine carries_pure ?_
  rw [List.map_id]
  rfl

theorem carries_comparisonOperator :
    relocation.Carries id comparisonOperator comparisonOperator := by
  refine carries_accept_bind (by decide) fun accepted => ?_
  cases accepted with
  | true => exact carries_pure rfl
  | false =>
      refine carries_accept_bind (by decide) fun accepted => ?_
      cases accepted with
      | true => exact carries_pure rfl
      | false => exact carries_fail _

theorem carries_comparison :
    relocation.Carries (Comparison.moved relocation.position) comparison comparison := by
  refine carries_bind carries_reference fun left => ?_
  refine carries_bind carries_comparisonOperator fun negated => ?_
  refine carries_bind carries_reference fun right => ?_
  exact carries_pure rfl

/-! ### Statements -/

section CommaList

variable {f : α → β} {item : Reading α} {other : Reading β}

theorem carries_commaRound (carries : relocation.Carries f item other) :
    relocation.Carries (Round.map f id) (commaRound item) (commaRound other) := by
  refine carries_accept_bind (by decide) fun accepted => ?_
  cases accepted with
  | true => exact carries_bind carries fun value => carries_pure rfl
  | false => exact carries_pure rfl

theorem carries_commaList {spelled : β → List Token → Prop} (reads : Reads other spelled)
    (carries : relocation.Carries f item other) :
    relocation.Carries (List.map f) (commaList item) (commaList other) := by
  have rounds := carries_collect (commaRound_progressive reads) (carries_commaRound carries)
  exact carries_bind carries fun first => carries_bind rounds fun others => carries_pure rfl

end CommaList

theorem carries_entry : relocation.Carries id entry entry := by
  refine carries_accept_bind (by decide) fun unique => ?_
  refine carries_expect_bind (by decide) fun type _ => ?_
  refine carries_expect_bind (by decide) fun name _ => ?_
  rw [relocation.text_token, relocation.text_token]
  exact carries_pure rfl

theorem firstRepeated?_map (seen : List String) (labels : List Token) :
    firstRepeated? seen (labels.map relocation.token) =
      (firstRepeated? seen labels).map relocation.token := by
  induction labels generalizing seen with
  | nil => rfl
  | cons label labels ih =>
      rw [List.map_cons, firstRepeated?, firstRepeated?, relocation.text_token, ih]
      split <;> rfl

theorem carries_domainBody (name : String) :
    relocation.Carries id (domainBody name) (domainBody name) := by
  have labelled : relocation.Carries (List.map relocation.token)
      (commaList (expect .identifier)) (commaList (expect .identifier)) :=
    carries_commaList identifier_reads (carries_expect (by decide))
  refine carries_bind labelled fun labels => ?_
  refine carries_expect_bind (by decide) fun _ _ => ?_
  refine carries_bind carries_endLine fun _ => ?_
  rw [firstRepeated?_map]
  cases firstRepeated? [] labels with
  | some token =>
      simp only [Option.map_some, relocation.text_token]
      exact carries_failAt _ _
  | none =>
      refine carries_pure ?_
      simp only [id_eq, List.map_map, Function.comp_def, relocation.text_token]

theorem carries_schemaBody (name : String) :
    relocation.Carries id (schemaBody name) (schemaBody name) := by
  refine carries_bind (carries_commaList entry_reads carries_entry) fun entries => ?_
  refine carries_expect_bind (by decide) fun _ _ => ?_
  refine carries_bind carries_endLine fun _ => ?_
  rw [List.map_id]
  exact carries_pure rfl

theorem carries_definition : relocation.Carries id definition definition := by
  refine carries_expect_bind (by decide) fun name _ => ?_
  refine carries_expect_bind (by decide) fun _ _ => ?_
  rw [relocation.text_token]
  refine carries_accept_bind (by decide) fun accepted => ?_
  cases accepted with
  | true => exact carries_bind (carries_domainBody _) fun found => carries_pure rfl
  | false =>
      refine carries_accept_bind (by decide) fun accepted => ?_
      cases accepted with
      | true => exact carries_bind (carries_schemaBody _) fun found => carries_pure rfl
      | false => exact carries_fail _

theorem carries_size? : relocation.Carries id size? size? := by
  refine carries_accept_bind (by decide) fun accepted => ?_
  cases accepted with
  | true =>
      refine carries_bind carries_number fun n => ?_
      exact carries_expect_bind (by decide) fun _ _ => carries_pure rfl
  | false => exact carries_pure rfl

theorem carries_declaration :
    relocation.Carries (Declaration.moved relocation.position) declaration declaration := by
  refine carries_expect_bind (by decide) fun keyword declares => ?_
  refine carries_expect_bind (by decide) fun name _ => ?_
  refine carries_expect_bind (by decide) fun _ _ => ?_
  refine carries_expect_bind (by decide) fun type _ => ?_
  refine carries_bind carries_size? fun size => ?_
  refine carries_bind carries_endLine fun _ => ?_
  rw [relocation.text_token, relocation.text_token,
    relocation.position_token keyword (.inr declares)]
  exact carries_pure rfl

/-! ### Rules -/

theorem carries_ruleHead :
    relocation.Carries (Prod.map (Comparison.moved relocation.position) id) ruleHead ruleHead := by
  refine carries_bind carries_comparison fun guard => ?_
  refine carries_accept_bind (by decide) fun accepted => ?_
  cases accepted with
  | true => exact carries_pure rfl
  | false => exact carries_bind carries_endLine fun _ => carries_pure rfl

theorem carries_consequentRound :
    relocation.Carries (Round.map (Comparison.moved relocation.position) id) consequentRound
      consequentRound := by
  refine carries_bind carries_skipNewlines fun _ => ?_
  refine carries_sees_bind fun ended => ?_
  cases ended with
  | true => exact carries_pure rfl
  | false =>
      refine carries_bind carries_comparison fun consequent => ?_
      refine carries_sees_bind fun ended => ?_
      cases ended with
      | true => exact carries_pure rfl
      | false => exact carries_bind carries_endLine fun _ => carries_pure rfl

theorem carries_ruleBlock (guard : Comparison) :
    relocation.Carries (Rule.moved relocation.position) (ruleBlock guard)
      (ruleBlock (guard.moved relocation.position)) := by
  have rounds : relocation.Carries _ (collect consequentRound) (collect consequentRound) :=
    carries_collect consequentRound_progressive carries_consequentRound
  refine carries_bind carries_endLine fun _ => ?_
  refine carries_expect_bind (by decide) fun _ _ => ?_
  refine carries_bind rounds fun ⟨consequents, _⟩ => ?_
  simp only [Prod.map_apply, List.isEmpty_map]
  split
  · exact carries_fail _
  · exact carries_expect_bind (by decide) fun _ _ => carries_pure rfl

theorem carries_ruleRound :
    relocation.Carries (Round.map (Statement.moved relocation.position)
      (Option.map relocation.stop)) ruleRound ruleRound := by
  intro found
  rw [ruleRound, ruleRound, carries_ruleHead found]
  cases ruleHead found with
  | error misreading rest => cases misreading <;> rfl
  | ok result rest =>
      rcases result with ⟨guard, follows⟩
      cases follows with
      | false => rfl
      | true =>
          simp only [Relocation.result, Prod.map_apply, id_eq, carries_ruleBlock guard rest]
          cases ruleBlock guard rest <;> rfl

theorem carries_statementRound :
    relocation.Carries (Round.map (Statement.moved relocation.position)
      (Option.map relocation.stop)) statementRound statementRound := by
  have defined : relocation.Carries (Round.map (Statement.moved relocation.position)
      (Option.map relocation.stop)) (do return .again (.definition (← definition)))
      (do return .again (.definition (← definition))) :=
    carries_bind carries_definition fun found => carries_pure rfl
  have declared : relocation.Carries (Round.map (Statement.moved relocation.position)
      (Option.map relocation.stop)) (do return .again (.declaration (← declaration)))
      (do return .again (.declaration (← declaration))) :=
    carries_bind carries_declaration fun found => carries_pure rfl
  refine carries_bind carries_skipNewlines fun _ => ?_
  intro found
  change (if _ then _ else _ : Reading _) _ =
    relocation.result _ ((if _ then _ else _ : Reading _) _)
  rw [isEmpty_tokens, startsDefinition_tokens, startsWith_tokens]
  split
  · rfl
  · split
    · exact defined found
    · split
      · exact declared found
      · exact carries_ruleRound found

/-- All statements are read alike, at other places. -/
theorem carries_statements :
    relocation.Carries (Prod.map (List.map (Statement.moved relocation.position))
      (Option.map relocation.stop)) statements statements :=
  carries_collect statementRound_progressive carries_statementRound

end Relocation

end LogicPuzzle
