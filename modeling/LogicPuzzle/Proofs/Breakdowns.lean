import LogicPuzzle.Proofs.Lookahead
import LogicPuzzle.Proofs.Numerals
import LogicPuzzle.Proofs.Offside
import LogicPuzzle.Proofs.SolvingFiles
import LogicPuzzle.Proofs.TextPuzzles

/-!
# Where reading breaks down

The text of a puzzle is read or refused at a place of it, unless the reading
comes upon a number whose digits denote none: one of them has no place value, or
there are more of them than a numeral may have.  Nothing else breaks it down,
and a text whose numbers all denote something is reported on by a check.
-/

namespace LogicPuzzle

/-! ## Digits that denote no number -/

namespace Numeral

def blankPoints : List Nat :=
  [9, 10, 11, 12, 13, 32, 0x85, 0xA0, 0x1680, 0x2000, 0x2001, 0x2002, 0x2003, 0x2004, 0x2005,
   0x2006, 0x2007, 0x2008, 0x2009, 0x200A, 0x2028, 0x2029, 0x202F, 0x205F, 0x3000]

theorem mem_blankPoints {c : Char} (blank : isBlank c = true) : c.toNat ∈ blankPoints := by
  simp only [isBlank, Bool.or_eq_true, Bool.and_eq_true, decide_eq_true_eq, beq_iff_eq] at blank
  simp only [blankPoints, List.mem_cons, List.not_mem_nil, or_false]
  omega

theorem isBlank_of_isDigit {c : Char} (digit : Text.isDigit c = true) : isBlank c = false := by
  have none : (blankPoints.all fun n => !Text.isDigit (Char.ofNat n)) = true := by decide
  refine Bool.eq_false_iff.mpr fun blank => ?_
  have other := List.all_eq_true.mp none _ (mem_blankPoints blank)
  rw [Char.ofNat_toNat, digit] at other
  cases other

theorem ne_of_isDigit {c : Char} (digit : Text.isDigit c = true) : c ≠ '-' ∧ c ≠ '+' ∧ c ≠ '_' := by
  refine ⟨?_, ?_, ?_⟩ <;> rintro rfl <;> cases digit

/-- Digits are read one by one. -/
theorem digits?_cons {c d : Char} (other : d ≠ '_') (rest : List Char) :
    digits? (c :: d :: rest) = (Text.decimalValue? c).bind fun value =>
      (digits? (d :: rest)).map (value :: ·) := by
  rw [digits?]
  · cases Text.decimalValue? c <;> cases digits? (d :: rest) <;> rfl
  · intro same
    cases same
  · rintro _ same
    exact absurd (List.cons.inj same).1 other

/-- Digits that have no underscore between them give their place values, unless one of them has
none. -/
theorem digits?_eq_none_iff {text : List Char} (nonempty : text ≠ []) (plain : '_' ∉ text) :
    digits? text = none ↔ ∃ c ∈ text, Text.decimalValue? c = none := by
  induction text with
  | nil => exact absurd rfl nonempty
  | cons c rest ih =>
      cases rest with
      | nil => simp [digits?]
      | cons d rest =>
          have others := (not_or.mp (mt List.mem_cons.mpr plain)).2
          have other : d ≠ '_' := fun same => others (same ▸ List.mem_cons_self)
          rw [digits?_cons other, List.exists_mem_cons_iff, ← ih (List.cons_ne_nil _ _) others]
          cases Text.decimalValue? c <;> simp

theorem length_of_digits? {text : List Char} {values : List Nat} (plain : '_' ∉ text)
    (read : digits? text = some values) : values.length = text.length := by
  induction text generalizing values with
  | nil => cases read
  | cons c rest ih =>
      cases rest with
      | nil =>
          obtain ⟨value, _, rfl⟩ := Option.map_eq_some_iff.mp read
          rfl
      | cons d rest =>
          have others := (not_or.mp (mt List.mem_cons.mpr plain)).2
          have other : d ≠ '_' := fun same => others (same ▸ List.mem_cons_self)
          rw [digits?_cons other] at read
          obtain ⟨value, _, later⟩ := Option.bind_eq_some_iff.mp read
          obtain ⟨values, readLater, rfl⟩ := Option.map_eq_some_iff.mp later
          exact congrArg (· + 1) (ih others readLater)

theorem readNat?_eq_none_iff {text : List Char} (nonempty : text ≠ []) (plain : '_' ∉ text) :
    readNat? text = none ↔
      (∃ c ∈ text, Text.decimalValue? c = none) ∨ digitLimit < text.length := by
  rw [← digits?_eq_none_iff nonempty plain, readNat?]
  cases read : digits? text with
  | none => simp
  | some values =>
      rw [← length_of_digits? plain read]
      simp

/-- A run of digits denotes no number when one of them has no place value, or when there are more
of them than a numeral may have. -/
theorem read?_eq_none_iff {text : List Char} (nonempty : text ≠ [])
    (digits : ∀ c ∈ text, Text.isDigit c = true) :
    read? text = none ↔
      (∃ c ∈ text, Text.decimalValue? c = none) ∨ digitLimit < text.length := by
  have plain : '_' ∉ text := fun member => (ne_of_isDigit (digits _ member)).2.2 rfl
  rw [← readNat?_eq_none_iff nonempty plain, read?,
    trim_eq_self fun c member => isBlank_of_isDigit (digits c member)]
  split
  · exact absurd rfl (ne_of_isDigit (digits '-' List.mem_cons_self)).1
  · exact absurd rfl (ne_of_isDigit (digits '+' List.mem_cons_self)).2.1
  · cases readNat? text <;> simp

end Numeral

/-! ## Readings of tokens -/

def IsUnread (tokens : List Token) (text : String) : Prop :=
  ∃ token ∈ tokens, token.kind = .number ∧ token.text = text ∧
    Numeral.read? token.text.toList = none

theorem IsUnread.mono {tokens others : List Token} {text : String} (unread : IsUnread tokens text)
    (inside : tokens ⊆ others) : IsUnread others text := by
  obtain ⟨token, member, isNumber⟩ := unread
  exact ⟨token, inside member, isNumber⟩

namespace Reading

variable {α β ω : Type} {tokens rest : List Token}

/-- A reading that leaves over some of its tokens, and breaks down at a number among them. -/
structure Draws (reading : Reading α) : Prop where
  leaves : ∀ tokens value rest, reading tokens = .ok value rest → rest ⊆ tokens
  unread : ∀ tokens text rest, reading tokens = .error (.numeral text) rest → IsUnread tokens text

/-! ### Elementary readings -/

theorem draws_pure (value : α) : Draws (pure value) where
  leaves _ _ _ done := by
    cases done
    exact List.Subset.refl _
  unread _ _ _ := nofun

theorem draws_fail (cause : Fault) : Draws (fail cause : Reading α) where
  leaves _ _ _ := nofun
  unread _ _ _ := nofun

theorem draws_failAt (token : Token) (cause : Fault) : Draws (failAt token cause : Reading α) where
  leaves _ _ _ := nofun
  unread _ _ _ := nofun

theorem draws_expect (kind : Kind) : Draws (expect kind) where
  leaves tokens token rest done := by
    obtain ⟨rfl, _⟩ := expect_ok_iff.mp done
    exact List.subset_cons_self _ _
  unread tokens text rest failed := by
    unfold expect at failed
    split at failed
    · cases failed
    · split at failed <;> cases failed

theorem draws_accept (kind : Kind) : Draws (accept kind) where
  leaves tokens accepted rest done := by
    rw [accept] at done
    split at done <;> cases done
    · exact List.drop_subset _ _
    · exact List.Subset.refl _
  unread tokens text rest failed := by
    rw [accept] at failed
    split at failed <;> cases failed

theorem draws_sees (kind : Kind) : Draws (sees kind) where
  leaves _ _ _ done := by
    cases done
    exact List.Subset.refl _
  unread _ _ _ := nofun

theorem draws_get : Draws (get : Reading (List Token)) where
  leaves _ _ _ done := by
    cases done
    exact List.Subset.refl _
  unread _ _ _ := nofun

theorem draws_skipNewlines : Draws skipNewlines where
  leaves _ _ _ done := by
    cases done
    exact List.dropWhile_subset _
  unread _ _ _ := nofun

/-! ### Readings that are joined -/

theorem draws_bind {first : Reading α} {next : α → Reading β} (draws : Draws first)
    (drawsNext : ∀ value, Draws (next value)) : Draws (first >>= next) where
  leaves tokens value rest done := by
    obtain ⟨between, left, read, later⟩ := bind_ok_iff.mp done
    exact List.Subset.trans ((drawsNext between).leaves _ _ _ later) (draws.leaves _ _ _ read)
  unread tokens text rest failed := by
    obtain here | ⟨value, between, read, later⟩ := bind_error_iff.mp failed
    · exact draws.unread _ _ _ here
    · exact ((drawsNext value).unread _ _ _ later).mono (draws.leaves _ _ _ read)

theorem draws_choice {choice : Prop} [Decidable choice] {first second : Reading α}
    (draws : Draws first) (drawsSecond : Draws second) :
    Draws (if choice then first else second) := by
  split
  · exact draws
  · exact drawsSecond

theorem draws_collectWithin {round : Reading (Round α ω)} (draws : Draws round)
    (bound : List Token) : Draws (collectWithin round bound) := by
  induction bound with
  | nil =>
      constructor
      · intro tokens value rest done
        simp only [collectWithin] at done
        split at done
        · cases done
        · next read =>
            cases done
            exact draws.leaves _ _ _ read
        · cases done
      · intro tokens text rest failed
        simp only [collectWithin] at failed
        split at failed
        · next read =>
            cases failed
            exact draws.unread _ _ _ read
        · cases failed
        · cases failed
  | cons token bound ih =>
      constructor
      · intro tokens value rest done
        simp only [collectWithin] at done
        split at done
        · cases done
        · next read =>
            cases done
            exact draws.leaves _ _ _ read
        · next read =>
            split at done
            · cases done
            · next more =>
                cases done
                exact List.Subset.trans (ih.leaves _ _ _ more) (draws.leaves _ _ _ read)
      · intro tokens text rest failed
        simp only [collectWithin] at failed
        split at failed
        · next read =>
            cases failed
            exact draws.unread _ _ _ read
        · cases failed
        · next read =>
            split at failed
            · next more =>
                cases failed
                exact (ih.unread _ _ _ more).mono (draws.leaves _ _ _ read)
            · cases failed

theorem draws_collect {round : Reading (Round α ω)} (draws : Draws round) :
    Draws (collect round) where
  leaves tokens := (draws_collectWithin draws tokens).leaves tokens
  unread tokens := (draws_collectWithin draws tokens).unread tokens

/-! ### Phrases and statements -/

theorem draws_endLine : Draws endLine :=
  draws_bind (draws_expect .newline) fun _ => draws_skipNewlines

/-- A number breaks down where its digits denote none. -/
theorem draws_number : Draws number where
  leaves tokens n rest done := by
    obtain ⟨token, rfl, _⟩ := number_ok_iff.mp done
    exact List.subset_cons_self _ _
  unread tokens text rest failed := by
    rw [number] at failed
    obtain here | ⟨token, between, read, later⟩ := bind_error_iff.mp failed
    · exact (draws_expect .number).unread _ _ _ here
    · obtain ⟨rfl, isNumber⟩ := expect_ok_iff.mp read
      cases denotes : Numeral.read? token.text.toList with
      | some n =>
          simp only [denotes] at later
          cases later
      | none =>
          simp only [denotes] at later
          cases later
          exact ⟨token, List.mem_cons_self, isNumber, rfl, denotes⟩

theorem draws_selectorRound : Draws selectorRound := by
  refine draws_bind (draws_accept .openBracket) fun opens => draws_choice ?_ ?_
  · refine draws_bind draws_number fun n => ?_
    exact draws_bind (draws_expect .closeBracket) fun _ => draws_pure _
  · refine draws_bind (draws_accept .dot) fun selects => draws_choice ?_ ?_
    · exact draws_bind (draws_expect .identifier) fun _ => draws_pure _
    · exact draws_pure _

theorem draws_reference : Draws reference := by
  refine draws_bind (draws_expect .identifier) fun name => ?_
  exact draws_bind (draws_collect draws_selectorRound) fun _ => draws_pure _

theorem draws_comparisonOperator : Draws comparisonOperator := by
  refine draws_bind (draws_accept .equals) fun equal => draws_choice (draws_pure _) ?_
  exact draws_bind (draws_accept .differs) fun different =>
    draws_choice (draws_pure _) (draws_fail _)

theorem draws_comparison : Draws comparison := by
  refine draws_bind draws_reference fun left => ?_
  refine draws_bind draws_comparisonOperator fun negated => ?_
  exact draws_bind draws_reference fun right => draws_pure _

theorem draws_commaList {item : Reading α} (draws : Draws item) : Draws (commaList item) := by
  have round : Draws (commaRound item) :=
    draws_bind (draws_accept .comma) fun more =>
      draws_choice (draws_bind draws fun _ => draws_pure _) (draws_pure _)
  exact draws_bind draws fun first => draws_bind (draws_collect round) fun _ => draws_pure _

theorem draws_entry : Draws entry :=
  draws_bind (draws_accept .unique) fun _ => draws_bind (draws_expect .identifier) fun _ =>
    draws_bind (draws_expect .identifier) fun _ => draws_pure _

theorem draws_domainBody (name : String) : Draws (domainBody name) := by
  refine draws_bind (draws_commaList (draws_expect .identifier)) fun labels => ?_
  refine draws_bind (draws_expect .closeBrace) fun _ => draws_bind draws_endLine fun _ => ?_
  split
  · exact draws_failAt _ _
  · exact draws_pure _

theorem draws_schemaBody (name : String) : Draws (schemaBody name) :=
  draws_bind (draws_commaList draws_entry) fun _ => draws_bind (draws_expect .closeBracket)
    fun _ => draws_bind draws_endLine fun _ => draws_pure _

theorem draws_definition : Draws definition := by
  refine draws_bind (draws_expect .identifier) fun name => ?_
  refine draws_bind (draws_expect .equals) fun _ => ?_
  refine draws_bind (draws_accept .openBrace) fun isDomain => draws_choice ?_ ?_
  · exact draws_bind (draws_domainBody name.text) fun _ => draws_pure _
  · refine draws_bind (draws_accept .openBracket) fun isSchema => draws_choice ?_ (draws_fail _)
    exact draws_bind (draws_schemaBody name.text) fun _ => draws_pure _

theorem draws_size? : Draws size? := by
  refine draws_bind (draws_accept .openBracket) fun sized => draws_choice ?_ (draws_pure _)
  exact draws_bind draws_number fun n => draws_bind (draws_expect .closeBracket) fun _ =>
    draws_pure _

theorem draws_declaration : Draws declaration := by
  refine draws_bind (draws_expect .var) fun keyword => ?_
  refine draws_bind (draws_expect .identifier) fun name => ?_
  refine draws_bind (draws_expect .colon) fun _ => ?_
  refine draws_bind (draws_expect .identifier) fun type => ?_
  exact draws_bind draws_size? fun size => draws_bind draws_endLine fun _ => draws_pure _

theorem draws_ruleHead : Draws ruleHead := by
  refine draws_bind draws_comparison fun guard => ?_
  refine draws_bind (draws_accept .yields) fun yields => draws_choice (draws_pure _) ?_
  exact draws_bind draws_endLine fun _ => draws_pure _

theorem draws_consequentRound : Draws consequentRound := by
  refine draws_bind draws_skipNewlines fun _ => ?_
  refine draws_bind (draws_sees .dedent) fun ends => draws_choice (draws_pure _) ?_
  refine draws_bind draws_comparison fun consequent => ?_
  refine draws_bind (draws_sees .dedent) fun ends => draws_choice (draws_pure _) ?_
  exact draws_bind draws_endLine fun _ => draws_pure _

theorem draws_ruleBlock (guard : Comparison) : Draws (ruleBlock guard) := by
  refine draws_bind draws_endLine fun _ => draws_bind (draws_expect .indent) fun _ => ?_
  refine draws_bind (draws_collect draws_consequentRound) fun found => ?_
  refine draws_choice (draws_fail _) ?_
  exact draws_bind (draws_expect .dedent) fun _ => draws_pure _

theorem draws_ruleRound : Draws ruleRound where
  leaves tokens value rest done := by
    rw [ruleRound] at done
    split at done
    · next refused =>
        cases done
        obtain ⟨used, parts, _⟩ := looksAhead_ruleHead.sees tokens
        rw [refused] at parts
        exact parts ▸ List.subset_append_right _ _
    · cases done
    · next read =>
        cases done
        exact draws_ruleHead.leaves _ _ _ read
    · next read =>
        split at done
        · cases done
        · next block =>
            cases done
            exact List.Subset.trans ((draws_ruleBlock _).leaves _ _ _ block)
              (draws_ruleHead.leaves _ _ _ read)
  unread tokens text rest failed := by
    rw [ruleRound] at failed
    split at failed
    · cases failed
    · next read =>
        cases failed
        exact draws_ruleHead.unread _ _ _ read
    · cases failed
    · next read =>
        split at failed
        · next block =>
            cases failed
            exact ((draws_ruleBlock _).unread _ _ _ block).mono (draws_ruleHead.leaves _ _ _ read)
        · cases failed

theorem draws_statementRound : Draws statementRound := by
  refine draws_bind draws_skipNewlines fun _ => draws_bind draws_get fun tokens => ?_
  refine draws_choice (draws_pure _) (draws_choice ?_ (draws_choice ?_ draws_ruleRound))
  · exact draws_bind draws_definition fun _ => draws_pure _
  · exact draws_bind draws_declaration fun _ => draws_pure _

theorem draws_statements : Draws statements :=
  draws_collect draws_statementRound

end Reading

/-! ## Numbers of a text -/

/-- A number that cannot be read: one of its digits has no place value, or it has more digits than a
numeral may have. -/
def Token.Unreadable (token : Token) : Prop :=
  token.kind = .number ∧ ((∃ c ∈ token.text.toList, Text.decimalValue? c = none) ∨
    Numeral.digitLimit < token.text.toList.length)

/-- A number of a text that denotes none cannot be read for its digits. -/
theorem exists_unreadable {file : Path} {text : String} {tokens : List Token}
    (scanned : tokenize file text = .ok tokens) {number : String}
    (unread : IsUnread tokens number) :
    ∃ token ∈ tokens, token.Unreadable ∧ token.text = number := by
  obtain ⟨token, member, isNumber, same, denotes⟩ := unread
  obtain ⟨nonempty, digits⟩ := (isFound_of_tokenize scanned token member).digits isNumber
  exact ⟨token, member, ⟨isNumber, (Numeral.read?_eq_none_iff nonempty digits).mp denotes⟩, same⟩

theorem site_of_tokenize_error {file : Path} {text : String} {failure : Failure}
    (failed : tokenize file text = .error failure) :
    ∃ cause site, failure = .fault ⟨cause, some site⟩ := by
  rw [Scan.tokenize_eq] at failed
  cases Scan.ofText_measures text with
  | halts c stops =>
      rw [stops] at failed
      cases failed
      exact ⟨_, _, rfl⟩
  | misfits stops first =>
      rw [stops] at failed
      cases failed
      exact ⟨_, _, rfl⟩
  | passes passes fit =>
      rw [passes] at failed
      cases failed

/-- The reading of a text fails at a place of it, or breaks down at a number of the text that
cannot be read. -/
theorem failure_of_readPuzzle {file : Path} {text : String} {failure : Failure}
    (failed : readPuzzle file text = .error failure) :
    (∃ cause site, failure = .fault ⟨cause, some site⟩) ∨
      ∃ tokens, tokenize file text = .ok tokens ∧
        ∃ token ∈ tokens, token.Unreadable ∧ failure = .numeral token.text := by
  cases scanned : tokenize file text with
  | error other =>
      rw [readPuzzle, scanned] at failed
      cases failed
      exact .inl (site_of_tokenize_error scanned)
  | ok tokens =>
      rw [readPuzzle, scanned] at failed
      obtain ⟨misreading, rest, misread, rfl⟩ := Reader.puzzle_error_iff.mp failed
      cases misreading with
      | fault cause token => exact .inl ⟨_, _, rfl⟩
      | numeral number =>
          obtain ⟨token, member, unreadable, rfl⟩ :=
            exists_unreadable scanned (Reading.draws_statements.unread _ _ _ misread)
          exact .inr ⟨tokens, rfl, token, member, unreadable, rfl⟩

/-! ## Checking files -/

namespace Command

/-- A text that gives no puzzle, or a puzzle that makes no model, and what is told about it. -/
inductive Bad (file : Path) (text : String) : String → Prop where
  | unparsed {cause : Fault} {site : Site}
      (fails : readPuzzle file text = .error (.fault ⟨cause, some site⟩)) :
      Bad file text ("Parse error: " ++ (Diagnostic.mk cause (some site)).render)
  | unbuilt {puzzle : Puzzle} {notices : List Notice} {diagnostic : Diagnostic ModelFault}
      (parsed : readPuzzle file text = .ok (puzzle, notices))
      (fails : Model.build puzzle = .error diagnostic) :
      Bad file text ("Error: " ++ diagnostic.render)

inductive Sound (disk : Disk) (path : Path) : String → Prop where
  | intro {text : String} {puzzle : Puzzle} {notices : List Notice} {model : Model}
      (found : disk.text path = .ok text) (parsed : readPuzzle path text = .ok (puzzle, notices))
      (built : Model.build puzzle = .ok model)
      (short : Numeral.tooLong model.searchSpace = false) :
      Sound disk path (summary puzzle model)

/-- A check comes to a file with a text, behind files with sound puzzles. -/
structure ComesTo (disk : Disk) (manifest : String) (names summaries : List String) (file : Path)
    (text : String) : Prop where
  loaded : ∃ directory settings, loadSettings disk manifest = .ok (.ok (directory, settings))
  reaches : ∃ before name after, names = before ++ name :: after ∧ Path.ofString name = file ∧
    List.Forall₂ (fun name => Sound disk (Path.ofString name)) before summaries
  found : disk.text file = .ok text

variable {disk : Disk} {path file : Path} {text message line manifest : String}
  {names summaries : List String}

theorem Sound.checkFile (sound : Sound disk path line) :
    (checkFile disk path).2 = .ok line := by
  cases sound with
  | intro found parsed built short =>
      rw [Command.checkFile, loadModel, loadPuzzle_of_text found, parsed]
      simp only [Except.mapError, built, short]
      rfl

theorem Bad.checkFile (bad : Bad path text message) (found : disk.text path = .ok text) :
    (checkFile disk path).2 = .error (.told message) := by
  cases bad with
  | unparsed fails =>
      rw [Command.checkFile, loadModel, loadPuzzle_of_text found, fails]
      rfl
  | unbuilt parsed fails =>
      rw [Command.checkFile, loadModel, loadPuzzle_of_text found, parsed]
      simp only [Except.mapError, fails]
      rfl

/-- What a check does when its manifest is valid. -/
theorem performCheck_eq {directory : Path} {settings : Manifest} (named : names ≠ [])
    (loaded : loadSettings disk manifest = .ok (.ok (directory, settings))) :
    performCheck disk names manifest =
      match inOrder (Command.checkFile disk) (names.map Path.ofString) with
      | (notices, summaries, some complaint) => complained (asLines summaries) notices complaint
      | (notices, summaries, none) => .ok ⟨0, asLines summaries, "", notices⟩ := by
  obtain ⟨first, others, rfl⟩ := List.exists_cons_of_ne_nil named
  rw [performCheck, loaded]
  simp only [chosenFiles, bind, Except.bind, List.isEmpty_cons, List.map_cons]
  rfl

/-- The complaint about the file ends the check. -/
theorem ComesTo.complained (comes : ComesTo disk manifest names summaries file text)
    {complaint : Complaint} (fails : (Command.checkFile disk file).2 = .error complaint) :
    ∃ notices, performCheck disk names manifest =
      Command.complained (asLines summaries) notices complaint := by
  obtain ⟨⟨directory, settings, loaded⟩, ⟨before, name, after, rfl, rfl, sound⟩, _⟩ := comes
  have done : List.Forall₂ (fun path line => (Command.checkFile disk path).2 = .ok line)
      (before.map Path.ofString) summaries :=
    List.forall₂_map_left_iff.mpr (sound.imp fun _ _ file => file.checkFile)
  obtain ⟨notices, stops⟩ := inOrder_complaint done fails
  refine ⟨notices, ?_⟩
  rw [performCheck_eq (List.append_ne_nil_of_right_ne_nil _ (List.cons_ne_nil _ _)) loaded,
    List.map_append, List.map_cons, stops _ _ fun _ _ => rfl]

/-- A bad text is reported. -/
theorem Bad.reported (bad : Bad file text message)
    (comes : ComesTo disk manifest names summaries file text) :
    ∃ notices, performCheck disk names manifest =
      .ok ⟨1, asLines summaries, Text.shown message ++ "\n", notices⟩ :=
  comes.complained (bad.checkFile comes.found)

/-- A number that cannot be read ends the program without a message, behind the lines for the
files before it. -/
theorem ComesTo.breaksDown (comes : ComesTo disk manifest names summaries file text)
    {number : String} (failed : readPuzzle file text = .error (.numeral number)) :
    performCheck disk names manifest = .error ⟨.numeral, asLines summaries⟩ := by
  have fails : (Command.checkFile disk file).2 = .error (.breakdown .numeral) := by
    rw [Command.checkFile, loadModel, loadPuzzle_of_text comes.found, failed]
    rfl
  obtain ⟨_, ended⟩ := comes.complained fails
  exact ended

end Command

/-- Every text holds a puzzle that makes a model, or is bad and is reported by a check, or has a
number that cannot be read, at which its reading and any check break down. -/
theorem reported_or_unreadable (file : Path) (text : String) :
    (∃ puzzle notices model, readPuzzle file text = .ok (puzzle, notices) ∧
      Model.build puzzle = .ok model) ∨
    (∃ message, Command.Bad file text message ∧ ∀ disk manifest names summaries,
      Command.ComesTo disk manifest names summaries file text →
        ∃ notices, Command.performCheck disk names manifest =
          .ok ⟨1, Command.asLines summaries, Text.shown message ++ "\n", notices⟩) ∨
    ∃ tokens, tokenize file text = .ok tokens ∧ ∃ token ∈ tokens, token.Unreadable ∧
      readPuzzle file text = .error (.numeral token.text) ∧
      ∀ disk manifest names summaries,
        Command.ComesTo disk manifest names summaries file text →
          Command.performCheck disk names manifest =
            .error ⟨.numeral, Command.asLines summaries⟩ := by
  have reported {message : String} (bad : Command.Bad file text message) :
      ∃ message, Command.Bad file text message ∧ ∀ disk manifest names summaries,
        Command.ComesTo disk manifest names summaries file text →
          ∃ notices, Command.performCheck disk names manifest =
            .ok ⟨1, Command.asLines summaries, Text.shown message ++ "\n", notices⟩ :=
    ⟨message, bad, fun _ _ _ _ comes => bad.reported comes⟩
  cases read : readPuzzle file text with
  | error failure =>
      rcases failure_of_readPuzzle read with
        ⟨cause, site, rfl⟩ | ⟨tokens, scanned, token, member, unreadable, rfl⟩
      · exact .inr (.inl (reported (.unparsed read)))
      · exact .inr (.inr ⟨tokens, scanned, token, member, unreadable, rfl,
          fun _ _ _ _ comes => comes.breaksDown read⟩)
  | ok found =>
      cases built : Model.build found.1 with
      | error diagnostic => exact .inr (.inl (reported (.unbuilt read built)))
      | ok model => exact .inl ⟨found.1, found.2, model, rfl, built⟩

def raisedText : String :=
  "var x : D[²]\n"

def raisedDisk : Disk where
  workingDirectory := Path.ofString "/work"
  top := .directory [("work", .directory [("raised.grid", .file raisedText.toUTF8)])]

theorem reported_or_unreadable_raisedText :
    readPuzzle (Path.ofString "raised.grid") raisedText = .error (.numeral "²") ∧
      Command.performCheck raisedDisk ["raised.grid"] Manifest.fileName =
        .error ⟨.numeral, ""⟩ := by
  have failed : readPuzzle (Path.ofString "raised.grid") raisedText = .error (.numeral "²") := by
    decide +kernel
  refine ⟨failed, ?_⟩
  rcases reported_or_unreadable (Path.ofString "raised.grid") raisedText with
    ⟨_, _, _, read, _⟩ | ⟨_, bad, _⟩ | ⟨_, _, _, _, _, _, breaksDown⟩
  · cases failed.symm.trans read
  · cases bad with
    | unparsed fails => cases failed.symm.trans fails
    | unbuilt parsed _ => cases failed.symm.trans parsed
  · refine breaksDown raisedDisk Manifest.fileName ["raised.grid"] [] ⟨⟨_, _, rfl⟩, ?_, ?_⟩
    · exact ⟨[], "raised.grid", [], rfl, rfl, .nil⟩
    · decide +kernel

end LogicPuzzle
