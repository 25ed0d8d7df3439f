import LogicPuzzle.Proofs.Relocation
import LogicPuzzle.Proofs.TextPuzzles

/-!
# Texts that read alike

When the tokens of two texts have a common relocation, the same puzzle is read
from both, with the same notices, or reading fails alike.  Only the places in
what is read can differ.
-/

namespace LogicPuzzle

/-! ## Results at other places -/

def Puzzle.moved (move : Position → Position) (puzzle : Puzzle) : Puzzle where
  file := puzzle.file
  domains := puzzle.domains
  schemas := puzzle.schemas
  declarations := puzzle.declarations.map (Declaration.moved move)
  rules := puzzle.rules.map (Rule.moved move)

/-- A notice with other places.  It knows a line, but no column. -/
def Notice.moved (move : Position → Position) : Notice → Notice
  | .stopped file line message => .stopped file (move ⟨line, 1⟩).line message
  | .unquantified rule => .unquantified (rule.moved move)

def Failure.resited (see : Site → Site) : Failure → Failure
  | .fault diagnostic => .fault { diagnostic with site := diagnostic.site.map see }
  | failure => failure

def readMoved (move : Position → Position) (see : Site → Site) :
    Except Failure (Puzzle × List Notice) → Except Failure (Puzzle × List Notice)
  | .ok (puzzle, notices) => .ok (puzzle.moved move, notices.map (Notice.moved move))
  | .error failure => .error (failure.resited see)

theorem Puzzle.moved_ofStatements (move : Position → Position) (file : Option Path)
    (statements : List Statement) :
    (ofStatements file statements).moved move =
      ofStatements file (statements.map (Statement.moved move)) := by
  have domains : Statement.domain? ∘ Statement.moved move = Statement.domain? := by
    funext statement
    cases statement <;> rfl
  have schemas : Statement.schema? ∘ Statement.moved move = Statement.schema? := by
    funext statement
    cases statement <;> rfl
  have declarations : Statement.declaration? ∘ Statement.moved move =
      fun statement => statement.declaration?.map (Declaration.moved move) := by
    funext statement
    cases statement <;> rfl
  have rules : Statement.rule? ∘ Statement.moved move =
      fun statement => statement.rule?.map (Rule.moved move) := by
    funext statement
    cases statement <;> rfl
  simp only [ofStatements, moved, List.filterMap_map, List.map_filterMap, domains, schemas,
    declarations, rules]

/-! ### Places that stay -/

theorem Rule.moved_id (rule : Rule) : rule.moved id = rule := by
  have comparisons : Comparison.moved id = id := rfl
  rw [moved, comparisons, List.map_id]
  rfl

theorem Puzzle.moved_id (puzzle : Puzzle) : puzzle.moved id = puzzle := by
  have rules : Rule.moved id = id := funext Rule.moved_id
  have declarations : Declaration.moved id = id := rfl
  rw [moved, rules, declarations, List.map_id, List.map_id]

theorem Notice.moved_id (notice : Notice) : notice.moved id = notice := by
  cases notice with
  | stopped => rfl
  | unquantified rule => exact congrArg unquantified rule.moved_id

theorem readMoved_id (see : Site → Site) (read : Except Failure (Puzzle × List Notice)) :
    readMoved id see read = read.mapError (Failure.resited see) := by
  cases read with
  | error failure => rfl
  | ok result =>
      rcases result with ⟨puzzle, notices⟩
      have same : Notice.moved id = id := funext Notice.moved_id
      rw [readMoved, Puzzle.moved_id, same, List.map_id]
      rfl

theorem Failure.resited_id (failure : Failure) : failure.resited id = failure := by
  cases failure with
  | fault diagnostic =>
      exact congrArg (fun site => fault ⟨diagnostic.cause, site⟩) Option.map_id_apply
  | numeral => rfl
  | outOfRange => rfl

theorem readMoved_id_id (read : Except Failure (Puzzle × List Notice)) :
    readMoved id id read = read := by
  rw [readMoved_id]
  cases read with
  | error failure => exact congrArg Except.error failure.resited_id
  | ok result => rfl

/-! ## Common relocations -/

def Token.site (file : Path) (text : String) (token : Token) : Site :=
  ⟨file, token.position, Scanner.lineOf? text.toList token.position.line⟩

/-- Two texts whose tokens become the same by relocations.  Tokens that become
the same are seen at the same site and in the same line. -/
structure Alike (file : Path) (text other : String) (first second : Relocation)
    (see look : Site → Site) (tokens others : List Token) : Prop where
  scanned : tokenize file text = .ok tokens
  otherScanned : tokenize file other = .ok others
  nonempty : tokens ≠ []
  same : first.tokens tokens = second.tokens others
  last : tokens.getLast?.map first.token = others.getLast?.map second.token
  sites : ∀ one two, first.token one = second.token two →
    see (one.site file text) = look (two.site file other)
  lines : ∀ one two, first.token one = second.token two →
    (first.position ⟨one.position.line, 1⟩).line = (second.position ⟨two.position.line, 1⟩).line

namespace Alike

variable {file : Path} {text other : String} {first second : Relocation} {see look : Site → Site}
  {tokens others : List Token}

/-- The token that a fault concerns, or else the last one. -/
theorem exists_token (alike : Alike file text other first second see look tokens others)
    {found otherFound : Option Token}
    (same : found.map first.token = otherFound.map second.token) :
    ∃ one two, first.token one = second.token two ∧
      (Reader.ofTokens file (some text) tokens).siteOf found = one.site file text ∧
      (Reader.ofTokens file (some other) others).siteOf otherFound = two.site file other := by
  cases found with
  | some one =>
      cases otherFound with
      | some two => exact ⟨one, two, Option.some.inj same, rfl, rfl⟩
      | none => cases same
  | none =>
      cases otherFound with
      | some two => cases same
      | none =>
          have last := alike.last
          rw [List.getLast?_eq_some_getLast alike.nonempty] at last
          obtain ⟨two, otherLast, agree⟩ := Option.map_eq_some_iff.mp last.symm
          refine ⟨_, two, agree.symm, ?_, ?_⟩
          · simp only [Reader.siteOf, Reader.ofTokens, List.getLast?_eq_some_getLast alike.nonempty]
            rfl
          · simp only [Reader.siteOf, Reader.ofTokens, otherLast]
            rfl

theorem resited_placed (alike : Alike file text other first second see look tokens others)
    {misreading otherMisreading : Misreading}
    (same : first.misreading misreading = second.misreading otherMisreading) :
    ((Reader.ofTokens file (some text) tokens).placed misreading).resited see =
      ((Reader.ofTokens file (some other) others).placed otherMisreading).resited look := by
  cases misreading with
  | numeral digits =>
      cases otherMisreading with
      | numeral => cases same; rfl
      | fault => cases same
  | fault cause found =>
      cases otherMisreading with
      | numeral => cases same
      | fault otherCause otherFound =>
          obtain ⟨rfl, agree⟩ := Misreading.fault.inj same
          obtain ⟨one, two, become, site, otherSite⟩ := alike.exists_token agree
          simp only [Reader.placed, Failure.resited, Option.map_some, site, otherSite,
            alike.sites one two become]

theorem moved_stopNotice (alike : Alike file text other first second see look tokens others)
    {stop otherStop : Reading.Stop} (same : first.stop stop = second.stop otherStop) :
    ((Reader.ofTokens file (some text) tokens).stopNotice stop).moved first.position =
      ((Reader.ofTokens file (some other) others).stopNotice otherStop).moved second.position := by
  rcases stop with ⟨cause, found⟩
  rcases otherStop with ⟨otherCause, otherFound⟩
  obtain ⟨rfl, agree⟩ := Prod.mk.inj same
  obtain ⟨one, two, become, site, otherSite⟩ := alike.exists_token agree
  simp only [Reader.stopNotice, Notice.moved, site, otherSite]
  exact congrArg (Notice.stopped file · _) (alike.lines one two become)

theorem moved_stopNotices (alike : Alike file text other first second see look tokens others)
    {stop otherStop : Option Reading.Stop}
    (same : stop.map first.stop = otherStop.map second.stop) :
    (stop.map (Reader.ofTokens file (some text) tokens).stopNotice).toList.map
        (Notice.moved first.position) =
      (otherStop.map (Reader.ofTokens file (some other) others).stopNotice).toList.map
        (Notice.moved second.position) := by
  cases stop with
  | none =>
      cases otherStop with
      | none => rfl
      | some => cases same
  | some stop =>
      cases otherStop with
      | none => cases same
      | some otherStop =>
          exact congrArg ([·]) (alike.moved_stopNotice (Option.some.inj same))

/-- The same is read from both texts, up to the places in it. -/
theorem readPuzzle (alike : Alike file text other first second see look tokens others) :
    readMoved first.position see (readPuzzle file text) =
      readMoved second.position look (LogicPuzzle.readPuzzle file other) := by
  have results : first.result (Prod.map (List.map (Statement.moved first.position))
      (Option.map first.stop)) (Reading.statements tokens) = second.result (Prod.map
      (List.map (Statement.moved second.position)) (Option.map second.stop))
      (Reading.statements others) := by
    rw [← Relocation.carries_statements, ← Relocation.carries_statements, alike.same]
  rw [LogicPuzzle.readPuzzle, LogicPuzzle.readPuzzle, alike.scanned, alike.otherScanned]
  change readMoved _ _ (Reader.puzzle _).1 = readMoved _ _ (Reader.puzzle _).1
  have rest (reader : String) (found : List Token) :
      (Reader.ofTokens file (some reader) found).rest = found := rfl
  simp only [Reader.puzzle, Reader.read, rest]
  cases read : Reading.statements tokens with
  | error misreading left =>
      rw [read] at results
      cases otherRead : Reading.statements others with
      | error otherMisreading otherLeft =>
          rw [otherRead] at results
          injection results with same
          exact congrArg Except.error (alike.resited_placed same)
      | ok => rw [otherRead] at results; cases results
  | ok result left =>
      rw [read] at results
      cases otherRead : Reading.statements others with
      | error => rw [otherRead] at results; cases results
      | ok otherResult otherLeft =>
          rw [otherRead] at results
          injection results with same
          rcases result with ⟨statements, stop⟩
          rcases otherResult with ⟨otherStatements, otherStop⟩
          obtain ⟨sameStatements, sameStop⟩ := Prod.mk.inj same
          refine congrArg Except.ok (Prod.ext ?_ (alike.moved_stopNotices sameStop))
          exact (Puzzle.moved_ofStatements ..).trans
            ((congrArg (Puzzle.ofStatements _) sameStatements).trans
              (Puzzle.moved_ofStatements ..).symm)

end Alike

end LogicPuzzle
