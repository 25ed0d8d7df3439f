import LogicPuzzle.Cell
import LogicPuzzle.Command.Arguments
import LogicPuzzle.Command.Perform
import LogicPuzzle.Command.Request
import LogicPuzzle.Command.WholeNumber
import LogicPuzzle.Decimal.Shortest
import LogicPuzzle.Diagnostic
import LogicPuzzle.Digits
import LogicPuzzle.Discovery
import LogicPuzzle.Disk
import LogicPuzzle.EitherEnd
import LogicPuzzle.Fault
import LogicPuzzle.Judgement
import LogicPuzzle.Loading
import LogicPuzzle.Main
import LogicPuzzle.Manifest
import LogicPuzzle.Model
import LogicPuzzle.Model.Arrays
import LogicPuzzle.Model.Fault
import LogicPuzzle.Numeral
import LogicPuzzle.Outcome
import LogicPuzzle.Path
import LogicPuzzle.Proofs.Addresses
import LogicPuzzle.Proofs.AlikeTexts
import LogicPuzzle.Proofs.Beside
import LogicPuzzle.Proofs.BlankLines
import LogicPuzzle.Proofs.Boundaries
import LogicPuzzle.Proofs.BoundsChecks
import LogicPuzzle.Proofs.Breakdowns
import LogicPuzzle.Proofs.Building
import LogicPuzzle.Proofs.CanonicalText
import LogicPuzzle.Proofs.Carets
import LogicPuzzle.Proofs.Certificate
import LogicPuzzle.Proofs.Coverage
import LogicPuzzle.Proofs.Decisions
import LogicPuzzle.Proofs.Demand
import LogicPuzzle.Proofs.DiagnosticSites
import LogicPuzzle.Proofs.DocumentChecks
import LogicPuzzle.Proofs.Embedding
import LogicPuzzle.Proofs.EntryCells
import LogicPuzzle.Proofs.Findings
import LogicPuzzle.Proofs.Flagging
import LogicPuzzle.Proofs.Grammar
import LogicPuzzle.Proofs.Grounding
import LogicPuzzle.Proofs.Independence
import LogicPuzzle.Proofs.JoinedScans
import LogicPuzzle.Proofs.Joining
import LogicPuzzle.Proofs.Layout
import LogicPuzzle.Proofs.Lexemes
import LogicPuzzle.Proofs.LineEndings
import LogicPuzzle.Proofs.Listing
import LogicPuzzle.Proofs.Lookahead
import LogicPuzzle.Proofs.Lowering
import LogicPuzzle.Proofs.Mirroring
import LogicPuzzle.Proofs.Numbering
import LogicPuzzle.Proofs.Numerals
import LogicPuzzle.Proofs.Odometer
import LogicPuzzle.Proofs.Offside
import LogicPuzzle.Proofs.OpenLevels
import LogicPuzzle.Proofs.PeerOrder
import LogicPuzzle.Proofs.Peers
import LogicPuzzle.Proofs.PhraseReading
import LogicPuzzle.Proofs.Pieces
import LogicPuzzle.Proofs.Pigeonholes
import LogicPuzzle.Proofs.Placings
import LogicPuzzle.Proofs.Progress
import LogicPuzzle.Proofs.PuzzleReading
import LogicPuzzle.Proofs.Readings
import LogicPuzzle.Proofs.Rearranging
import LogicPuzzle.Proofs.Reindenting
import LogicPuzzle.Proofs.Relabelling
import LogicPuzzle.Proofs.Relocation
import LogicPuzzle.Proofs.RenamedSearches
import LogicPuzzle.Proofs.Renaming
import LogicPuzzle.Proofs.Rendering
import LogicPuzzle.Proofs.Reordering
import LogicPuzzle.Proofs.Resolution
import LogicPuzzle.Proofs.Resumption
import LogicPuzzle.Proofs.RoundTrip
import LogicPuzzle.Proofs.RuleReading
import LogicPuzzle.Proofs.Satisfaction
import LogicPuzzle.Proofs.ScannerStates
import LogicPuzzle.Proofs.SearchEnd
import LogicPuzzle.Proofs.Slots
import LogicPuzzle.Proofs.SolvingFiles
import LogicPuzzle.Proofs.Spelling
import LogicPuzzle.Proofs.StatementReading
import LogicPuzzle.Proofs.Stepping
import LogicPuzzle.Proofs.TextPuzzles
import LogicPuzzle.Proofs.Tightening
import LogicPuzzle.Proofs.Truncation
import LogicPuzzle.Proofs.TwinSearches
import LogicPuzzle.Proofs.Violations
import LogicPuzzle.Proofs.Walks
import LogicPuzzle.Puzzle
import LogicPuzzle.Reader
import LogicPuzzle.Reading
import LogicPuzzle.Reading.Phrase
import LogicPuzzle.Reading.Statement
import LogicPuzzle.Release
import LogicPuzzle.Report
import LogicPuzzle.Scanner
import LogicPuzzle.Scanner.Levels
import LogicPuzzle.Scanner.Scan
import LogicPuzzle.Scanner.Words
import LogicPuzzle.Search
import LogicPuzzle.Structured
import LogicPuzzle.Table
import LogicPuzzle.Text.Digit
import LogicPuzzle.Text.Letter
import LogicPuzzle.Text.Lines
import LogicPuzzle.Text.Plain
import LogicPuzzle.Text.Printable
import LogicPuzzle.Text.Quoted
import LogicPuzzle.Text.Ranges
import LogicPuzzle.Text.Word
import LogicPuzzle.Token
import LogicPuzzle.Toml.Document
import LogicPuzzle.Toml.Number
import LogicPuzzle.Toml.Reading
import LogicPuzzle.Toml.Value
