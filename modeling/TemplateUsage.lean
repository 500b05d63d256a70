import TemplateUsage.Classification
import TemplateUsage.CommandLine.Arguments
import TemplateUsage.CommandLine.Files
import TemplateUsage.CommandLine.JsonText
import TemplateUsage.CommandLine.Log
import TemplateUsage.CommandLine.Path
import TemplateUsage.CommandLine.Run
import TemplateUsage.Diagnostic
import TemplateUsage.Extraction
import TemplateUsage.Fault
import TemplateUsage.Literal
import TemplateUsage.Location
import TemplateUsage.Location.Lines
import TemplateUsage.Main
import TemplateUsage.Name
import TemplateUsage.Node
import TemplateUsage.Node.Build
import TemplateUsage.Node.Equality
import TemplateUsage.Number
import TemplateUsage.Number.Double
import TemplateUsage.Number.Numeral
import TemplateUsage.Phrase
import TemplateUsage.Proofs.Grammar.Building
import TemplateUsage.Proofs.Grammar.Derivation
import TemplateUsage.Proofs.Grammar.Extent
import TemplateUsage.Proofs.Grammar.Meaning
import TemplateUsage.Proofs.Grammar.PhraseTree
import TemplateUsage.Proofs.Grammar.Realisation
import TemplateUsage.Proofs.Location.Counting
import TemplateUsage.Proofs.Parsing
import TemplateUsage.Proofs.Recogniser.Completeness
import TemplateUsage.Proofs.Recogniser.Retention
import TemplateUsage.Proofs.Scan.Constructs
import TemplateUsage.Proofs.Scan.Coverage
import TemplateUsage.Proofs.Scan.Layout
import TemplateUsage.Proofs.Scan.Lossless
import TemplateUsage.Proofs.Scan.Trace
import TemplateUsage.Proofs.Scan.Written
import TemplateUsage.Proofs.Scope
import TemplateUsage.Proofs.Scoping
import TemplateUsage.Proofs.Walk
import TemplateUsage.Recogniser
import TemplateUsage.Recogniser.Action
import TemplateUsage.Recogniser.Position
import TemplateUsage.Rejection
import TemplateUsage.Report
import TemplateUsage.Scan
import TemplateUsage.Scan.Mode
import TemplateUsage.Scan.Pattern
import TemplateUsage.Scan.Progress
import TemplateUsage.Scan.Step
import TemplateUsage.Scope
import TemplateUsage.Template
import TemplateUsage.Text.Blank
import TemplateUsage.Text.Case
import TemplateUsage.Text.CaseTables
import TemplateUsage.Text.CodeRanges
import TemplateUsage.Text.Digit
import TemplateUsage.Text.Order
import TemplateUsage.Text.Printable
import TemplateUsage.Text.Quoted
import TemplateUsage.Text.Split
import TemplateUsage.Text.Utf8
import TemplateUsage.Token
import TemplateUsage.Usage
import TemplateUsage.Proofs.Grammar.Balance
import TemplateUsage.Proofs.Tree.Inversion
import TemplateUsage.Proofs.Tree.Nesting
import TemplateUsage.Proofs.Tree.Placement
import TemplateUsage.Proofs.Tree.Positions
import TemplateUsage.Proofs.Scan.Run
import TemplateUsage.Proofs.Scan.Locality
import TemplateUsage.Proofs.Tree.Relocation
import TemplateUsage.Proofs.Cutting
import TemplateUsage.Proofs.Wrapping
import TemplateUsage.Proofs.Recogniser.Alignment
import TemplateUsage.Proofs.Diagnosis
import TemplateUsage.Proofs.Recogniser.Viability
import TemplateUsage.Proofs.Earliest
import TemplateUsage.Proofs.Scan.Neighbours
import TemplateUsage.Proofs.Tree.Shape
import TemplateUsage.Proofs.Grammar.Paraphrase
import TemplateUsage.Proofs.Rewording
import TemplateUsage.Proofs.Scan.Exchange
import TemplateUsage.Proofs.Scan.Interchange
import TemplateUsage.Proofs.Respacing
import TemplateUsage.Proofs.Scan.Marks
import TemplateUsage.Proofs.Marking
import TemplateUsage.Proofs.Numerals
import TemplateUsage.Proofs.Scan.Spelling
import TemplateUsage.Proofs.Tree.Candidates
import TemplateUsage.Proofs.Origins
import TemplateUsage.Proofs.CommandLine.Paths
import TemplateUsage.Proofs.CommandLine.Expansion
import TemplateUsage.Proofs.CommandLine.Verdicts
import TemplateUsage.Proofs.CommandLine.Outcome
import TemplateUsage.Proofs.Calls
import TemplateUsage.Proofs.Overlong
import TemplateUsage.Proofs.CommandLine.Stops
import TemplateUsage.Proofs.Tree.Revision
import TemplateUsage.Proofs.Tree.Equality
import TemplateUsage.Proofs.Tree.Rebuilding
import TemplateUsage.Proofs.Labelling
import TemplateUsage.Proofs.Grammar.Offences
import TemplateUsage.Proofs.Checks
import TemplateUsage.Proofs.Scan.Comments
import TemplateUsage.Proofs.Commenting
import TemplateUsage.Proofs.Scan.ModeStack
import TemplateUsage.Proofs.Scan.Termination
import TemplateUsage.Proofs.Naming
import TemplateUsage.Proofs.Quoting
import TemplateUsage.Proofs.Integers
import TemplateUsage.Proofs.Shadowing
import TemplateUsage.Proofs.Report.Gathering
import TemplateUsage.Proofs.Report.Batch
import TemplateUsage.Proofs.Report.Colour
import TemplateUsage.Proofs.Scan.Escapes
import TemplateUsage.Proofs.Scan.Vocabulary
import TemplateUsage.Proofs.Scan.WholeWords
import TemplateUsage.Proofs.Declarations
import TemplateUsage.Proofs.Recogniser.Continuation
import TemplateUsage.Proofs.Recogniser.Expectation
import TemplateUsage.Proofs.Suggestions
import TemplateUsage.Proofs.Location.Order
import TemplateUsage.Proofs.ShiftReduce.Rules
import TemplateUsage.Proofs.ShiftReduce.Automaton
import TemplateUsage.Proofs.ShiftReduce.Driver
import TemplateUsage.Proofs.ShiftReduce.Ending
