import ScriptBridge.Batch.Make
import ScriptBridge.Checkpoint
import ScriptBridge.CommandLine.Program
import ScriptBridge.CommandLine.Reader
import ScriptBridge.Configuration
import ScriptBridge.Diagnostic.Report
import ScriptBridge.Discovery
import ScriptBridge.Emit.Tree
import ScriptBridge.Filter.Script
import ScriptBridge.Json.Printer
import ScriptBridge.Json.Reader
import ScriptBridge.LogFormat
import ScriptBridge.Main
import ScriptBridge.Normalize.Pipeline
import ScriptBridge.Path
import ScriptBridge.Pattern.SearchLaws
import ScriptBridge.Proofs.Balance.Trees
import ScriptBridge.Proofs.Batch.Accounts
import ScriptBridge.Proofs.Batch.AnyOrder
import ScriptBridge.Proofs.Batch.CheckpointText
import ScriptBridge.Proofs.Batch.FirstFailure
import ScriptBridge.Proofs.Batch.Growth
import ScriptBridge.Proofs.Batch.KeptTree
import ScriptBridge.Proofs.Batch.Making
import ScriptBridge.Proofs.Batch.Mended
import ScriptBridge.Proofs.Batch.Resumption
import ScriptBridge.Proofs.Batch.Separate
import ScriptBridge.Proofs.Batch.TwoRuns
import ScriptBridge.Proofs.Expression.Arrays
import ScriptBridge.Proofs.Expression.Syntax
import ScriptBridge.Proofs.Expression.Layout
import ScriptBridge.Proofs.Expression.Printing
import ScriptBridge.Proofs.Expression.Reader
import ScriptBridge.Proofs.Expression.Separation
import ScriptBridge.Proofs.Expression.Unambiguous
import ScriptBridge.Proofs.Files.Name
import ScriptBridge.Proofs.Files.Plain
import ScriptBridge.Proofs.Files.Pruning
import ScriptBridge.Proofs.Files.Sources
import ScriptBridge.Proofs.Files.Targets
import ScriptBridge.Proofs.Index.Collection
import ScriptBridge.Proofs.Index.Lines
import ScriptBridge.Proofs.Json.Kept
import ScriptBridge.Proofs.Json.Record
import ScriptBridge.Proofs.Json.RoundTrip
import ScriptBridge.Proofs.Locations.Constructs
import ScriptBridge.Proofs.Locations.Displaced
import ScriptBridge.Proofs.Locations.Erased
import ScriptBridge.Proofs.MemberIndex
import ScriptBridge.Proofs.Normalize.ClassSkeleton
import ScriptBridge.Proofs.Normalize.Constructor
import ScriptBridge.Proofs.Normalize.FinalWords
import ScriptBridge.Proofs.Normalize.Header
import ScriptBridge.Proofs.Normalize.Heads
import ScriptBridge.Proofs.Normalize.ImportLines
import ScriptBridge.Proofs.Normalize.ImportLists
import ScriptBridge.Proofs.Normalize.KeptLiterals
import ScriptBridge.Proofs.Normalize.Keywords
import ScriptBridge.Proofs.Normalize.NameLimit
import ScriptBridge.Proofs.Normalize.Settling
import ScriptBridge.Proofs.Normalize.Skeleton
import ScriptBridge.Proofs.Normalize.TypeTests
import ScriptBridge.Proofs.Normalize.VectorPrefixes
import ScriptBridge.Proofs.Normalize.Vectors
import ScriptBridge.Proofs.Placement.Openings
import ScriptBridge.Proofs.Placement.Sequences
import ScriptBridge.Proofs.Printing.CaseBreaks
import ScriptBridge.Proofs.Printing.Casts
import ScriptBridge.Proofs.Printing.Congruence
import ScriptBridge.Proofs.Printing.Construct
import ScriptBridge.Proofs.Printing.LineStarts
import ScriptBridge.Proofs.Printing.Logs
import ScriptBridge.Proofs.Printing.Markers
import ScriptBridge.Proofs.Printing.Outcome
import ScriptBridge.Proofs.Printing.Outermost
import ScriptBridge.Proofs.Printing.PlainText
import ScriptBridge.Proofs.Printing.Resemblance
import ScriptBridge.Proofs.Printing.Roles
import ScriptBridge.Proofs.Printing.StatementLists
import ScriptBridge.Proofs.Printing.StopAtError
import ScriptBridge.Proofs.Printing.SuperCalls
import ScriptBridge.Proofs.Printing.TextOperations
import ScriptBridge.Proofs.Printing.Untranslatable
import ScriptBridge.Proofs.Printing.Wrappers
import ScriptBridge.Proofs.Qualification.Ancestors
import ScriptBridge.Proofs.Qualification.Collected
import ScriptBridge.Proofs.Qualification.Constructs
import ScriptBridge.Proofs.Qualification.Fit
import ScriptBridge.Proofs.Qualification.Inherited
import ScriptBridge.Proofs.Qualification.Lexical
import ScriptBridge.Proofs.Qualification.Members
import ScriptBridge.Proofs.Qualification.Operations
import ScriptBridge.Proofs.Qualification.OwnEntry
import ScriptBridge.Proofs.Qualification.Receivers
import ScriptBridge.Proofs.Qualification.Simulation
import ScriptBridge.Proofs.Ranks.Constructs
import ScriptBridge.Proofs.Ranks.Ledger
import ScriptBridge.Proofs.Ranks.Once
import ScriptBridge.Proofs.Statement.Blocks
import ScriptBridge.Proofs.Statement.Clause
import ScriptBridge.Proofs.Statement.Syntax
import ScriptBridge.Proofs.Statement.Lines
import ScriptBridge.Proofs.Statement.Normal
import ScriptBridge.Proofs.Statement.Printing
import ScriptBridge.Proofs.Statement.Unambiguous
import ScriptBridge.Proofs.Tree.Enriched
import ScriptBridge.Proofs.Tree.Induction
import ScriptBridge.Proofs.Tree.RoundTrip
import ScriptBridge.Proofs.Tree.Search
import ScriptBridge.Proofs.Tree.Stored
import ScriptBridge.Proofs.TypeImports.Missing
import ScriptBridge.Proofs.TypeImports.Operations
import ScriptBridge.Text.CaseFolding
import ScriptBridge.Text.Utf8
import ScriptBridge.Text.Word
import ScriptBridge.Tree.Children
import ScriptBridge.Tree.Location
import ScriptBridge.Tree.Node
import ScriptBridge.Tree.Reader
import ScriptBridge.Tree.Writer
