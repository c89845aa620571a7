import ConstructorCheck.Check.Batch
import ConstructorCheck.Check.Definition
import ConstructorCheck.Check.Finding
import ConstructorCheck.Check.Options
import ConstructorCheck.Check.Site
import ConstructorCheck.Check.Verdict
import ConstructorCheck.CommandLine.Arguments
import ConstructorCheck.CommandLine.Run
import ConstructorCheck.Diagnostic.Message
import ConstructorCheck.Diagnostic.Record
import ConstructorCheck.Digraph
import ConstructorCheck.Files.Access
import ConstructorCheck.Files.Discover
import ConstructorCheck.Files.Path
import ConstructorCheck.Files.Tree
import ConstructorCheck.Fixture.Basic
import ConstructorCheck.Fixture.Decode
import ConstructorCheck.Fixture.Outcome
import ConstructorCheck.Fixture.Program
import ConstructorCheck.Fixture.Source
import ConstructorCheck.Hierarchy.Basic
import ConstructorCheck.Hierarchy.Declare
import ConstructorCheck.Hierarchy.Derivation
import ConstructorCheck.Hierarchy.History
import ConstructorCheck.Hierarchy.InPlace
import ConstructorCheck.Hierarchy.Lookup
import ConstructorCheck.Json.Decode
import ConstructorCheck.Json.Lexer
import ConstructorCheck.Json.Number
import ConstructorCheck.Json.Pretty
import ConstructorCheck.Json.Reader
import ConstructorCheck.Json.Value
import ConstructorCheck.Log.Directives
import ConstructorCheck.Main
import ConstructorCheck.Overload.Candidate
import ConstructorCheck.Overload.Rank
import ConstructorCheck.Overload.Resolution
import ConstructorCheck.Proofs.Check.BaseAccess
import ConstructorCheck.Proofs.Check.Batch
import ConstructorCheck.Proofs.Check.Definition
import ConstructorCheck.Proofs.Check.Order
import ConstructorCheck.Proofs.Check.Targets
import ConstructorCheck.Proofs.Check.Verdict
import ConstructorCheck.Proofs.Check.WrittenOut
import ConstructorCheck.Proofs.Digraph.Depth
import ConstructorCheck.Proofs.Digraph.Reachability
import ConstructorCheck.Proofs.Fixture.ClassOrder
import ConstructorCheck.Proofs.Fixture.Decode
import ConstructorCheck.Proofs.Fixture.Lines
import ConstructorCheck.Proofs.Fixture.Matching
import ConstructorCheck.Proofs.Fixture.OneBatch
import ConstructorCheck.Proofs.Fixture.Program
import ConstructorCheck.Proofs.Fixture.Rendering
import ConstructorCheck.Proofs.Fixture.Reordering
import ConstructorCheck.Proofs.Fixture.Requests
import ConstructorCheck.Proofs.Fixture.Spans
import ConstructorCheck.Proofs.Hierarchy.Accepted
import ConstructorCheck.Proofs.Hierarchy.BaseChains
import ConstructorCheck.Proofs.Hierarchy.BaseOrder
import ConstructorCheck.Proofs.Hierarchy.ByName
import ConstructorCheck.Proofs.Hierarchy.Consistent
import ConstructorCheck.Proofs.Hierarchy.Extension
import ConstructorCheck.Proofs.Hierarchy.Owned
import ConstructorCheck.Proofs.Hierarchy.Refused
import ConstructorCheck.Proofs.Hierarchy.WellFormed
import ConstructorCheck.Proofs.Masking.Basic
import ConstructorCheck.Proofs.Masking.Check
import ConstructorCheck.Proofs.Masking.Declarations
import ConstructorCheck.Proofs.Overload.Best
import ConstructorCheck.Proofs.Overload.Mapping
import ConstructorCheck.Proofs.Overload.Ranking
import ConstructorCheck.Proofs.Renaming.Basic
import ConstructorCheck.Proofs.Renaming.Batch
import ConstructorCheck.Proofs.Renaming.Check
import ConstructorCheck.Proofs.Renaming.Declarations
import ConstructorCheck.Proofs.Renaming.Names
import ConstructorCheck.Proofs.Renaming.Renumbering
import ConstructorCheck.Proofs.Report.Checked
import ConstructorCheck.Proofs.Report.Lines
import ConstructorCheck.Proofs.Report.Positions
import ConstructorCheck.Proofs.Results
import ConstructorCheck.Proofs.Text.Boundaries
import ConstructorCheck.Proofs.Text.LineMap
import ConstructorCheck.Proofs.Text.Newlines
import ConstructorCheck.Report.Checked
import ConstructorCheck.Report.Json
import ConstructorCheck.Report.Reporter
import ConstructorCheck.Report.Snippet
import ConstructorCheck.Report.Style
import ConstructorCheck.Span
import ConstructorCheck.Text.Blank
import ConstructorCheck.Text.Bytes
import ConstructorCheck.Text.LineMap
import ConstructorCheck.Text.Template
import ConstructorCheck.Proofs.Check.Ancestry
import ConstructorCheck.Proofs.Check.Growth
import ConstructorCheck.Proofs.Overload.Tied
import ConstructorCheck.Proofs.Fixture.Collected
import ConstructorCheck.Proofs.Fixture.Mirror
import ConstructorCheck.Proofs.Text.Lines
import ConstructorCheck.Proofs.Text.Positions
import ConstructorCheck.Proofs.Overload.Exact
import ConstructorCheck.Fixture.Checked
import ConstructorCheck.Proofs.Fixture.Places
import ConstructorCheck.Proofs.Diagnostic.Message
import ConstructorCheck.Proofs.Log.Directives
import ConstructorCheck.Proofs.Report.Underline
import ConstructorCheck.Proofs.Report.Alignment
import ConstructorCheck.Proofs.Report.Colors
import ConstructorCheck.Digraph.Recursion
import ConstructorCheck.Hierarchy.Depth
import ConstructorCheck.Proofs.Digraph.Recursion
import ConstructorCheck.Proofs.Hierarchy.Depth
import ConstructorCheck.Proofs.Overload.Arity
