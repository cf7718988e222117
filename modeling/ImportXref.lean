import ImportXref.Text.Utf8
import ImportXref.Index.Plan
import ImportXref.Report.Json
import ImportXref.Report.Page
import ImportXref.Tree.Write
import ImportXref.Scan
import ImportXref.Config
import ImportXref.Report.Export
import ImportXref.CommandLine.Run
import ImportXref.Main
import ImportXref.Proofs.Index.Carried
import ImportXref.Proofs.Index.History
import ImportXref.Proofs.Index.Files
import ImportXref.Proofs.Index.Frame
import ImportXref.Proofs.Index.Scope
import ImportXref.Proofs.Index.Order
import ImportXref.Proofs.Report.Projection
import ImportXref.Proofs.Report.Placement
import ImportXref.Proofs.Report.Separators
import ImportXref.Proofs.Report.Entities
import ImportXref.Proofs.Report.Tags
import ImportXref.Proofs.Report.PageTokens
import ImportXref.Proofs.Report.Content
import ImportXref.Proofs.Relative
import ImportXref.Proofs.Statement.Layout
import ImportXref.Proofs.Statement.Names
import ImportXref.Proofs.Statement.Reading
import ImportXref.Proofs.Statement.Meaning
import ImportXref.Proofs.Statement.EveryLine
import ImportXref.Proofs.Statement.Refusals
import ImportXref.Proofs.Discovery.Found
import ImportXref.Proofs.Scan.History
import ImportXref.Proofs.Scan.Names
import ImportXref.Proofs.Path
import ImportXref.Proofs.Route
import ImportXref.Proofs.Tree.Following
import ImportXref.Proofs.Tree.Opening
import ImportXref.Proofs.Tree.Walking
import ImportXref.Proofs.Tree.Finite
import ImportXref.Proofs.Tree.Writing
import ImportXref.Proofs.Discovery.Spelling
import ImportXref.Proofs.Discovery.Listing
import ImportXref.Proofs.Discovery.Reopening
import ImportXref.Proofs.Report.Written
import ImportXref.Proofs.CommandLine.Jobs
import ImportXref.Proofs.CommandLine.FailedScan
import ImportXref.Proofs.CommandLine.Batches
import ImportXref.Proofs.Statement.Clause
import ImportXref.Proofs.Statement.Grammar
import ImportXref.Proofs.Discovery.Several
import ImportXref.Proofs.Scan.Naming
import ImportXref.Proofs.Statement.LineEnds
import ImportXref.Proofs.Index.Pieces
import ImportXref.Proofs.Discovery.Patterns
import ImportXref.Proofs.Report.JsonReading
import ImportXref.Proofs.Report.JsonReport
import ImportXref.Proofs.Config
