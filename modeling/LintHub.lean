import LintHub.Analysis
import LintHub.Digest.Sha1
import LintHub.Fault
import LintHub.Files.Disk
import LintHub.Files.Path
import LintHub.Files.Resolve
import LintHub.Files.Sources
import LintHub.Gate.Arguments
import LintHub.Gate.Verdict
import LintHub.Http.Address
import LintHub.Http.Body
import LintHub.Http.Endpoint
import LintHub.Http.Message
import LintHub.Http.Service
import LintHub.Hub.Basic
import LintHub.Hub.Batch
import LintHub.Issue
import LintHub.Json.Coerce
import LintHub.Json.Display
import LintHub.Json.Reader
import LintHub.Json.Value
import LintHub.Json.Writer
import LintHub.Log.Event
import LintHub.Log.Record
import LintHub.Log.Setup
import LintHub.Log.Template
import LintHub.Main
import LintHub.Named
import LintHub.Number.Binary64
import LintHub.Number.Places
import LintHub.Number.Shortest
import LintHub.Progress
import LintHub.Report.Aggregate
import LintHub.Report.Comparison
import LintHub.Report.Dedup
import LintHub.Report.Statistics
import LintHub.Request
import LintHub.Routine
import LintHub.Schema
import LintHub.Settings
import LintHub.Severity
import LintHub.Shell.Machine
import LintHub.Shell.Printing
import LintHub.Shell.Programs
import LintHub.Shell.Reader
import LintHub.Shell.Run
import LintHub.Shell.Script
import LintHub.Store
import LintHub.Tally
import LintHub.Text.Blank
import LintHub.Text.Casing
import LintHub.Text.Digit
import LintHub.Text.Lines
import LintHub.Text.Printable
import LintHub.Text.Quoted
import LintHub.Text.Utf8
import LintHub.Time.Calendar
import LintHub.Time.Moment
import LintHub.Time.Parse
import LintHub.Time.Span
import LintHub.Tool.Adapter
import LintHub.Tool.Check
import LintHub.Tool.Command
import LintHub.Tool.Config
import LintHub.Tool.Execution
import LintHub.Tool.Program
import LintHub.Tool.Registry
import LintHub.Tool.Report.Bandit
import LintHub.Tool.Report.Ruff
import LintHub.Tool.Runner
import LintHub.Tool.Scripted
import LintHub.Validation
import LintHub.World
import LintHub.Proofs.Work.Outcome
import LintHub.Proofs.Work.Steps
import LintHub.Proofs.Batch.Cancel
import LintHub.Proofs.Batch.Law
import LintHub.Proofs.Report.Faults
import LintHub.Proofs.Report.File
import LintHub.Proofs.Run.Law
import LintHub.Proofs.Run.Told
import LintHub.Proofs.Store.RoundTrip
import LintHub.Proofs.Store.Law
import LintHub.Proofs.Report.Merging
import LintHub.Proofs.Http.Reports
import LintHub.Proofs.Gate.Verdict
import LintHub.Proofs.Report.Grouping
import LintHub.Proofs.Report.Comparing
import LintHub.Proofs.Gate.Saved
import LintHub.Proofs.Work.Account
import LintHub.Proofs.Run.Calm
import LintHub.Proofs.Run.Uses
import LintHub.Proofs.Run.Exclusive
import LintHub.Proofs.Batch.Steady
import LintHub.Proofs.Batch.Running
import LintHub.Proofs.Work.Stutter
import LintHub.Proofs.Batch.Completion
import LintHub.Proofs.Work.Agree
import LintHub.Proofs.Run.Listening
import LintHub.Proofs.Batch.Background
import LintHub.Proofs.Http.Once
import LintHub.Proofs.Run.Origin
import LintHub.Proofs.Files.Spelling
import LintHub.Proofs.Report.Totals
import LintHub.Proofs.Http.Saved
import LintHub.Proofs.Http.Mistakes
import LintHub.Proofs.Work.Owned
import LintHub.Proofs.Run.Noted
import LintHub.Proofs.Batch.Noted
import LintHub.Proofs.Http.Finished
import LintHub.Proofs.Report.Ranking
import LintHub.Proofs.Store.Timestamps
import LintHub.Proofs.Files.Absolute
import LintHub.Proofs.Config.Names
import LintHub.Proofs.Files.Collected
import LintHub.Proofs.Work.Alike
import LintHub.Proofs.Run.Leeway
import LintHub.Proofs.Run.Targets
import LintHub.Proofs.Run.Undisturbed
import LintHub.Proofs.Lists
import LintHub.Proofs.Tool.Registry
import LintHub.Proofs.Files.OwnFiles
import LintHub.Proofs.Run.Progress
import LintHub.Proofs.Run.Heard
import LintHub.Proofs.Batch.Probes
import LintHub.Proofs.Batch.Bounds
import LintHub.Proofs.Batch.Available
import LintHub.Proofs.Report.Selection
import LintHub.Proofs.Report.Finding
import LintHub.Proofs.Log.Line
import LintHub.Proofs.Json.Grammar
