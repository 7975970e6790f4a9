import DataPipeline.Build.Basic
import DataPipeline.Build.Context
import DataPipeline.BuildError
import DataPipeline.Check.Basic
import DataPipeline.Check.Finding
import DataPipeline.CommandLine.Arguments
import DataPipeline.CommandLine.Clock
import DataPipeline.CommandLine.Commands
import DataPipeline.CommandLine.Console
import DataPipeline.CommandLine.Help
import DataPipeline.CommandLine.Program
import DataPipeline.Decimal.Binary
import DataPipeline.Decimal.Fixed
import DataPipeline.Decimal.Shortest
import DataPipeline.Disk.Basic
import DataPipeline.Disk.FilePath
import DataPipeline.Disk.Pattern
import DataPipeline.Document.Basic
import DataPipeline.Document.Fault
import DataPipeline.Document.JsonText
import DataPipeline.Document.Reading
import DataPipeline.Document.Repetition
import DataPipeline.Json.Basic
import DataPipeline.Json.Numeral
import DataPipeline.Json.Printer
import DataPipeline.Kind
import DataPipeline.Lock.Basic
import DataPipeline.Lock.Sha256
import DataPipeline.Main
import DataPipeline.Metrics.Basic
import DataPipeline.Metrics.Prometheus
import DataPipeline.Metrics.Session
import DataPipeline.Node.Basic
import DataPipeline.Node.Execute
import DataPipeline.NodePath
import DataPipeline.Outcome.Basic
import DataPipeline.Outcome.Codec
import DataPipeline.Plugin.Basic
import DataPipeline.Plugin.Builtin
import DataPipeline.Plugin.Config
import DataPipeline.Plugin.Datajets
import DataPipeline.Plugin.Generators
import DataPipeline.Plugin.Registry
import DataPipeline.Plugin.Wrappers
import DataPipeline.Run.Activity
import DataPipeline.Run.FanOut
import DataPipeline.Run.Settings
import DataPipeline.Run.World
import DataPipeline.Schema.Basic
import DataPipeline.Schema.Codec
import DataPipeline.Schema.Load
import DataPipeline.Schema.Spec
import DataPipeline.Text.Quoted
import DataPipeline.Text.Sorted
import DataPipeline.Text.Unprintable
import DataPipeline.Word
import DataPipeline.Proofs.Build.Failure
import DataPipeline.Proofs.Build.Sequence
import DataPipeline.Proofs.Document.Values
import DataPipeline.Proofs.Check.Membership
import DataPipeline.Proofs.Plugin.Builtin
import DataPipeline.Proofs.Schema.Structure
import DataPipeline.Yaml.Cursor
import DataPipeline.Yaml.Node
import DataPipeline.Yaml.Plain
import DataPipeline.Yaml.Scalar
import DataPipeline.Yaml.Token
import DataPipeline.Yaml.Written
import DataPipeline.Proofs.Check.Agreement
import DataPipeline.Proofs.Build.Scope
import DataPipeline.Proofs.Build.Tree
import DataPipeline.Proofs.Run.Ends
import DataPipeline.Proofs.Node.Reports
import DataPipeline.Proofs.Run.Alone
import DataPipeline.Proofs.Run.World
import DataPipeline.Proofs.Run.SideBySide
import DataPipeline.Proofs.Node.Governed
import DataPipeline.Proofs.Node.Limits
import DataPipeline.Proofs.Check.Visits
import DataPipeline.Proofs.Run.Elapsed
import DataPipeline.Proofs.Node.Bound
import DataPipeline.Proofs.Run.Timeline
import DataPipeline.Proofs.Run.Follows
import DataPipeline.Proofs.Node.Stagewise
import DataPipeline.Proofs.Node.Uncut
import DataPipeline.Proofs.Node.Results
import DataPipeline.Proofs.Run.Counters
import DataPipeline.Proofs.Node.Watched
import DataPipeline.Proofs.Node.Tallies
import DataPipeline.Proofs.Node.Settles
import DataPipeline.Proofs.Node.Reconciled
import DataPipeline.Proofs.Lock.Outline
import DataPipeline.Proofs.Lock.Preorder
import DataPipeline.Proofs.Plugin.Accepted
import DataPipeline.Proofs.Build.Visible
import DataPipeline.Proofs.Build.WellFormed
import DataPipeline.Proofs.Run.Mirrors
import DataPipeline.Proofs.Node.Renamed
import DataPipeline.Proofs.Build.References
import DataPipeline.Proofs.Build.Repicked
import DataPipeline.Proofs.Node.Transparent
import DataPipeline.Proofs.Build.Order
import DataPipeline.Proofs.Document.Proper
import DataPipeline.Proofs.Schema.Spelled
import DataPipeline.Proofs.Build.Spelled
import DataPipeline.Proofs.Node.Lockstep
import DataPipeline.Proofs.Run.Moved
import DataPipeline.Proofs.Node.Moved
import DataPipeline.Proofs.Build.Moved
import DataPipeline.Proofs.Build.Wrapped
import DataPipeline.Proofs.Document.JsonText
import DataPipeline.Proofs.Outcome.Written
import DataPipeline.Proofs.Disk.Stored
import DataPipeline.Proofs.CommandLine.Script
import DataPipeline.Proofs.CommandLine.Reports
import DataPipeline.Proofs.Lock.Checked
import DataPipeline.Proofs.CommandLine.Locks
import DataPipeline.Proofs.CommandLine.Lints
import DataPipeline.Proofs.Metrics.Prometheus
import DataPipeline.Proofs.Node.Drained
import DataPipeline.Proofs.Decimal.Finite
import DataPipeline.Proofs.Json.Numeral
import DataPipeline.Proofs.Document.Faithful
import DataPipeline.Proofs.Document.Fields
import DataPipeline.Proofs.Schema.Written
import DataPipeline.Proofs.Run.History
import DataPipeline.Proofs.Run.Passage
import DataPipeline.Proofs.Run.Schedule
import DataPipeline.Proofs.Node.Scheduled
import DataPipeline.Proofs.Run.Annotated
import DataPipeline.Proofs.Node.Delivery
import DataPipeline.Proofs.Node.Logged
import DataPipeline.Proofs.Node.Passages
import DataPipeline.Proofs.Node.Gated
import DataPipeline.Proofs.Node.Extent
import DataPipeline.Proofs.Node.CutOff
import DataPipeline.Proofs.Lock.Pinned
import DataPipeline.Proofs.Node.Unrolled
import DataPipeline.Proofs.Node.Filed
import DataPipeline.Proofs.Plugin.Registered
import DataPipeline.Proofs.Metrics.Exact
import DataPipeline.Proofs.Plugin.Writable
import DataPipeline.Proofs.Node.Counting
