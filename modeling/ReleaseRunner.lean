import ReleaseRunner.Clock
import ReleaseRunner.CommandLine.Arguments
import ReleaseRunner.CommandLine.Flag
import ReleaseRunner.CommandLine.Program
import ReleaseRunner.Config.Dotenv
import ReleaseRunner.Config.Fault
import ReleaseRunner.Config.Filters
import ReleaseRunner.Config.Model
import ReleaseRunner.Config.Schema
import ReleaseRunner.Config.Settings
import ReleaseRunner.Config.Validation
import ReleaseRunner.Duration
import ReleaseRunner.Event
import ReleaseRunner.Failure
import ReleaseRunner.Files.Path
import ReleaseRunner.Files.Tree
import ReleaseRunner.Json.Reader
import ReleaseRunner.Json.Shown
import ReleaseRunner.Json.Value
import ReleaseRunner.Json.Writer
import ReleaseRunner.Log.Level
import ReleaseRunner.Log.Record
import ReleaseRunner.Log.Template
import ReleaseRunner.Main
import ReleaseRunner.Number.Binary64
import ReleaseRunner.Number.Decimal
import ReleaseRunner.Number.Integer
import ReleaseRunner.Number.Power
import ReleaseRunner.Outcome
import ReleaseRunner.Pattern.Basic
import ReleaseRunner.Pattern.Escape
import ReleaseRunner.Pattern.Group
import ReleaseRunner.Pattern.Match
import ReleaseRunner.Pattern.Progress
import ReleaseRunner.Pattern.Reader
import ReleaseRunner.Session.Context
import ReleaseRunner.Session.Dispatch
import ReleaseRunner.Session.Engine
import ReleaseRunner.Session.Extensions
import ReleaseRunner.Session.Hooks
import ReleaseRunner.Session.Log
import ReleaseRunner.Session.Registry
import ReleaseRunner.Session.Roster
import ReleaseRunner.Session.World
import ReleaseRunner.Stage
import ReleaseRunner.Text.Alphanumeric
import ReleaseRunner.Text.Blank
import ReleaseRunner.Text.Case
import ReleaseRunner.Text.Digit
import ReleaseRunner.Text.Lines
import ReleaseRunner.Text.Printable
import ReleaseRunner.Text.Quoted
import ReleaseRunner.Text.Ranges
import ReleaseRunner.Text.Search
import ReleaseRunner.Text.Words
import ReleaseRunner.Version.CalVer
import ReleaseRunner.Version.Calendar
import ReleaseRunner.Version.Format
import ReleaseRunner.Version.Order
import ReleaseRunner.Version.SemVer
import ReleaseRunner.Version.Token
import ReleaseRunner.Proofs.Session.Computation
import ReleaseRunner.Proofs.Session.Steps
import ReleaseRunner.Proofs.Session.Closing
import ReleaseRunner.Proofs.Session.Envelope
import ReleaseRunner.Proofs.Session.Exchange
import ReleaseRunner.Proofs.Session.Following
import ReleaseRunner.Proofs.Session.Lifecycle
import ReleaseRunner.Proofs.Session.Deliveries
import ReleaseRunner.Proofs.Session.Disposal
import ReleaseRunner.Proofs.Pattern.Language
import ReleaseRunner.Proofs.Pattern.Regular
import ReleaseRunner.Proofs.Version.Numeral
import ReleaseRunner.Proofs.Version.Layout
import ReleaseRunner.Proofs.Version.LayoutPattern
import ReleaseRunner.Proofs.Version.Grammar
import ReleaseRunner.Proofs.Text.Blank
import ReleaseRunner.Proofs.Text.Search
import ReleaseRunner.Proofs.Number.Integer
import ReleaseRunner.Proofs.Version.Acceptance
import ReleaseRunner.Proofs.Version.Printing
import ReleaseRunner.Proofs.Version.Ordering
import ReleaseRunner.Proofs.Version.Refusal
import ReleaseRunner.Proofs.Version.Precedence
import ReleaseRunner.Proofs.Version.Sorting
import ReleaseRunner.Proofs.Version.Smallest
import ReleaseRunner.Proofs.Config.Validation
import ReleaseRunner.Proofs.Version.Semantic
import ReleaseRunner.Proofs.Session.Hooks
import ReleaseRunner.Proofs.Json.Members
import ReleaseRunner.Proofs.Session.HookProcesses
import ReleaseRunner.Proofs.Session.Likeness
import ReleaseRunner.Proofs.Session.Independence
import ReleaseRunner.Proofs.Log.Template
import ReleaseRunner.Proofs.Session.Conclusion
import ReleaseRunner.Proofs.Session.Loading
import ReleaseRunner.Proofs.CommandLine.Course
import ReleaseRunner.Proofs.Files.Tree
import ReleaseRunner.Proofs.CommandLine.Configuration
import ReleaseRunner.Proofs.CommandLine.ExitCode
import ReleaseRunner.Proofs.CommandLine.Tidying
import ReleaseRunner.Proofs.Session.Hearing
import ReleaseRunner.Proofs.Session.Rounds
import ReleaseRunner.Proofs.Session.Failures
import ReleaseRunner.Proofs.Session.Discretion
import ReleaseRunner.Proofs.Session.Transparency
import ReleaseRunner.Proofs.Number.Rounding
import ReleaseRunner.Proofs.Number.Places
import ReleaseRunner.Proofs.Duration
import ReleaseRunner.Proofs.Session.Performers
import ReleaseRunner.Proofs.Session.Workflows
import ReleaseRunner.Proofs.Session.HookEnvironment
import ReleaseRunner.Proofs.Session.Marks
import ReleaseRunner.Proofs.Session.Remarks
import ReleaseRunner.Proofs.Session.Tagging
import ReleaseRunner.Proofs.Log.Record
import ReleaseRunner.Proofs.Session.Fields
import ReleaseRunner.Proofs.Session.Setbacks
import ReleaseRunner.Proofs.Pattern.Numbering
import ReleaseRunner.Proofs.Pattern.Reading
import ReleaseRunner.Proofs.Version.Assembly
import ReleaseRunner.Proofs.Version.Alignment
