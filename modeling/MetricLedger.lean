import MetricLedger.Api.Handlers
import MetricLedger.Api.Routes
import MetricLedger.Cli.Command
import MetricLedger.Cli.CommandLine
import MetricLedger.Cli.Fault
import MetricLedger.Cli.Help
import MetricLedger.Cli.Program
import MetricLedger.Cli.Report
import MetricLedger.Cli.Value
import MetricLedger.Failure.Basic
import MetricLedger.Failure.Halt
import MetricLedger.Failure.Io
import MetricLedger.Failure.Store
import MetricLedger.Http.Form
import MetricLedger.Http.Message
import MetricLedger.Http.Method
import MetricLedger.Http.Status
import MetricLedger.Http.Target
import MetricLedger.Json.Fault
import MetricLedger.Json.Number
import MetricLedger.Json.Reader
import MetricLedger.Json.Scalar
import MetricLedger.Json.Shape
import MetricLedger.Json.Skip
import MetricLedger.Json.Value
import MetricLedger.Log.Event
import MetricLedger.Log.Filter
import MetricLedger.Main
import MetricLedger.Metric.Ledger
import MetricLedger.Metric.Measurement
import MetricLedger.Metric.Record
import MetricLedger.Metric.Sharing
import MetricLedger.Metric.Store
import MetricLedger.Metric.Submission
import MetricLedger.Net.Address
import MetricLedger.Net.Url
import MetricLedger.Number.Decimal
import MetricLedger.Number.Double
import MetricLedger.Number.Natural
import MetricLedger.Number.Shortest
import MetricLedger.Postgres.ConnectionString
import MetricLedger.Postgres.Plan
import MetricLedger.Postgres.Row
import MetricLedger.Postgres.Session
import MetricLedger.Postgres.Statement
import MetricLedger.Sampling.Figures
import MetricLedger.Sampling.Recorder
import MetricLedger.Service.Environment
import MetricLedger.Service.Parts
import MetricLedger.Service.Serving
import MetricLedger.Settings.Database
import MetricLedger.Settings.Listener
import MetricLedger.System.Errno
import MetricLedger.System.Isolated
import MetricLedger.Text.Blank
import MetricLedger.Text.Digits
import MetricLedger.Text.Hex
import MetricLedger.Text.Integer
import MetricLedger.Text.Pieces
import MetricLedger.Text.Printable
import MetricLedger.Text.Quoted
import MetricLedger.Text.Similarity
import MetricLedger.Text.Utf8
import MetricLedger.Text.Words
import MetricLedger.Time.Calendar
import MetricLedger.Time.Instant
import MetricLedger.Time.Rfc3339
import MetricLedger.Uuid
import MetricLedger.Proofs.Api.Acceptance
import MetricLedger.Proofs.Api.Buffering
import MetricLedger.Proofs.Api.CrossOrigin
import MetricLedger.Proofs.Api.Dispatch
import MetricLedger.Proofs.Api.Failures
import MetricLedger.Proofs.Api.Finite
import MetricLedger.Proofs.Api.Head
import MetricLedger.Proofs.Api.Listing
import MetricLedger.Proofs.Api.Outage
import MetricLedger.Proofs.Api.Recall
import MetricLedger.Proofs.Api.Recording
import MetricLedger.Proofs.Api.Validity
import MetricLedger.Proofs.Cli.Negative
import MetricLedger.Proofs.Cli.Output
import MetricLedger.Proofs.Cli.Recording
import MetricLedger.Proofs.Cli.Sending
import MetricLedger.Proofs.Http.Escape
import MetricLedger.Proofs.Http.Form
import MetricLedger.Proofs.Http.Path
import MetricLedger.Proofs.Json.Acceptance
import MetricLedger.Proofs.Json.Extent
import MetricLedger.Proofs.Json.Fields
import MetricLedger.Proofs.Json.Grammar
import MetricLedger.Proofs.Json.Meaning
import MetricLedger.Proofs.Json.NumberText
import MetricLedger.Proofs.Json.Numeral
import MetricLedger.Proofs.Json.Object
import MetricLedger.Proofs.Json.Printed
import MetricLedger.Proofs.Json.Quoting
import MetricLedger.Proofs.Json.Range
import MetricLedger.Proofs.Json.Recognition
import MetricLedger.Proofs.Json.Refusal
import MetricLedger.Proofs.Json.Reread
import MetricLedger.Proofs.Json.Row
import MetricLedger.Proofs.Json.Scalar
import MetricLedger.Proofs.Json.Skip
import MetricLedger.Proofs.Json.Spelling
import MetricLedger.Proofs.Json.Unambiguity
import MetricLedger.Proofs.Log.Line
import MetricLedger.Proofs.Metric.Order
import MetricLedger.Proofs.Metric.Record
import MetricLedger.Proofs.Metric.Reread
import MetricLedger.Proofs.Metric.Sharing
import MetricLedger.Proofs.Metric.Submission
import MetricLedger.Proofs.Net.Address
import MetricLedger.Proofs.Net.Socket
import MetricLedger.Proofs.Number.Decimal
import MetricLedger.Proofs.Number.Rounding
import MetricLedger.Proofs.Number.Shortest
import MetricLedger.Proofs.Number.Size
import MetricLedger.Proofs.Postgres.Outcome
import MetricLedger.Proofs.Postgres.Plan
import MetricLedger.Proofs.Postgres.Reading
import MetricLedger.Proofs.Postgres.Requests
import MetricLedger.Proofs.Postgres.Table
import MetricLedger.Proofs.Postgres.Texts
import MetricLedger.Proofs.Result
import MetricLedger.Proofs.Sampling.Recorder
import MetricLedger.Proofs.Settings.Address
import MetricLedger.Proofs.Settings.Reread
import MetricLedger.Proofs.Text.Digits
import MetricLedger.Proofs.Text.Pieces
import MetricLedger.Proofs.Text.Utf8
import MetricLedger.Proofs.Time.Calendar
import MetricLedger.Proofs.Time.Rfc3339
import MetricLedger.Proofs.Uuid
