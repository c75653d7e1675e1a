import SignalPipeline.CommandLine.Arguments
import SignalPipeline.CommandLine.Program
import SignalPipeline.CommandLine.Replay
import SignalPipeline.CommandLine.Word
import SignalPipeline.Decimal.Binary64
import SignalPipeline.Decimal.Fixed
import SignalPipeline.Decimal.Format
import SignalPipeline.Decimal.Reading
import SignalPipeline.Decimal.Shortest
import SignalPipeline.Decimal.Whole
import SignalPipeline.Decimal.Word
import SignalPipeline.Digest.Canonical
import SignalPipeline.Digest.Sha256
import SignalPipeline.Engine.ConfigurationError
import SignalPipeline.Engine.Error
import SignalPipeline.Engine.LogFormat
import SignalPipeline.Engine.Settings
import SignalPipeline.Entries
import SignalPipeline.Fixture
import SignalPipeline.Graph.Cycle
import SignalPipeline.Graph.Issue
import SignalPipeline.Graph.Order
import SignalPipeline.Graph.OrderLemmas
import SignalPipeline.Graph.Repetition
import SignalPipeline.Graph.StageGraph
import SignalPipeline.Graph.StageGraphLemmas
import SignalPipeline.Json.Basic
import SignalPipeline.Json.Document
import SignalPipeline.Json.Literal
import SignalPipeline.Json.MemberLemmas
import SignalPipeline.Json.Number
import SignalPipeline.Json.Printer
import SignalPipeline.Json.Quoted
import SignalPipeline.Json.Reader
import SignalPipeline.Json.Token
import SignalPipeline.Main
import SignalPipeline.Node.Config
import SignalPipeline.Node.Enrichment
import SignalPipeline.Node.Order
import SignalPipeline.Node.Outcome
import SignalPipeline.Node.Provider
import SignalPipeline.Node.Runner
import SignalPipeline.Node.State
import SignalPipeline.Node.Trace
import SignalPipeline.Node.Validation
import SignalPipeline.Proofs.Dataflow.Confluence
import SignalPipeline.Proofs.Dataflow.FailFast
import SignalPipeline.Proofs.Dataflow.Instant
import SignalPipeline.Proofs.Dataflow.Meaning
import SignalPipeline.Proofs.Dataflow.Run
import SignalPipeline.Proofs.Decimal.Difference
import SignalPipeline.Proofs.Decimal.Digits
import SignalPipeline.Proofs.Decimal.Finite
import SignalPipeline.Proofs.Decimal.Interval
import SignalPipeline.Proofs.Decimal.Shortest
import SignalPipeline.Proofs.Digest.Canonical
import SignalPipeline.Proofs.Digest.Sha256
import SignalPipeline.Proofs.Entries.Insertion
import SignalPipeline.Proofs.Graph.Agreement
import SignalPipeline.Proofs.Graph.Build
import SignalPipeline.Proofs.Graph.Cycle
import SignalPipeline.Proofs.Graph.DepthFirst
import SignalPipeline.Proofs.Graph.Least
import SignalPipeline.Proofs.Graph.Occurrence
import SignalPipeline.Proofs.Graph.Search
import SignalPipeline.Proofs.Graph.Thinning
import SignalPipeline.Proofs.Graph.Views
import SignalPipeline.Proofs.Json.Alike
import SignalPipeline.Proofs.Json.Bounds
import SignalPipeline.Proofs.Json.Canonical
import SignalPipeline.Proofs.Json.Context
import SignalPipeline.Proofs.Json.Injective
import SignalPipeline.Proofs.Json.Layout
import SignalPipeline.Proofs.Json.Literal
import SignalPipeline.Proofs.Json.Numeral
import SignalPipeline.Proofs.Json.Parse
import SignalPipeline.Proofs.Json.Record
import SignalPipeline.Proofs.Json.Scan
import SignalPipeline.Proofs.Json.Spelling
import SignalPipeline.Proofs.Node.Account
import SignalPipeline.Proofs.Node.Checkpoint
import SignalPipeline.Proofs.Node.Consultation
import SignalPipeline.Proofs.Node.Disabled
import SignalPipeline.Proofs.Node.Duration
import SignalPipeline.Proofs.Node.FailSoft
import SignalPipeline.Proofs.Node.Listing
import SignalPipeline.Proofs.Node.Plan
import SignalPipeline.Proofs.Node.Record
import SignalPipeline.Proofs.Node.Refusal
import SignalPipeline.Proofs.Node.Valid
import SignalPipeline.Proofs.Node.Verdict
import SignalPipeline.Proofs.Replay.Archive
import SignalPipeline.Proofs.Replay.Drift
import SignalPipeline.Proofs.Replay.Findings
import SignalPipeline.Proofs.Replay.Loading
import SignalPipeline.Proofs.Replay.Novelty
import SignalPipeline.Proofs.Replay.Recomputation
import SignalPipeline.Proofs.Replay.Record
import SignalPipeline.Proofs.Replay.Repetition
import SignalPipeline.Proofs.Replay.Report
import SignalPipeline.Proofs.Run.Binding
import SignalPipeline.Proofs.Run.BreadthFirst
import SignalPipeline.Proofs.Run.CriticalPath
import SignalPipeline.Proofs.Run.Dispatch
import SignalPipeline.Proofs.Run.Finish
import SignalPipeline.Proofs.Run.Reach
import SignalPipeline.Proofs.Run.Stream
import SignalPipeline.Proofs.Run.Waiting
import SignalPipeline.Proofs.Text.Lines
import SignalPipeline.Replay.Comparator
import SignalPipeline.Replay.Comparison
import SignalPipeline.Replay.Drift
import SignalPipeline.Replay.File
import SignalPipeline.Replay.GraphPipeline
import SignalPipeline.Replay.Outcome
import SignalPipeline.Replay.Report
import SignalPipeline.Replay.ScoredResult
import SignalPipeline.Replay.Snapshot
import SignalPipeline.Replay.Store
import SignalPipeline.Run.Accounting
import SignalPipeline.Run.Context
import SignalPipeline.Run.Event
import SignalPipeline.Run.Executor
import SignalPipeline.Run.Handler
import SignalPipeline.Run.Journal
import SignalPipeline.Run.Progress
import SignalPipeline.Run.StageMeta
import SignalPipeline.Stage.Definition
import SignalPipeline.Text.Blank
import SignalPipeline.Text.Debug
import SignalPipeline.Text.Printed
import SignalPipeline.Text.Search
import SignalPipeline.Time.Calendar
import SignalPipeline.Time.Text
import SignalPipeline.Time.Timestamp
