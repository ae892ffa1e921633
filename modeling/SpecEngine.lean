import SpecEngine.CommandLine.Grammar
import SpecEngine.CommandLine.Options
import SpecEngine.CommandLine.Run
import SpecEngine.Config.Basic
import SpecEngine.Config.Environment
import SpecEngine.Config.File
import SpecEngine.Config.LogLevel
import SpecEngine.Config.Manifest
import SpecEngine.Disk
import SpecEngine.Engine.Distribution
import SpecEngine.Engine.Plan
import SpecEngine.Engine.Scenario
import SpecEngine.Engine.Session
import SpecEngine.Engine.Spec
import SpecEngine.Engine.Step
import SpecEngine.Engine.Stream
import SpecEngine.Engine.Suite
import SpecEngine.Engine.Validation
import SpecEngine.Event.Basic
import SpecEngine.Event.Bus
import SpecEngine.Item.BuildErrors
import SpecEngine.Item.Spec
import SpecEngine.Item.Step
import SpecEngine.Json.Reader
import SpecEngine.Json.Shape
import SpecEngine.Json.Value
import SpecEngine.Main
import SpecEngine.Proofs.AbortedAttempts
import SpecEngine.Proofs.Accounting
import SpecEngine.Proofs.Activity
import SpecEngine.Proofs.Agreement
import SpecEngine.Proofs.Announced
import SpecEngine.Proofs.Assignment
import SpecEngine.Proofs.BrokenRoundTrips
import SpecEngine.Proofs.ByteOrder
import SpecEngine.Proofs.CellReadings
import SpecEngine.Proofs.Classification
import SpecEngine.Proofs.CompletionOrder
import SpecEngine.Proofs.Concepts
import SpecEngine.Proofs.Containment
import SpecEngine.Proofs.Counters
import SpecEngine.Proofs.Decimals
import SpecEngine.Proofs.Delivery
import SpecEngine.Proofs.Distribution
import SpecEngine.Proofs.Durations
import SpecEngine.Proofs.ErrorFiling
import SpecEngine.Proofs.EvenShares
import SpecEngine.Proofs.FailureCounts
import SpecEngine.Proofs.Filters
import SpecEngine.Proofs.History
import SpecEngine.Proofs.Isolation
import SpecEngine.Proofs.JsonText
import SpecEngine.Proofs.KindDispatch
import SpecEngine.Proofs.Lifecycle
import SpecEngine.Proofs.Lines
import SpecEngine.Proofs.ListedRows
import SpecEngine.Proofs.Lockstep
import SpecEngine.Proofs.LostRunner
import SpecEngine.Proofs.Merging
import SpecEngine.Proofs.Nesting
import SpecEngine.Proofs.Obstacles
import SpecEngine.Proofs.Padding
import SpecEngine.Proofs.Precedence
import SpecEngine.Proofs.Readings
import SpecEngine.Proofs.RecordedFailures
import SpecEngine.Proofs.Replay
import SpecEngine.Proofs.Rerun
import SpecEngine.Proofs.Restriction
import SpecEngine.Proofs.ResultTree
import SpecEngine.Proofs.Retries
import SpecEngine.Proofs.RoundTrips
import SpecEngine.Proofs.RowIndependence
import SpecEngine.Proofs.RowSelection
import SpecEngine.Proofs.RunRecords
import SpecEngine.Proofs.StartedSteps
import SpecEngine.Proofs.Steady
import SpecEngine.Proofs.StepUses
import SpecEngine.Proofs.StepValidation
import SpecEngine.Proofs.Storage
import SpecEngine.Proofs.StoredRecords
import SpecEngine.Proofs.StreamHistory
import SpecEngine.Proofs.Success
import SpecEngine.Proofs.TableRuns
import SpecEngine.Proofs.TagGrammar
import SpecEngine.Proofs.TagMeaning
import SpecEngine.Proofs.TagSpacing
import SpecEngine.Proofs.UseReports
import SpecEngine.Proofs.WireFormat
import SpecEngine.Proofs.WrittenRows
import SpecEngine.Record.Failures
import SpecEngine.Record.Status
import SpecEngine.Record.Store
import SpecEngine.Report.Console
import SpecEngine.Report.Duration
import SpecEngine.Result.Basic
import SpecEngine.Result.Json
import SpecEngine.Result.Merge
import SpecEngine.Runner.Behavior
import SpecEngine.Runner.Command
import SpecEngine.Runner.Message
import SpecEngine.Runner.Process
import SpecEngine.Runner.Script
import SpecEngine.Runner.StandIn
import SpecEngine.Special.Arguments
import SpecEngine.Table.Csv
import SpecEngine.Table.Data
import SpecEngine.Table.Rows
import SpecEngine.Tag.Expr
import SpecEngine.Tag.Token
import SpecEngine.Text.Basic
import SpecEngine.Text.CaseTable
import SpecEngine.Text.Decimal
import SpecEngine.Text.Lower
import SpecEngine.Text.Utf8
import SpecEngine.Yaml.Document
import SpecEngine.Yaml.Flow
import SpecEngine.Yaml.Scalar
import SpecEngine.Yaml.Scheme
