import TraceReplay.Admission
import TraceReplay.Barrier
import TraceReplay.Clock
import TraceReplay.Collector
import TraceReplay.Collector.Feed
import TraceReplay.CommandLine
import TraceReplay.CommandLine.Options
import TraceReplay.Config
import TraceReplay.Config.File
import TraceReplay.Config.Load
import TraceReplay.Counters
import TraceReplay.Decimal.Binary64
import TraceReplay.Decimal.Literal
import TraceReplay.Decimal.Shortest
import TraceReplay.Decimal.Style
import TraceReplay.Deployment
import TraceReplay.Dispatch
import TraceReplay.Document
import TraceReplay.Driver
import TraceReplay.Error
import TraceReplay.Experiment
import TraceReplay.Files.Path
import TraceReplay.Files.Tree
import TraceReplay.Function
import TraceReplay.Function.File
import TraceReplay.Generation
import TraceReplay.Health
import TraceReplay.Invocation
import TraceReplay.Invocation.File
import TraceReplay.Invoker
import TraceReplay.Invoker.Emulated
import TraceReplay.Invoker.Scripted
import TraceReplay.Json.Document
import TraceReplay.Json.Members
import TraceReplay.Json.Reading
import TraceReplay.Json.Tree
import TraceReplay.Json.Writing
import TraceReplay.Mailbox
import TraceReplay.Main
import TraceReplay.Metric
import TraceReplay.Metric.File
import TraceReplay.Notice
import TraceReplay.Output.File
import TraceReplay.Output.Lines
import TraceReplay.Output.Table
import TraceReplay.Policy
import TraceReplay.Policy.Assignment
import TraceReplay.Policy.Mode
import TraceReplay.Power
import TraceReplay.Proofs.Admission.Placement
import TraceReplay.Proofs.Admission.Session
import TraceReplay.Proofs.Collector.Intake
import TraceReplay.Proofs.Collector.Outcome
import TraceReplay.Proofs.Collector.Session
import TraceReplay.Proofs.Collector.Stream
import TraceReplay.Proofs.Config.Valid
import TraceReplay.Proofs.Decimal.Ratio
import TraceReplay.Proofs.Driver.Check
import TraceReplay.Proofs.Driver.Course
import TraceReplay.Proofs.Driver.Effort
import TraceReplay.Proofs.Driver.Failure
import TraceReplay.Proofs.Driver.Family
import TraceReplay.Proofs.Driver.Faultless
import TraceReplay.Proofs.Driver.Loop
import TraceReplay.Proofs.Driver.Mode
import TraceReplay.Proofs.Driver.Schedule
import TraceReplay.Proofs.Driver.Turn
import TraceReplay.Proofs.Experiment.Annotation
import TraceReplay.Proofs.Experiment.Failure
import TraceReplay.Proofs.Experiment.Independence
import TraceReplay.Proofs.Experiment.Persistence
import TraceReplay.Proofs.Experiment.Provision
import TraceReplay.Proofs.Experiment.Success
import TraceReplay.Proofs.Files.Outputs
import TraceReplay.Proofs.Files.Shape
import TraceReplay.Proofs.Function.LogicalName
import TraceReplay.Proofs.Function.Variant
import TraceReplay.Proofs.Policy.Copies
import TraceReplay.Proofs.Policy.FanOut
import TraceReplay.Proofs.Policy.Grouping
import TraceReplay.Proofs.Policy.Verdict
import TraceReplay.Proofs.Replay.Abort
import TraceReplay.Proofs.Replay.Arrivals
import TraceReplay.Proofs.Replay.Beginning
import TraceReplay.Proofs.Replay.Books
import TraceReplay.Proofs.Replay.Boundaries
import TraceReplay.Proofs.Replay.Calls
import TraceReplay.Proofs.Replay.Completeness
import TraceReplay.Proofs.Replay.Content
import TraceReplay.Proofs.Replay.Credit
import TraceReplay.Proofs.Replay.EarlyStop
import TraceReplay.Proofs.Replay.Ended
import TraceReplay.Proofs.Replay.Failure
import TraceReplay.Proofs.Replay.FanOut
import TraceReplay.Proofs.Replay.Flawless
import TraceReplay.Proofs.Replay.Housekeeping
import TraceReplay.Proofs.Replay.Labels
import TraceReplay.Proofs.Replay.Lanes
import TraceReplay.Proofs.Replay.Ledger
import TraceReplay.Proofs.Replay.Manned
import TraceReplay.Proofs.Replay.OnSchedule
import TraceReplay.Proofs.Replay.Orderly
import TraceReplay.Proofs.Replay.Perfect
import TraceReplay.Proofs.Replay.Prompt
import TraceReplay.Proofs.Replay.Refinement
import TraceReplay.Proofs.Replay.Rehearsal
import TraceReplay.Proofs.Replay.Rest
import TraceReplay.Proofs.Replay.Safety
import TraceReplay.Proofs.Replay.Simulation
import TraceReplay.Proofs.Replay.Soundness
import TraceReplay.Proofs.Replay.Standing
import TraceReplay.Proofs.Replay.Tally
import TraceReplay.Proofs.Replay.Termination
import TraceReplay.Proofs.Replay.Track
import TraceReplay.Proofs.Replay.Variants
import TraceReplay.Proofs.Replay.View
import TraceReplay.Proofs.Sampling.Course
import TraceReplay.Proofs.Specification.Fits
import TraceReplay.Random.Draw
import TraceReplay.Random.Generator
import TraceReplay.Random.Ziggurat
import TraceReplay.Replay.World
import TraceReplay.Sampling
import TraceReplay.Specification
import TraceReplay.Specification.File
import TraceReplay.Synthesis
import TraceReplay.Timekeeper
import TraceReplay.Yaml.Cursor
import TraceReplay.Yaml.Document
import TraceReplay.Yaml.Layout
import TraceReplay.Yaml.Node
import TraceReplay.Yaml.Scalar
import TraceReplay.Yaml.Token
import TraceReplay.Proofs.Function.Persisted
import TraceReplay.Proofs.Policy.Siblings
import TraceReplay.Proofs.Specification.Drawn
import TraceReplay.Proofs.Output.Faithful
import TraceReplay.Proofs.Synthesis.Runnable
import TraceReplay.Proofs.Sampling.Outcome
import TraceReplay.Proofs.Replay.Accounting
