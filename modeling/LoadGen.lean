import LoadGen.Config.Basic
import LoadGen.Config.Check
import LoadGen.Config.Command
import LoadGen.Config.Document
import LoadGen.Config.Draft
import LoadGen.Config.Fault
import LoadGen.Connection.Basic
import LoadGen.Connection.Fault
import LoadGen.Decimal.Binary
import LoadGen.Decimal.Reading
import LoadGen.Decimal.Shortest
import LoadGen.Json.Value
import LoadGen.Keys.Alphabet
import LoadGen.Keys.Key
import LoadGen.Limits.OpenFiles
import LoadGen.Log.Event
import LoadGen.Log.Line
import LoadGen.Main
import LoadGen.Pool.Acquire
import LoadGen.Pool.Basic
import LoadGen.Program.Arguments
import LoadGen.Program.Execution
import LoadGen.Proofs.Config.Accepted
import LoadGen.Proofs.Config.Decides
import LoadGen.Proofs.Config.Exact
import LoadGen.Proofs.Config.Names
import LoadGen.Proofs.Config.Valid
import LoadGen.Proofs.Connection.Dialogues
import LoadGen.Proofs.Connection.Exchanges
import LoadGen.Proofs.Keys.Capacity
import LoadGen.Proofs.Keys.Identity
import LoadGen.Proofs.Keys.Reading
import LoadGen.Proofs.Lifecycle.Calls
import LoadGen.Proofs.Lifecycle.Census
import LoadGen.Proofs.Lifecycle.Probing
import LoadGen.Proofs.Lifecycle.Sound
import LoadGen.Proofs.Lifecycle.Watermarks
import LoadGen.Proofs.Lists.Places
import LoadGen.Proofs.Pool.Attempts
import LoadGen.Proofs.Pool.Company
import LoadGen.Proofs.Pool.Rotation
import LoadGen.Proofs.Pool.Tasks
import LoadGen.Proofs.Random.Bounds
import LoadGen.Proofs.Random.Words
import LoadGen.Proofs.Report.Consistency
import LoadGen.Proofs.Report.Figures
import LoadGen.Proofs.Report.Slower
import LoadGen.Proofs.Run.Accounts
import LoadGen.Proofs.Run.Chronicle
import LoadGen.Proofs.Run.Course
import LoadGen.Proofs.Run.Descriptors
import LoadGen.Proofs.Run.Draws
import LoadGen.Proofs.Run.Reach
import LoadGen.Proofs.Run.Reports
import LoadGen.Proofs.Run.Selections
import LoadGen.Proofs.Run.Sights
import LoadGen.Proofs.Run.Simulated
import LoadGen.Proofs.Run.Unsent
import LoadGen.Proofs.Run.Wakes
import LoadGen.Proofs.Stats.Buckets
import LoadGen.Proofs.Stats.Counters
import LoadGen.Proofs.Stats.Holding
import LoadGen.Proofs.Stats.Quantiles
import LoadGen.Proofs.Stats.Windowing
import LoadGen.Proofs.Trial.Basic
import LoadGen.Proofs.Trial.Clients
import LoadGen.Proofs.Trial.Ledger
import LoadGen.Proofs.Trial.OneClient
import LoadGen.Proofs.Trial.Server
import LoadGen.Proofs.Trial.Sound
import LoadGen.Proofs.Trial.Turns
import LoadGen.Proofs.Weights.Binary
import LoadGen.Proofs.Weights.Exact
import LoadGen.Proofs.Weights.Rounding
import LoadGen.Proofs.Weights.Selection
import LoadGen.Proofs.Weights.Shares
import LoadGen.Proofs.Weights.Tables
import LoadGen.Proofs.Wire.Decoding
import LoadGen.Proofs.Wire.Encoding
import LoadGen.Proofs.Wire.Framing
import LoadGen.Proofs.Wire.Readers
import LoadGen.Proofs.Wire.Replies
import LoadGen.Proofs.Wire.Requests
import LoadGen.Proofs.Wire.Texts
import LoadGen.Proofs.Worker.Buffers
import LoadGen.Proofs.Worker.Lending
import LoadGen.Proofs.Worker.Returns
import LoadGen.Proofs.Worker.Watch
import LoadGen.Proofs.Workload.Alternation
import LoadGen.Proofs.Workload.Dispatched
import LoadGen.Proofs.Workload.Guards
import LoadGen.Proofs.Workload.Integers
import LoadGen.Proofs.Workload.Populations
import LoadGen.Proofs.Workload.Selects
import LoadGen.Proofs.Workload.Values
import LoadGen.Random.Source
import LoadGen.Report.Format
import LoadGen.Report.JsonLines
import LoadGen.Report.Plain
import LoadGen.Report.Window
import LoadGen.Run.Basic
import LoadGen.Run.Fault
import LoadGen.Simulation.Basic
import LoadGen.Simulation.Network
import LoadGen.Simulation.Outcome
import LoadGen.Simulation.PoolSession
import LoadGen.Stats.Collector
import LoadGen.Stats.Histogram
import LoadGen.Stats.Window
import LoadGen.Text.Blank
import LoadGen.Text.Numeral
import LoadGen.Text.Quoted
import LoadGen.Text.Unseen
import LoadGen.Time.Span
import LoadGen.Toml.Document
import LoadGen.Toml.Scalar
import LoadGen.Toml.Value
import LoadGen.Transport.Signal
import LoadGen.Weights.Table
import LoadGen.Weights.Weight
import LoadGen.Wire.Reply
import LoadGen.Wire.Request
import LoadGen.Wire.Response
import LoadGen.Worker.Basic
import LoadGen.Worker.Health
import LoadGen.Worker.Step
import LoadGen.Workload.Lifecycle
import LoadGen.Workload.Selection
import LoadGen.Workload.Survey
import LoadGen.Workload.Values
import LoadGen.Workload.Violation
