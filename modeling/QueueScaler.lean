import QueueScaler.CommandLine.Arguments
import QueueScaler.CommandLine.Execution
import QueueScaler.Config.Basic
import QueueScaler.Config.Reader
import QueueScaler.Decimal.Binary64
import QueueScaler.Decimal.Nearest
import QueueScaler.Decimal.Shortest
import QueueScaler.Http.Exchange
import QueueScaler.Http.StatusCode
import QueueScaler.Http.Uri
import QueueScaler.Instant
import QueueScaler.Json.Basic
import QueueScaler.Json.Document
import QueueScaler.Json.Reader
import QueueScaler.Json.Record
import QueueScaler.Main
import QueueScaler.Metrics.Exposition
import QueueScaler.Metrics.Gauge
import QueueScaler.Pipeline.Basic
import QueueScaler.Pipeline.Cycle
import QueueScaler.Pipeline.Demand
import QueueScaler.Pipeline.Document
import QueueScaler.Pipeline.Downstream
import QueueScaler.Pipeline.Plan
import QueueScaler.Pipeline.Propagation
import QueueScaler.Pipeline.Wiring
import QueueScaler.Proofs.Arithmetic.Saturation
import QueueScaler.Proofs.Arithmetic.Unpacked
import QueueScaler.Proofs.Config.Acceptance
import QueueScaler.Proofs.Http.Authority
import QueueScaler.Proofs.Http.Exchange
import QueueScaler.Proofs.Http.Uri
import QueueScaler.Proofs.Loop
import QueueScaler.Proofs.Metrics.Reading
import QueueScaler.Proofs.Pipeline.Acyclicity
import QueueScaler.Proofs.Pipeline.Apart
import QueueScaler.Proofs.Pipeline.Balance
import QueueScaler.Proofs.Pipeline.CycleSearch
import QueueScaler.Proofs.Pipeline.CyclicFlow
import QueueScaler.Proofs.Pipeline.Demand
import QueueScaler.Proofs.Pipeline.ExpansionOrder
import QueueScaler.Proofs.Pipeline.FollowUp
import QueueScaler.Proofs.Pipeline.Inflows
import QueueScaler.Proofs.Pipeline.Overload
import QueueScaler.Proofs.Pipeline.Paths
import QueueScaler.Proofs.Pipeline.Plan
import QueueScaler.Proofs.Pipeline.Reachability
import QueueScaler.Proofs.Pipeline.RecursiveSearch
import QueueScaler.Proofs.Pipeline.Validity
import QueueScaler.Proofs.Pipeline.Walk
import QueueScaler.Proofs.Rehearsal.Course
import QueueScaler.Proofs.Remote.Addressing
import QueueScaler.Proofs.Remote.Depths
import QueueScaler.Proofs.Scaling.Accounting
import QueueScaler.Proofs.Scaling.Blindness
import QueueScaler.Proofs.Scaling.Bounds
import QueueScaler.Proofs.Scaling.Commanding
import QueueScaler.Proofs.Scaling.Convergence
import QueueScaler.Proofs.Scaling.Deciding
import QueueScaler.Proofs.Scaling.Deeds
import QueueScaler.Proofs.Scaling.Futility
import QueueScaler.Proofs.Scaling.Gauging
import QueueScaler.Proofs.Scaling.Hysteresis
import QueueScaler.Proofs.Scaling.Independence
import QueueScaler.Proofs.Scaling.Interleaving
import QueueScaler.Proofs.Scaling.Isolation
import QueueScaler.Proofs.Scaling.Monotonicity
import QueueScaler.Proofs.Scaling.Outages
import QueueScaler.Proofs.Scaling.Overload
import QueueScaler.Proofs.Scaling.Sampling
import QueueScaler.Proofs.Scaling.ScaleDown
import QueueScaler.Proofs.Scaling.Shutdown
import QueueScaler.Proofs.Scaling.Sufficiency
import QueueScaler.Proofs.Scaling.Timing
import QueueScaler.Proofs.Scaling.Trace
import QueueScaler.Proofs.Text.Digits
import QueueScaler.Proofs.Text.Span
import QueueScaler.Proofs.Text.Trim
import QueueScaler.Rate
import QueueScaler.Rehearsal.Disturbance
import QueueScaler.Rehearsal.Stage
import QueueScaler.Rehearsal.Surroundings
import QueueScaler.Remote.Deployments
import QueueScaler.Remote.Queues
import QueueScaler.Scaling.Call
import QueueScaler.Scaling.Concurrent
import QueueScaler.Scaling.Decision
import QueueScaler.Scaling.History
import QueueScaler.Scaling.Report
import QueueScaler.Scaling.Schedule
import QueueScaler.Scaling.Tick
import QueueScaler.Status
import QueueScaler.Table
import QueueScaler.Text.Blank
import QueueScaler.Text.Formless
import QueueScaler.Text.Quoted
import QueueScaler.Text.Scanner
import QueueScaler.Text.Utf8
import QueueScaler.Toml.Document
import QueueScaler.Toml.Line
import QueueScaler.Toml.Moment
import QueueScaler.Toml.Number
import QueueScaler.Toml.Statement
import QueueScaler.Toml.Text
import QueueScaler.Toml.Tree
import QueueScaler.Toml.Value
