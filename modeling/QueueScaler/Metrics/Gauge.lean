import QueueScaler.Instant
import QueueScaler.Table
/-!
# Gauges of queue depths

Each gauge shows the depth a queue had when it was last sampled. A queue whose query fails keeps its
gauge.

## Main definitions

* `Gauge`: a depth and the moment of its sample.
* `Gauges`: the gauges of all queues sampled so far, under the label of the application.
* `Gauges.set`, `Gauges.value?`, `Gauges.readings`: writing and reading them.
-/

namespace QueueScaler

/-- The depth of a queue when it was last sampled. -/
structure Gauge where
  /-- The number of messages. -/
  value : Nat
  /-- The moment of the sample. -/
  sampledAt : Instant
  deriving DecidableEq

/-- The gauges of the queues sampled so far. -/
structure Gauges where
  /-- The label of the application. -/
  application : String
  /-- The gauges by queue. -/
  values : Table Gauge := ∅

namespace Gauges

/-- Sets the gauge of a queue. -/
def set (g : Gauges) (queue : String) (value : Nat) (at' : Instant) : Gauges :=
  { g with values := g.values.insert queue ⟨value, at'⟩ }

/-- The value of a queue's gauge. -/
def value? (g : Gauges) (queue : String) : Option Nat := (g.values.get? queue).map Gauge.value

/-- The values of all gauges, in name order of the queues. -/
def readings (g : Gauges) : List (String × Nat) :=
  g.values.entries.map fun (queue, gauge) ↦ (queue, gauge.value)

end Gauges

end QueueScaler
