import QueueScaler.Decimal.Shortest
import QueueScaler.Pipeline.Cycle
/-!
# Valid pipelines

A pipeline is a wiring in which every consumed queue is drained at a positive finite rate, every
production rate is finite and not negative, and no message can come back to a queue it has passed.
The type carries the outcome of these checks, so whatever takes a pipeline may rely on them.

## Main definitions

* `WiringFault`: why a wiring is no pipeline, with its text.
* `Wiring.fault?`: the first fault, rates before cycles and both in name order.
* `Pipeline`: a wiring without fault; `Pipeline.ofWiring` checks one.
* `LookupFault`: why a consumption rate cannot be told, with its text.
* `Wiring.consumptionRate`: the rate at which a given service drains a queue.
-/

namespace QueueScaler

variable {R : Type} [Rate R]

/-- Why a wiring is no pipeline. -/
inductive WiringFault (R : Type) where
  /-- A consumed queue without a positive finite consumption rate. -/
  | consumption (queue : String) (rate : R)
  /-- A production rate that is negative or not finite. -/
  | production (queue target : String) (rate : R)
  /-- A production cycle through a queue. -/
  | cycle (queue : String)
  deriving DecidableEq

/-- The text of a fault. -/
def WiringFault.message : WiringFault Float → String
  | .consumption queue rate =>
    s!"invalid value for queues.{queue}.consumption_rate: must be positive, got " ++
      Decimal.ofFloat rate
  | .production queue target rate =>
    s!"invalid value for queues.{queue}.produces.{target}: " ++
      "must be a non-negative number, got " ++ Decimal.ofFloat rate
  | .cycle queue => s!"topology contains a cycle through queue {queue}"

/-- The first invalid rate of a queue: its consumption rate, if it has a consumer, before its
production rates in name order. -/
def Binding.rateFault? (queue : String) (b : Binding R) : Option (WiringFault R) :=
  if b.hasConsumer ∧ ¬ (Rate.isFinite b.consumptionRate ∧ 0 < b.consumptionRate) then
    some (.consumption queue b.consumptionRate)
  else
    b.produces.entries.findSome? fun (target, rate) ↦
      if ¬ Rate.isFinite rate ∨ rate < 0 then some (.production queue target rate) else none

namespace Wiring

/-- The first invalid rate of a wiring, in name order of the queues. -/
def rateFault? (w : Wiring R) : Option (WiringFault R) :=
  w.entries.findSome? fun (queue, b) ↦ b.rateFault? queue

/-- The first fault of a wiring: an invalid rate, or else a cycle. -/
def fault? (w : Wiring R) : Option (WiringFault R) :=
  match w.rateFault? with
  | some fault => some fault
  | none => w.findCycle?.map .cycle

end Wiring

/-- A wiring with valid rates and without cycles. -/
structure Pipeline (R : Type) [Rate R] where
  /-- The managed queues and their bindings. -/
  wiring : Wiring R
  /-- The wiring passes every check. -/
  valid : wiring.fault? = none

/-- The pipeline of a wiring, or its first fault. -/
def Pipeline.ofWiring (w : Wiring R) : Except (WiringFault R) (Pipeline R) :=
  match h : w.fault? with
  | some fault => .error fault
  | none => .ok ⟨w, h⟩

/-- Why a consumption rate cannot be told. -/
inductive LookupFault where
  /-- The queue is not managed. -/
  | unknownQueue (queue : String)
  /-- The queue is drained by another service. -/
  | otherConsumer (queue configured requested : String)
  deriving DecidableEq, Repr

/-- The rate at which one replica of a service drains a queue. Asking for another service than the
queue's own is a fault. -/
def Wiring.consumptionRate (w : Wiring R) (queue service : String) : Except LookupFault R :=
  match w.get? queue with
  | none => .error (.unknownQueue queue)
  | some b =>
    if b.service = service then .ok b.consumptionRate
    else .error (.otherConsumer queue b.service service)

end QueueScaler
