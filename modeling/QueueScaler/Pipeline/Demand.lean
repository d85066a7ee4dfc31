import QueueScaler.Pipeline.Basic
import QueueScaler.Text.Quoted
/-!
# Replicas that rates call for

The replicas a service needs for one of its queues are the queue's rate divided by what one replica
drains, rounded up; less than a quarter of a replica counts as nothing. A service that consumes
several queues needs the most that any of them calls for.

## Main definitions

* `LookupFault.message`: the text of a fault.
* `replicasFor`: the replicas that a rate calls for, given what one replica drains.
* `Wiring.required`: the replicas of a service for one queue.
* `Wiring.demand`: the replicas of every service, from the rates of the queues.
-/

namespace QueueScaler

variable {R : Type} [Rate R]

/-- The text of a fault. -/
def LookupFault.message : LookupFault → String
  | .unknownQueue queue => s!"queue {queue} has no consumer binding"
  | .otherConsumer queue configured requested =>
    s!"queue {queue} is consumed by " ++ Text.quote configured ++ ", not " ++ Text.quote requested

/-- What one replica is taken to drain per minute: never less than one message. -/
def effectiveCapacity (capacity : R) : R := if capacity < 1 then 1 else capacity

/-- The replicas that a rate calls for. A share below a quarter of a replica is negligible, and so
is one that is not a number. -/
def replicasFor (capacity rate : R) : Nat :=
  let share := rate / effectiveCapacity capacity
  if Rate.isNaN share ∨ share < Rate.quarter then 0 else Rate.ceilCount share

/-- The replicas of a service that the rate of one queue calls for. -/
def Wiring.required (w : Wiring R) (queue service : String) (rate : R) : Except LookupFault Nat :=
  (w.consumptionRate queue service).map fun capacity ↦ replicasFor capacity rate

/-- Takes the rate of one queue into account: the queue's service needs at least what that rate
calls for. A queue that is not managed, or has no consumer, calls for nothing. -/
def Wiring.addDemand (w : Wiring R) (demand : Table Nat) (entry : String × R) :
    Except LookupFault (Table Nat) :=
  match w.get? entry.1 with
  | none => .ok demand
  | some b =>
    if b.hasConsumer then
      (w.required entry.1 b.service entry.2).map fun n ↦
        demand.alter b.service fun old ↦ max (old.getD 0) n
    else .ok demand

/-- The replicas that the rates of the queues call for, by service. -/
def Wiring.demand (w : Wiring R) (rates : Table R) : Except LookupFault (Table Nat) :=
  rates.entries.foldlM w.addDemand ∅

end QueueScaler
