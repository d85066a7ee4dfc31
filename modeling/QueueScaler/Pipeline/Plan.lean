import QueueScaler.Pipeline.Demand
import QueueScaler.Pipeline.Propagation
/-!
# From queue depths to replicas

The plan of a pipeline: every consumed queue is to be drained by a share of its depth per minute,
what is drained comes back downstream, and the sum of both calls for replicas.

## Main definitions

* `addOrigin`, `Wiring.originRates`: the rates at which the sampled queues are to be drained.
* `Wiring.addFollowUp`, `Wiring.followUpRates`: what these rates cause downstream, one origin at a
  time and all together.
* `totalRates`: both together.
* `Plan`: the rates and the replicas they call for.
-/

namespace QueueScaler

variable {R : Type}

/-- Adds the rate at which a queue with a known depth is to be drained: its depth times the share of
it to be drained per minute. -/
def addOrigin [Rate R] (decrease : R) (depths : Table Nat) (rates : Table R) (queue : String) :
    Table R :=
  match depths.get? queue with
  | some depth => rates.insert queue (Rate.ofCount depth * decrease)
  | none => rates

/-- The rates at which the consumed queues with a known depth are to be drained. -/
def Wiring.originRates [Rate R] (w : Wiring R) (decrease : R) (depths : Table Nat) : Table R :=
  w.consumed.fold (fun rates queue _ ↦ addOrigin decrease depths rates queue) ∅

/-- Adds the rates caused downstream by one origin. -/
def Wiring.addFollowUp [Zero R] [Add R] [Mul R] (w : Wiring R) (sum : Table R) (origin : String)
    (rate : R) : Table R :=
  match w.propagate origin rate with
  | .ok rates => addRates sum rates
  | .error _ => sum

/-- The rates caused downstream by all origins, added up in name order of the origins. -/
def Wiring.followUpRates [Zero R] [Add R] [Mul R] (w : Wiring R) (origins : Table R) : Table R :=
  origins.fold w.addFollowUp ∅

/-- The rates of the origins together with what they cause downstream. -/
def totalRates [Zero R] [Add R] (origins followUp : Table R) : Table R := addRates origins followUp

/-- What the rates of some origins come to. -/
structure Plan (R : Type) where
  /-- The rates caused downstream. -/
  followUp : Table R
  /-- The rates of the origins and those caused downstream. -/
  total : Table R
  /-- The replicas each service needs. -/
  demand : Except LookupFault (Table Nat)

/-- The plan for the rates of some origins, with the follow-up rates or without. -/
def Wiring.plan [Rate R] (w : Wiring R) (followUp : Bool) (origins : Table R) : Plan R :=
  let caused := if followUp then w.followUpRates origins else ∅
  let total := totalRates origins caused
  ⟨caused, total, w.demand total⟩

end QueueScaler
