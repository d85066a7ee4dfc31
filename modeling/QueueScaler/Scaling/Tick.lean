import QueueScaler.Config.Basic
import QueueScaler.Metrics.Gauge
import QueueScaler.Pipeline.Downstream
import QueueScaler.Pipeline.Plan
import QueueScaler.Scaling.History
import QueueScaler.Scaling.Report
/-!
# One tick of the control loop

A tick samples every queue, derives the demand, compares it with the replicas of the deployments,
decides on every service before it commands anything, and then commands. Calls made together come
in one by one, in any order; each is taken into account as it comes in. A service is decided only
if every queue that could add to its demand was sampled.

Depth queries and commands are tasks of their own, and one that dies is told by its silence. The
tick waits for the listing itself: a listing that dies takes the tick with it.

## Main definitions

* `Autoscaler`: a pipeline and a strategy.
* `Sample`: the depths of one round of queries; `Sample.note` and `Sample.close` build it.
* `Autoscaler.blindServices`: the services whose demand could be understated.
* `Autoscaler.plan`: what the sampled depths come to.
* `Autoscaler.assess`: the report of a tick up to its decisions.
* `Report.acknowledge`: the effect of an answered command.
* `Encounter.dies`: whether a tick dies on its way.
* `Autoscaler.tick`, `Autoscaler.returned?`: a whole tick, and the report that it returns.
* `Autoscaler.after`: what is left after a run of ticks.
-/

namespace QueueScaler

variable {R : Type} [Rate R]

/-- What is scaled, and how. -/
structure Autoscaler (R : Type) [Rate R] where
  /-- The queues and their consumers. -/
  pipeline : Pipeline R
  /-- How to scale. -/
  strategy : Strategy R

/-- What outlives a tick. -/
structure Memory (R : Type) where
  /-- The gauges. -/
  gauges : Gauges
  /-- The last scale-ups. -/
  history : History := ∅
  /-- The report of the last completed tick. -/
  lastReport : Option (Report R) := none

/-! ### Sampling -/

/-- The depths of one round of queries. -/
structure Sample where
  /-- The depths of the queues whose query succeeded. -/
  depths : Table Nat := ∅
  /-- The queues whose query failed. -/
  failed : Table CallFailure := ∅

namespace Sample

/-- Takes the outcome of a query into account. A query that dies leaves no trace. -/
def note (s : Sample) (a : Arrival Nat) : Sample :=
  match a.answer with
  | .ok depth => { s with depths := s.depths.insert a.name depth }
  | .error .aborted => s
  | .error failure => { s with failed := s.failed.insert a.name failure }

/-- Adds a queue to those that failed if nothing was heard of it. -/
def noteMissing (s : Sample) (queue : String) : Sample :=
  if queue ∈ s.depths ∨ queue ∈ s.failed then s
  else { s with failed := s.failed.insert queue .aborted }

/-- The sample when all queries are done: the queues that nothing was heard of have failed. -/
def close (s : Sample) (queues : List String) : Sample := queues.foldl noteMissing s

end Sample

/-- Shows the outcome of a query in the gauges, if it succeeded. -/
def Gauges.note (g : Gauges) (a : Arrival Nat) : Gauges :=
  match a.answer with
  | .ok depth => g.set a.name depth a.moment
  | .error _ => g

/-! ### Deciding -/

namespace Autoscaler

variable (a : Autoscaler R)

/-- Adds the queues whose rates are unknown when a queue could not be sampled: this queue and, with
follow-up, everything downstream of it. -/
def addBlindQueues (met : NameSet) (queue : String) : NameSet :=
  let met := met.add queue
  if a.strategy.followUpEnabled then met.union (a.pipeline.wiring.downstream queue) else met

/-- The queues whose rates are unknown when the given queues could not be sampled. -/
def blindQueues (failed : Table CallFailure) : NameSet := failed.keys.foldl a.addBlindQueues ∅

/-- Adds the service that drains a queue, if there is one. -/
def addConsumer (services : NameSet) (queue : String) : NameSet :=
  match a.pipeline.wiring.get? queue with
  | some b => if b.hasConsumer then services.add b.service else services
  | none => services

/-- The services whose demand could be understated because a queue that feeds them could not be
sampled. -/
def blindServices (failed : Table CallFailure) : NameSet :=
  (a.blindQueues failed).keys.foldl a.addConsumer ∅

/-- Decides on one service, unless it is blind or not listed. -/
def decideService (history : History) (now : Instant) (blind : NameSet) (r : Report R)
    (service : String) (required : Nat) : Report R :=
  if service ∈ blind then r
  else
    match r.currentReplicas.get? service with
    | none => { r with skipped := r.skipped.insert service .notListed }
    | some current =>
      let decision := Decision.choose current required a.strategy.maxReplicas
        (history.since? service now) (Span.ofSeconds a.strategy.stabilizationSeconds)
      { r with decisions := r.decisions.insert service decision }

/-- The rates at which the sampled queues are to be drained. -/
def origins (depths : Table Nat) : Table R :=
  a.pipeline.wiring.originRates a.strategy.decreasePerMinute depths

/-- What the sampled depths come to. -/
def plan (depths : Table Nat) : Plan R :=
  a.pipeline.wiring.plan a.strategy.followUpEnabled (a.origins depths)

/-- The report of a tick up to its rates. -/
def survey (startedAt : Instant) (sample : Sample) : Report R :=
  let plan := a.plan sample.depths
  { startedAt, scalingEnabled := a.strategy.scalingEnabled
    depths := sample.depths, failedQueues := sample.failed
    originRates := a.origins sample.depths
    followUpRates := plan.followUp, totalRates := plan.total }

/-- The report of a tick up to its decisions. With scaling disabled it ends with the depths, and
without a listing it ends with the demand. When the listing has died, nobody gets to see it. -/
def assess (startedAt : Instant) (sample : Sample) (listing : Answer (Table Nat))
    (history : History) (decidedAt : Instant) : Report R :=
  if ¬ a.strategy.scalingEnabled then
    { startedAt, scalingEnabled := a.strategy.scalingEnabled
      depths := sample.depths, failedQueues := sample.failed }
  else
    match (a.plan sample.depths).demand with
    | .error _ => a.survey startedAt sample
    | .ok demand =>
      let blind := a.blindServices sample.failed
      let report :=
        { a.survey startedAt sample with demand, skipped := blind.map fun _ _ ↦ .inputUnknown }
      match listing with
      | .error _ => report
      | .ok currentReplicas =>
        demand.fold (a.decideService history decidedAt blind) { report with currentReplicas }

end Autoscaler

/-! ### Commanding -/

/-- Takes the outcome of a command into account. An acknowledged scale-up is recorded, also when the
ceiling kept it from adding replicas; a command that dies leaves no trace. -/
def Report.acknowledge (r : Report R) (history : History) (a : Arrival Unit) :
    Report R × History :=
  match r.decisions.get? a.name with
  | none => (r, history)
  | some decision =>
    match decision.target, a.answer with
    | none, _ => (r, history)
    | some _, .error .aborted => (r, history)
    | some _, .error failure =>
      ({ r with failedCommands := r.failedCommands.insert a.name failure }, history)
    | some target, .ok () =>
      let r := { r with applied := r.applied.insert a.name target }
      match decision with
      | .scaleUp .. => (r, history.record a.name a.moment)
      | _ => (r, history)

/-! ### The whole tick -/

/-- What a tick meets on its way. -/
structure Encounter where
  /-- The moment when it starts. -/
  startedAt : Instant
  /-- The outcomes of the depth queries, as they come in. -/
  samples : List (Arrival Nat)
  /-- The outcome of the listing. -/
  listing : Answer (Table Nat)
  /-- The moment of the decisions. -/
  decidedAt : Instant
  /-- The outcomes of the commands, as they come in. -/
  commands : List (Arrival Unit)

/-- Whether a tick dies on its way, together with its listing. With scaling disabled there is no
listing. -/
def Encounter.dies (e : Encounter) (scalingEnabled : Bool) : Bool :=
  scalingEnabled && decide (e.listing.failure? = some .aborted)

theorem Encounter.dies_iff {e : Encounter} {scalingEnabled : Bool} :
    e.dies scalingEnabled = true ↔ scalingEnabled = true ∧ e.listing = .error .aborted := by
  rw [dies, Bool.and_eq_true, decide_eq_true_iff, Answer.failure?_eq_some_iff]

namespace Autoscaler

variable (a : Autoscaler R)

/-- The sample that a round of queries comes to. -/
def sample (samples : List (Arrival Nat)) : Sample :=
  (samples.foldl Sample.note {}).close a.pipeline.wiring.keys

/-- The decisions of a tick, before anything is commanded. -/
def decisions (m : Memory R) (e : Encounter) : Report R :=
  a.assess e.startedAt (a.sample e.samples) e.listing m.history e.decidedAt

/-- A whole tick: its report as it stands in the end, and what outlives it. The gauges are set as
the depths come in; the report is published at the very end, and not by a tick that dies before. -/
def tick (m : Memory R) (e : Encounter) : Report R × Memory R :=
  let (report, history) :=
    e.commands.foldl (fun (r, h) arrival ↦ r.acknowledge h arrival) (a.decisions m e, m.history)
  (report,
    { gauges := e.samples.foldl Gauges.note m.gauges, history
      lastReport :=
        if e.dies a.strategy.scalingEnabled then m.lastReport else some report })

/-- The report that a tick returns. One that dies returns none, however far its report had come. -/
def returned? (m : Memory R) (e : Encounter) : Option (Report R) :=
  if e.dies a.strategy.scalingEnabled then none else some (a.tick m e).1

/-- What outlives a run of ticks, one after the other. -/
def after (m : Memory R) (es : List Encounter) : Memory R :=
  es.foldl (fun m e ↦ (a.tick m e).2) m

end Autoscaler

end QueueScaler
