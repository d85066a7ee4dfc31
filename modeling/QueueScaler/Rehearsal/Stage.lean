import QueueScaler.Rehearsal.Disturbance
import QueueScaler.Scaling.Concurrent
import QueueScaler.Scaling.Schedule
/-!
# Rehearsals

An autoscaler among queues and deployments in memory. Delays take no real time: each call says how
long it takes, and the loop reckons with that. The clock that dates scale-ups is another one; it
moves on by a nanosecond whenever it is read.

## Main definitions

* `Rehearsal.Stage`: the autoscaler and its surroundings.
* `Rehearsal.Stage.tick`: one tick.
* `Rehearsal.Stage.tickTwice`: two ticks called together.
* `Rehearsal.Stage.run`: the control loop.
* `Rehearsal.Stage.elapse`: dates all scale-ups back.
-/

namespace QueueScaler.Rehearsal

variable {R : Type} [Rate R]

/-- An autoscaler and its surroundings. -/
structure Stage (R : Type) [Rate R] where
  /-- The autoscaler. -/
  autoscaler : Autoscaler R
  /-- The limit of every call. -/
  callLimit : Span
  /-- Where commands go. -/
  sink : Sink
  /-- What outlives a tick. -/
  memory : Memory R
  /-- The queues. -/
  queues : Queues := {}
  /-- The cluster. -/
  cluster : Cluster := {}
  /-- What is to befall the calls. -/
  disturbances : Disturbances := {}
  /-- The last reading of the clock. -/
  clock : Instant := 0
  /-- How often each queue has been queried. -/
  queries : Table Nat := ∅

namespace Stage

/-- Moves the clock on by a reading. -/
def read (s : Stage R) : Stage R := { s with clock := s.clock + 1 }

/-- The managed queues. -/
def queueNames (s : Stage R) : List String := s.autoscaler.pipeline.wiring.keys

/-- Counts a query of a queue. -/
def countQuery (s : Stage R) (queue : String) : Stage R :=
  { s with
    disturbances := s.disturbances.afterQuery queue
    queries := s.queries.alter queue fun n ↦ n.getD 0 + 1 }

/-- A round of commands made together: the stage, their outcomes so far, and how long the longest
takes. -/
structure Round (R : Type) [Rate R] where
  /-- The stage after the commands. -/
  stage : Stage R
  /-- The outcomes so far. -/
  arrivals : List (Arrival Unit) := []
  /-- The time that the round takes. -/
  time : Span := 0

/-- Sends one more command of a round. -/
def Round.send (r : Round R) (command : String × Nat) : Round R :=
  let s := r.stage
  let (answer, cluster, time) :=
    s.disturbances.command s.callLimit s.sink s.cluster command.1 command.2
  ⟨{ s with cluster }, r.arrivals ++ [⟨command.1, answer, s.clock⟩], max r.time time⟩

/-- How long a tick waits for its listing. With scaling disabled there is none. -/
def listingTime (s : Stage R) : Span :=
  if s.autoscaler.strategy.scalingEnabled then min s.callLimit s.disturbances.listingDelay else 0

/-- What a tick would meet, the surroundings after it, and the time it takes. With scaling disabled
nothing is asked of the cluster. -/
def encounter (s : Stage R) : Encounter × Stage R × Span :=
  let s := s.read
  let startedAt := s.clock
  let samples : List (Arrival Nat) := s.queueNames.map fun q ↦
    ⟨q, s.disturbances.query s.callLimit s.queues q, s.clock⟩
  let queryTime := s.disturbances.roundTime s.callLimit s.queueNames
  let s := s.queueNames.foldl countQuery s
  let listing := s.disturbances.list s.callLimit s.cluster
  let s := s.read
  let e : Encounter := ⟨startedAt, samples, listing, s.clock, []⟩
  let commands := (s.autoscaler.decisions s.memory e).commands
  let round := commands.foldl Round.send { stage := s.read }
  ({ e with commands := round.arrivals }, round.stage, queryTime + s.listingTime + round.time)

/-- One tick: its report, the stage after it, and the time it takes. -/
def tick (s : Stage R) : Report R × Stage R × Span :=
  let (e, after, time) := s.encounter
  let (report, memory) := s.autoscaler.tick s.memory e
  (report, { after with memory }, time)

/-- Whether a tick would have to wait for anything at all. -/
def waits (s : Stage R) : Bool := !s.queueNames.isEmpty || decide (0 < s.listingTime)

/-- Two ticks called together, with their reports. The second call looks at the guard as soon as the
first has to wait; if that never happens, it comes after the first. -/
def tickTwice (s : Stage R) : Option (Report R) × Option (Report R) × Stage R :=
  if s.waits then
    let (e, after, _) := s.encounter
    let system : System R := { memory := s.memory, calls := [.waiting, .waiting] }
    let events := match e.steps s.autoscaler.strategy.scalingEnabled with
      | [] => []
      | enter :: rest => (0, enter) :: (1, .enter e.startedAt) :: rest.map (0, ·)
    let final := system.run s.autoscaler events
    let report (n : Nat) : Option (Report R) :=
      match final.calls[n]? with
      | some (.returned report) => report
      | _ => none
    (report 0, report 1, { after with memory := final.memory })
  else
    let (first, s, _) := s.tick
    let (second, s, _) := s.tick
    (some first, some second, s)

/-- The control loop, until a signal at the given time after its start. A tick that falls due just
when the signal is given goes first. -/
def run (s : Stage R) (period signal : Span) : Stage R :=
  if h : 0 < period then
    let step (s : Stage R) (_ : Nat) : Stage R × Nat :=
      let (_, s, time) := s.tick
      (s, time)
    (Timer.drive step signal ⟨period, 0, h⟩ 0 [true] { s with queries := ∅ }).1
  else { s with queries := ∅ }

/-- Records a scale-up of a service some time ago; a negative time lies ahead. -/
def recordScaleUp (s : Stage R) (service : String) (ago : Int) : Stage R :=
  let s := s.read
  { s with memory := { s.memory with history := s.memory.history.record service (s.clock - ago) } }

/-- Dates all recorded scale-ups back. -/
def elapse (s : Stage R) (time : Int) : Stage R :=
  { s with memory := { s.memory with history := s.memory.history.map fun _ t ↦ t - time } }

/-- The whole seconds since the last scale-up of each service. -/
def ages (s : Stage R) : Table Nat :=
  s.memory.history.map fun _ t ↦ Span.seconds (Instant.elapsed t (s.clock + 1))

/-- The counts that each service was given. -/
def commandLog (s : Stage R) : Table (List Nat) :=
  s.cluster.commands.foldl
    (fun log (service, n) ↦ log.alter service fun old ↦ old.getD [] ++ [n]) ∅

end Stage

end QueueScaler.Rehearsal
