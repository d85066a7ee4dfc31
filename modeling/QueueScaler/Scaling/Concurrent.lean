import QueueScaler.Scaling.Tick
/-!
# Several calls of a tick at once

A tick may be called while another one is under way. The calls take their steps in any order; a
guard, which one call at a time can hold, keeps them apart. A call that finds the guard held goes
back without having done anything. A call whose listing dies dies as well, and gives the guard back
in dying.

## Main definitions

* `Phase`: how far a call is.
* `Step`: what a call may do or meet next.
* `System`: the guard, what the calls share, and the calls.
* `System.step`, `System.run`: one step of one call, and any sequence of steps.
-/

namespace QueueScaler

variable {R : Type} [Rate R]

/-- How far a call is. -/
inductive Phase (R : Type) where
  /-- It has not looked at the guard yet. -/
  | waiting
  /-- It holds the guard, and depth queries are under way. -/
  | sampling (startedAt : Instant) (sample : Sample)
  /-- It waits for the listing. -/
  | listing (startedAt : Instant) (sample : Sample)
  /-- It has decided, and commands are under way. -/
  | commanding (report : Report R)
  /-- Its report is published. -/
  | published (report : Report R)
  /-- It has gone back, with its report if it held the guard. -/
  | returned (report : Option (Report R))
  /-- It has died while it held the guard. -/
  | died

/-- What a call may do or meet next. -/
inductive Step where
  /-- It looks at the guard. -/
  | enter (now : Instant)
  /-- The outcome of a depth query comes in. -/
  | depth (arrival : Arrival Nat)
  /-- All depth queries are done. -/
  | depthsDone
  /-- The outcome of the listing comes in, and the call decides or dies. -/
  | listed (listing : Answer (Table Nat)) (now : Instant)
  /-- The outcome of a command comes in. -/
  | command (arrival : Arrival Unit)
  /-- All commands are done, and the report is published. -/
  | publish
  /-- The guard is given back. -/
  | leave

/-- The guard, what the calls share, and the calls themselves. -/
structure System (R : Type) where
  /-- Whether a call holds the guard. -/
  guarded : Bool := false
  /-- What outlives a tick. -/
  memory : Memory R
  /-- The calls. -/
  calls : List (Phase R)

namespace System

variable (a : Autoscaler R)

/-- One step of a call: its next phase, and what becomes of the guard and of what is shared. A step
that does not fit the phase changes nothing. With scaling disabled nothing is asked of the
deployments. A call that dies leaves what is shared as it is at that moment. -/
def stepCall (guarded : Bool) (m : Memory R) : Phase R → Step → Phase R × Bool × Memory R
  | .waiting, .enter now =>
    if guarded then (.returned none, guarded, m) else (.sampling now {}, true, m)
  | .sampling start sample, .depth arrival =>
    (.sampling start (sample.note arrival), guarded,
      { m with gauges := m.gauges.note arrival })
  | .sampling start sample, .depthsDone =>
    let sample := sample.close a.pipeline.wiring.keys
    if a.strategy.scalingEnabled then (.listing start sample, guarded, m)
    else (.commanding (a.assess start sample (.ok ∅) m.history start), guarded, m)
  | .listing start sample, .listed listing now =>
    if listing.failure? = some .aborted then (.died, false, m)
    else (.commanding (a.assess start sample listing m.history now), guarded, m)
  | .commanding report, .command arrival =>
    let (report, history) := report.acknowledge m.history arrival
    (.commanding report, guarded, { m with history })
  | .commanding report, .publish =>
    (.published report, guarded, { m with lastReport := some report })
  | .published report, .leave => (.returned (some report), false, m)
  | phase, _ => (phase, guarded, m)

/-- One step of the call with a given number. -/
def step (s : System R) (event : Nat × Step) : System R :=
  match s.calls[event.1]? with
  | none => s
  | some phase =>
    let (phase, guarded, memory) := stepCall a s.guarded s.memory phase event.2
    { guarded, memory, calls := s.calls.set event.1 phase }

/-- Any sequence of steps. -/
def run (s : System R) (events : List (Nat × Step)) : System R := events.foldl (step a) s

end System

/-- The steps of a call that meets nothing but the given encounter. With scaling disabled there is
no listing to wait for, and with one that dies the steps come to an end. -/
def Encounter.steps (e : Encounter) (scalingEnabled : Bool) : List Step :=
  .enter e.startedAt :: e.samples.map .depth ++ [.depthsDone] ++
    (if scalingEnabled then [.listed e.listing e.decidedAt] else []) ++
    (if e.dies scalingEnabled then [] else e.commands.map .command ++ [.publish, .leave])

end QueueScaler
