import QueueScaler.Rehearsal.Surroundings
import QueueScaler.Scaling.Call
/-!
# Disturbed calls

What may befall the calls of a rehearsal: they may take their time, before or after they have an
effect, and they may die. A call that takes longer than the limit is given up; what it had not done
by then never happens.

## Main definitions

* `Rehearsal.Delay`, `Rehearsal.Disturbances`: what is to befall the calls.
* `Rehearsal.Disturbances.query`, `Rehearsal.Disturbances.list`, `Rehearsal.Disturbances.command`:
  the outcome of a call under these circumstances.
-/

namespace QueueScaler.Rehearsal

/-- A delay of the queries of a queue. -/
structure Delay where
  /-- How long a query waits. -/
  time : Span
  /-- How many more queries it befalls; all of them if this is not given. -/
  left : Option Nat
  deriving DecidableEq

/-- What is to befall the calls. -/
structure Disturbances where
  /-- The delays of depth queries. -/
  queryDelays : Table Delay := ∅
  /-- The queues whose queries die. -/
  queryDeaths : NameSet := ∅
  /-- The delay of listings. -/
  listingDelay : Span := 0
  /-- The delays of commands before they are carried out. -/
  commandDelays : Table Span := ∅
  /-- The delays of commands after they have been carried out. -/
  commandLags : Table Span := ∅
  /-- The services whose commands die. -/
  commandDeaths : NameSet := ∅

/-- An outcome with the text of its failure as the outcome of a call. -/
def reported {α : Type} : Except String α → Answer α
  | .ok a => .ok a
  | .error reason => .error (.reported reason)

namespace Disturbances

/-- How long the next query of a queue waits. -/
def queryDelay (d : Disturbances) (queue : String) : Span :=
  match d.queryDelays.get? queue with
  | none => 0
  | some delay => if delay.left = some 0 then 0 else delay.time

/-- The disturbances that are left after a query of a queue. -/
def afterQuery (d : Disturbances) (queue : String) : Disturbances :=
  match d.queryDelays.get? queue with
  | none => d
  | some delay =>
    { d with
      queryDelays := d.queryDelays.insert queue { delay with left := delay.left.map (· - 1) } }

/-- The outcome of a depth query: it waits, and then dies or is answered. -/
def query (d : Disturbances) (limit : Span) (q : Queues) (queue : String) : Answer Nat :=
  Answer.within limit (d.queryDelay queue)
    (if queue ∈ d.queryDeaths then .error .aborted else reported (q.depth queue))

/-- The outcome of a listing. -/
def list (d : Disturbances) (limit : Span) (c : Cluster) : Answer (Table Nat) :=
  Answer.within limit d.listingDelay (reported c.listing)

/-- The outcome of a command, the cluster after it, and the time it takes. Only the way to the
cluster is disturbed. There a command dies at once, or it waits and is sent; only one that is
carried out lags. -/
def command (d : Disturbances) (limit : Span) (sink : Sink) (c : Cluster) (service : String)
    (replicas : Nat) : Answer Unit × Cluster × Span :=
  match sink with
  | .log => (.ok (), c, 0)
  | .cluster =>
    let delay := d.commandDelays.getD service 0
    if service ∈ d.commandDeaths then (.error .aborted, c, 0)
    else if limit < delay then (.error .timedOut, c, limit)
    else
      match c.scale service replicas with
      | .error reason => (.error (.reported reason), c, delay)
      | .ok c =>
        let whole := delay + d.commandLags.getD service 0
        (Answer.within limit whole (.ok ()), c, min limit whole)

/-- How long a round of queries takes that are made together, each given up after the limit. -/
def roundTime (d : Disturbances) (limit : Span) (queues : List String) : Span :=
  queues.foldl (fun longest queue ↦ max longest (min limit (d.queryDelay queue))) 0

end Disturbances

end QueueScaler.Rehearsal
