import QueueScaler.Table
/-!
# Queues and deployments in memory

Stand-ins for the outside, for rehearsals and dry runs: queues whose depths are set by hand, and a
cluster that carries out scale commands at once and keeps a record of them. Each can be told to
fail.

## Main definitions

* `Rehearsal.Queues`, `Rehearsal.Queues.depth`: the queues.
* `Rehearsal.Cluster`, `Rehearsal.Cluster.listing`, `Rehearsal.Cluster.scale`: the cluster.
* `Rehearsal.Sink`: where scale commands go.
-/

namespace QueueScaler.Rehearsal

/-- Queues in memory. -/
structure Queues where
  /-- The depths that are set; other queues are empty. -/
  depths : Table Nat := ∅
  /-- The queues that cannot be queried. -/
  failing : NameSet := ∅

/-- The depth of a queue, or the text of a failure. -/
def Queues.depth (q : Queues) (queue : String) : Except String Nat :=
  if queue ∈ q.failing then .error s!"queue {queue} unavailable" else .ok (q.depths.getD queue 0)

/-- A cluster in memory. -/
structure Cluster where
  /-- The replicas of the deployments. -/
  replicas : Table Nat := ∅
  /-- The commands carried out, the earliest first. -/
  commands : List (String × Nat) := []
  /-- The services that cannot be scaled. -/
  refusing : NameSet := ∅
  /-- Whether listings fail. -/
  hidden : Bool := false

namespace Cluster

/-- The replicas of all deployments, or the text of a failure. -/
def listing (c : Cluster) : Except String (Table Nat) :=
  if c.hidden then .error "replica listing unavailable" else .ok c.replicas

/-- Gives a service a number of replicas, whether it had any or not. -/
def scale (c : Cluster) (service : String) (replicas : Nat) : Except String Cluster :=
  if service ∈ c.refusing then .error s!"scaling {service} rejected"
  else .ok { c with
    replicas := c.replicas.insert service replicas
    commands := c.commands ++ [(service, replicas)] }

/-- The counts that a service was given, the earliest first. -/
def commandsFor (c : Cluster) (service : String) : List Nat :=
  c.commands.filterMap fun (s, n) ↦ if s = service then some n else none

end Cluster

/-- Where scale commands go. -/
inductive Sink where
  /-- To the cluster. -/
  | cluster
  /-- Nowhere: they are noted and count as done. -/
  | log
  deriving DecidableEq

/-- Sends a scale command. -/
def Sink.scale (sink : Sink) (c : Cluster) (service : String) (replicas : Nat) :
    Except String Cluster :=
  match sink with
  | .cluster => c.scale service replicas
  | .log => .ok c

end QueueScaler.Rehearsal
