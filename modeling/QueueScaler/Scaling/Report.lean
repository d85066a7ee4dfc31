import QueueScaler.Scaling.Call
import QueueScaler.Scaling.Decision
import QueueScaler.Table
/-!
# The report of a tick

Everything that one tick saw, decided and achieved.

## Main definitions

* `SkipReason`: why a service was left out of the decisions, with its text.
* `Report`: the report.
* `Report.commands`: the commands that its decisions amount to.

## Main results

* `Report.mem_commands`, `Report.nodup_commands`: the commands of a report, no two to one service.
-/

namespace QueueScaler

/-- Why a service is left out of the decisions. -/
inductive SkipReason where
  /-- A queue that feeds it could not be sampled. -/
  | inputUnknown
  /-- It is not among the deployments. -/
  | notListed
  deriving DecidableEq, Repr

/-- The text of a reason. -/
def SkipReason.message : SkipReason → String
  | .inputUnknown => "input queue depth unavailable"
  | .notListed => "not found in replica listing"

/-- The report of a tick. -/
structure Report (R : Type) where
  /-- The moment when the tick started. -/
  startedAt : Instant
  /-- Whether anything may be scaled. -/
  scalingEnabled : Bool
  /-- The sampled depths. -/
  depths : Table Nat := ∅
  /-- The queues that could not be sampled. -/
  failedQueues : Table CallFailure := ∅
  /-- The rates at which the sampled queues are to be drained. -/
  originRates : Table R := ∅
  /-- What these rates cause downstream. -/
  followUpRates : Table R := ∅
  /-- Both together. -/
  totalRates : Table R := ∅
  /-- The replicas each service needs. -/
  demand : Table Nat := ∅
  /-- The replicas each deployment has. -/
  currentReplicas : Table Nat := ∅
  /-- The decisions by service. -/
  decisions : Table Decision := ∅
  /-- The services left out of the decisions. -/
  skipped : Table SkipReason := ∅
  /-- The replica counts acknowledged. -/
  applied : Table Nat := ∅
  /-- The commands that failed. -/
  failedCommands : Table CallFailure := ∅

namespace Report

variable {R : Type}

/-- The commands that the decisions amount to: a service and its new replica count. -/
def commands (r : Report R) : List (String × Nat) :=
  r.decisions.entries.filterMap fun (service, decision) ↦ decision.target.map (service, ·)

theorem mem_commands {r : Report R} {service : String} {n : Nat} :
    (service, n) ∈ r.commands ↔ ∃ d, r.decisions.get? service = some d ∧ d.target = some n := by
  simp only [commands, List.mem_filterMap, Option.map_eq_some_iff, Prod.mk.injEq]
  constructor
  · rintro ⟨⟨_, d⟩, hd, _, hn, rfl, rfl⟩
    exact ⟨d, Table.mem_entries_iff.mp hd, hn⟩
  · rintro ⟨d, hd, hn⟩
    exact ⟨(service, d), Table.mem_entries_iff.mpr hd, n, hn, rfl, rfl⟩

/-- No service gets two commands. -/
theorem nodup_commands (r : Report R) : (r.commands.map Prod.fst).Nodup := by
  refine List.pairwise_map.mpr (r.decisions.ordered.filterMap _ fun d d' hlt c hc c' hc' heq ↦ ?_)
  obtain ⟨n, -, rfl⟩ := Option.map_eq_some_iff.mp hc
  obtain ⟨n', -, rfl⟩ := Option.map_eq_some_iff.mp hc'
  exact String.lt_irrefl d.1 (heq ▸ hlt)

end Report

end QueueScaler
