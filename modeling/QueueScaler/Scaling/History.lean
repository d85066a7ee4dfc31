import QueueScaler.Instant
import QueueScaler.Table
/-!
# When services were last scaled up

The only thing that one tick hands on to the decisions of the next.

## Main definitions

* `History`: the moment of each service's last scale-up.
* `History.record`, `History.since?`, `History.epochSeconds`: writing and reading it.
-/

namespace QueueScaler

/-- The moment of each service's last scale-up. -/
abbrev History := Table Instant

namespace History

/-- Records a scale-up. -/
def record (h : History) (service : String) (at' : Instant) : History := h.insert service at'

/-- The time since the last scale-up of a service, zero if that lies ahead. -/
def since? (h : History) (service : String) (now : Instant) : Option Span :=
  (h.get? service).map fun at' ↦ Instant.elapsed at' now

/-- The last scale-ups in whole seconds since the epoch. -/
def epochSeconds (h : History) : Table Nat := h.map fun _ at' ↦ Instant.epochSeconds at'

end History

end QueueScaler
