/-!
# Moments and spans of time

## Main definitions

* `Instant`, `Span`: a moment and a length of time, in nanoseconds.
* `Instant.elapsed`: the time from one moment to another, zero if the clock went backwards.
* `Instant.epochSeconds`: whole seconds since the epoch.
-/

namespace QueueScaler

/-- A moment, as nanoseconds since the epoch. It may lie before the epoch. -/
abbrev Instant := Int

/-- A length of time in nanoseconds. -/
abbrev Span := Nat

namespace Span

/-- The nanoseconds of a number of milliseconds. -/
def ofMillis (n : Nat) : Span := n * 1000000

/-- The nanoseconds of a number of seconds. -/
def ofSeconds (n : Nat) : Span := n * 1000000000

/-- The whole seconds in a span. -/
def seconds (s : Span) : Nat := s / 1000000000

end Span

namespace Instant

/-- The moment a number of milliseconds after the epoch. -/
def ofMillis (n : Int) : Instant := n * 1000000

/-- The time from `earlier` to `now`, or zero if `now` lies before it. -/
def elapsed (earlier now : Instant) : Span := (now - earlier).toNat

/-- The whole seconds since the epoch, or zero before it. -/
def epochSeconds (t : Instant) : Nat := Span.seconds t.toNat

end Instant

end QueueScaler
