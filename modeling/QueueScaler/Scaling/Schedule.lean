import QueueScaler.Instant
/-!
# When ticks start

A timer falls due once per period. A tick runs to its end before the timer is looked at again; due
times that pass meanwhile are dropped, and the first one left sets the rhythm again. A signal ends
the loop. When the timer is due and the signal is there at the same time, either may be taken. All
times are in nanoseconds from the start of the loop. A tick that dies is not foreseen here; it would
take the loop with it.

## Main definitions

* `Timer`: a period and the next due time.
* `Timer.rearm`: the next due time after the timer has fired.
* `Timer.drive`: the whole loop.

## Main results

* `Timer.lt_rearm`: the timer always moves on, which is why the loop ends after the signal.
-/

namespace QueueScaler

/-- A periodic timer. -/
structure Timer where
  /-- The time between two due times. -/
  period : Nat
  /-- The next due time. -/
  due : Nat
  /-- A timer never falls due twice at once. -/
  period_pos : 0 < period

namespace Timer

/-- How late a timer may fire and still count as punctual: five milliseconds. -/
def tolerance : Nat := Span.ofMillis 5

/-- The due time after the timer has fired at `now`. A punctual timer falls due one period after its
last due time; a late one at the next due time that is still ahead. -/
def nextDue (t : Timer) (now : Nat) : Nat :=
  if now ≤ t.due + tolerance then t.due + t.period
  else now + t.period - (now - t.due) % t.period

/-- The timer after it has fired at `now`. -/
def rearm (t : Timer) (now : Nat) : Timer := { t with due := t.nextDue now }

theorem lt_rearm (t : Timer) (now : Nat) : t.due < (t.rearm now).due := by
  show t.due < t.nextDue now
  unfold nextDue
  have := t.period_pos
  split
  · omega
  · have := Nat.mod_lt (now - t.due) t.period_pos
    omega

/-- Runs ticks until the signal ends the loop. `tick` runs one that starts at a given moment and
tells how long it takes. What is ready first is taken; the choices settle what is taken when timer
and signal are ready at once, the signal when they are used up. The answer is the last state and the
moment of the end. -/
def drive {σ : Type} (tick : σ → Nat → σ × Nat) (signal : Nat) (t : Timer) (now : Nat)
    (choices : List Bool) (s : σ) : σ × Nat :=
  if max t.due now < max signal now then
    let (s, time) := tick s (max t.due now)
    drive tick signal (t.rearm (max t.due now)) (max t.due now + time) choices s
  else if max signal now < max t.due now then (s, max signal now)
  else
    match choices with
    | true :: choices =>
      let (s, time) := tick s (max t.due now)
      drive tick signal (t.rearm (max t.due now)) (max t.due now + time) choices s
    | _ => (s, max signal now)
  termination_by (choices.length, signal - t.due)
  decreasing_by
    · have := t.lt_rearm (max t.due now)
      exact Prod.Lex.right _ (by omega)
    · exact Prod.Lex.left _ _ (Nat.lt_succ_self _)

end Timer

end QueueScaler
