import Mathlib
import QueueScaler.Scaling.Schedule
/-!
# The schedule of the control loop

A run of the loop is told by its stints, the ticks with their starts and the times that they take.
Due times lie on a grid of multiples of the period. Since a timer that is late skips the due times
it has missed, the next one is always the first point of the grid after the start of the last tick.

## Main definitions

* `Stint`: a tick of the loop, in time.
* `Timer.stints`: the ticks of a run of the loop.
* `Timer.Course`: a run of the loop, from one look at the timer and the signal to its end.
* `Timer.Regular`: a timer that falls due at multiples of its period.

## Main results

* `Timer.course_drive`: what the loop does, as a course.
* `Timer.Regular.due_rearm`: when a regular timer falls due next.
* `Timer.ticks_skip`: the schedule skips, never overlaps and never bursts.
-/

namespace QueueScaler

/-- A tick of the loop: when it starts and how long it takes. -/
structure Stint where
  /-- When it starts. -/
  start : Nat
  /-- How long it takes. -/
  time : Nat
  deriving DecidableEq, Repr

namespace Stint

/-- When a tick ends. -/
def finish (x : Stint) : Nat := x.start + x.time

/-- Whether a tick starts after another has ended and not between the same two multiples of the
period. -/
def Precedes (period : Nat) (x y : Stint) : Prop :=
  x.finish ≤ y.start ∧ x.start / period < y.start / period

instance (period : Nat) : Trans (Precedes period) (Precedes period) (Precedes period) where
  trans {_ y _} hxy hyz :=
    ⟨hxy.1.trans ((Nat.le_add_right y.start y.time).trans hyz.1), hxy.2.trans hyz.2⟩

end Stint

namespace Timer

variable {σ : Type} {tick : σ → Nat → σ × Nat} {signal : Nat} {t : Timer} {now : Nat}
  {choices : List Bool} {s final : σ} {xs : List Stint} {finish : Nat}

/-! ### Runs of the loop -/

/-- A tick that is written down. -/
def logged (tick : σ → Nat → σ × Nat) (s : σ × List Stint) (start : Nat) :
    (σ × List Stint) × Nat :=
  (((tick s.1 start).1, s.2 ++ [⟨start, (tick s.1 start).2⟩]), (tick s.1 start).2)

/-- The ticks of a run of the loop. -/
def stints (tick : σ → Nat → σ × Nat) (signal : Nat) (t : Timer) (now : Nat) (choices : List Bool)
    (s : σ) : List Stint :=
  (drive (logged tick) signal t now choices (s, [])).1.2

theorem drive_of_timer (h : max t.due now < max signal now) :
    drive tick signal t now choices s =
      drive tick signal (t.rearm (max t.due now)) (max t.due now + (tick s (max t.due now)).2)
        choices (tick s (max t.due now)).1 := by
  rw [drive.eq_def, if_pos h]

theorem drive_of_tie (h : max t.due now = max signal now) :
    drive tick signal t now (true :: choices) s =
      drive tick signal (t.rearm (max t.due now)) (max t.due now + (tick s (max t.due now)).2)
        choices (tick s (max t.due now)).1 := by
  rw [drive.eq_def, if_neg h.not_lt, if_neg h.not_gt]

theorem drive_of_signal (h : max signal now < max t.due now) :
    drive tick signal t now choices s = (s, max signal now) := by
  rw [drive.eq_def, if_neg h.not_gt, if_pos h]

theorem drive_of_refused (h : max t.due now = max signal now)
    (hrefused : ∀ choices', choices ≠ true :: choices') :
    drive tick signal t now choices s = (s, max signal now) := by
  rw [drive.eq_def, if_neg h.not_lt, if_neg h.not_gt]
  split
  · exact absurd rfl (hrefused _)
  · rfl

/-- Writing ticks down changes nothing else. -/
theorem drive_logged (tick : σ → Nat → σ × Nat) (signal : Nat) (t : Timer) (now : Nat)
    (choices : List Bool) (s : σ) (log : List Stint) :
    drive (logged tick) signal t now choices (s, log) =
      (((drive tick signal t now choices s).1, log ++ stints tick signal t now choices s),
        (drive tick signal t now choices s).2) := by
  fun_induction drive tick signal t now choices s generalizing log with
  | case1 t now choices s hready s' time htick ih =>
    rw [stints, drive_of_timer hready, drive_of_timer hready, logged, logged, htick, ih, ih]
    simp
  | case2 t now choices s h hready =>
    rw [stints, drive_of_signal hready, drive_of_signal hready, List.append_nil]
  | case3 t now s h h' choices s' time htick ih =>
    have htie : max t.due now = max signal now := le_antisymm (not_lt.mp h') (not_lt.mp h)
    rw [stints, drive_of_tie htie, drive_of_tie htie, logged, logged, htick, ih, ih]
    simp
  | case4 t now choices s h h' hrefused =>
    have htie : max t.due now = max signal now := le_antisymm (not_lt.mp h') (not_lt.mp h)
    have hrefused : ∀ choices', choices ≠ true :: choices' := fun _ heq ↦ hrefused _ heq
    rw [stints, drive_of_refused htie hrefused, drive_of_refused htie hrefused, List.append_nil]

theorem stints_of_timer (h : max t.due now < max signal now) :
    stints tick signal t now choices s =
      ⟨max t.due now, (tick s (max t.due now)).2⟩ ::
        stints tick signal (t.rearm (max t.due now))
          (max t.due now + (tick s (max t.due now)).2) choices (tick s (max t.due now)).1 := by
  rw [stints, drive_of_timer h, logged, drive_logged]
  rfl

theorem stints_of_tie (h : max t.due now = max signal now) :
    stints tick signal t now (true :: choices) s =
      ⟨max t.due now, (tick s (max t.due now)).2⟩ ::
        stints tick signal (t.rearm (max t.due now))
          (max t.due now + (tick s (max t.due now)).2) choices (tick s (max t.due now)).1 := by
  rw [stints, drive_of_tie h, logged, drive_logged]
  rfl

/-- What the loop does from one look at the timer and the signal to its end. -/
inductive Course (tick : σ → Nat → σ × Nat) (signal : Nat) :
    Timer → Nat → List Bool → σ → List Stint → σ → Nat → Prop
  /-- The timer is taken. It is ready first, or both are ready at once and it is preferred. -/
  | tick {t : Timer} {now : Nat} {choices choices' : List Bool} {s : σ} {rest : List Stint}
      {final : σ} {finish : Nat}
      (taken : max t.due now < max signal now ∧ choices = choices' ∨
        max t.due now = max signal now ∧ choices = true :: choices')
      (next : Course tick signal (t.rearm (max t.due now))
        (max t.due now + (tick s (max t.due now)).2) choices' (tick s (max t.due now)).1 rest final
        finish) :
      Course tick signal t now choices s
        (⟨max t.due now, (tick s (max t.due now)).2⟩ :: rest) final finish
  /-- The signal is taken. -/
  | stop {t : Timer} {now : Nat} {choices : List Bool} {s : σ}
      (taken : max signal now ≤ max t.due now) :
      Course tick signal t now choices s [] s (max signal now)

/-- **What the loop does, as a course.** -/
theorem course_drive (tick : σ → Nat → σ × Nat) (signal : Nat) (t : Timer) (now : Nat)
    (choices : List Bool) (s : σ) :
    Course tick signal t now choices s (stints tick signal t now choices s)
      (drive tick signal t now choices s).1 (drive tick signal t now choices s).2 := by
  fun_induction drive tick signal t now choices s with
  | case1 t now choices s hready s' time htick ih =>
    rw [stints_of_timer hready]
    exact .tick (.inl ⟨hready, rfl⟩) (by rwa [htick])
  | case2 t now choices s h hready =>
    rw [stints, drive_of_signal hready]
    exact .stop hready.le
  | case3 t now s h h' choices s' time htick ih =>
    have htie : max t.due now = max signal now := le_antisymm (not_lt.mp h') (not_lt.mp h)
    rw [stints_of_tie htie]
    exact .tick (.inr ⟨htie, rfl⟩) (by rwa [htick])
  | case4 t now choices s h h' hrefused =>
    have htie : max t.due now = max signal now := le_antisymm (not_lt.mp h') (not_lt.mp h)
    rw [stints, drive_of_refused htie fun _ heq ↦ hrefused _ heq]
    exact .stop htie.ge

/-- Whether ticks lead from one state to another, each in the time that it takes. -/
def Carried (tick : σ → Nat → σ × Nat) : σ → List Stint → σ → Prop
  | s, [], s' => s = s'
  | s, x :: xs, s' => (tick s x.start).2 = x.time ∧ Carried tick (tick s x.start).1 xs s'

theorem Course.carried (h : Course tick signal t now choices s xs final finish) :
    Carried tick s xs final := by
  induction h with
  | tick _ _ ih => exact ⟨rfl, ih⟩
  | stop => exact rfl

theorem Course.start_of_head? (h : Course tick signal t now choices s xs final finish) :
    ∀ x ∈ xs.head?, x.start = max t.due now := by
  cases h with
  | tick =>
    intro x hx
    rw [← Option.some.inj hx]
  | stop => exact nofun

/-! ### Due times on a grid -/

/-- The first multiple of the period after a moment. -/
def dueAfter (period start : Nat) : Nat := (start / period + 1) * period

/-- A timer that falls due at multiples of its period, which outlasts the tolerance. -/
structure Regular (t : Timer) : Prop where
  /-- A timer that counts as punctual has not missed a due time. -/
  tolerance_lt : tolerance < t.period
  /-- The next due time lies on the grid. -/
  dvd_due : t.period ∣ t.due

/-- Five milliseconds are less than a second. -/
theorem regular_of_due_eq_zero (hdue : t.due = 0) (hperiod : Span.ofSeconds 1 ≤ t.period) :
    t.Regular where
  tolerance_lt := lt_of_lt_of_le (by decide) hperiod
  dvd_due := hdue ▸ Nat.dvd_zero _

namespace Regular

variable {start : Nat} (h : t.Regular) (hdue : t.due ≤ start)

include h hdue

/-- **When a regular timer falls due next:** at the first point of the grid after it has fired,
whether it was punctual or late. -/
theorem due_rearm : (t.rearm start).due = dueAfter t.period start := by
  obtain ⟨k, hk⟩ := h.dvd_due
  have htolerance := h.tolerance_lt
  show t.nextDue start = (start / t.period + 1) * t.period
  rw [nextDue]
  split
  · rename_i hpunctual
    have hdiv : start / t.period = k :=
      Nat.div_eq_of_lt_le (by rw [Nat.mul_comm, ← hk]; exact hdue)
        (by rw [Nat.add_mul, Nat.mul_comm k, ← hk]; omega)
    rw [hdiv, Nat.add_mul, Nat.mul_comm k, ← hk, Nat.one_mul]
  · have hmod : (start - t.due) % t.period = start % t.period := by
      rw [hk] at hdue ⊢
      exact Nat.sub_mul_mod hdue
    have hgrid := Nat.div_add_mod' start t.period
    rw [hmod, Nat.add_mul, Nat.one_mul]
    omega

theorem rearm : (t.rearm start).Regular where
  tolerance_lt := h.tolerance_lt
  dvd_due := by
    rw [h.due_rearm hdue]
    exact Nat.dvd_mul_left ..

end Regular

/-- A tick starts at the end of the one before, or at the first point of the grid after the start of
that one, whichever is later. -/
theorem Course.isChain (h : Course tick signal t now choices s xs final finish) (ht : t.Regular) :
    xs.IsChain fun x y ↦ y.start = max x.finish (dueAfter t.period x.start) := by
  induction h with
  | stop => exact .nil
  | tick taken next ih =>
    refine List.isChain_cons.mpr ⟨fun y hy ↦ ?_, ih (ht.rearm (le_max_left ..))⟩
    rw [next.start_of_head? y hy, ht.due_rearm (le_max_left ..), max_comm]
    rfl

/-- The loop goes on until the signal is given. -/
theorem Course.signal_le (h : Course tick signal t now choices s xs final finish)
    (ht : t.Regular) :
    (xs = [] → signal ≤ max t.due now) ∧
      ∀ x ∈ xs.getLast?, signal ≤ max x.finish (dueAfter t.period x.start) := by
  induction h with
  | stop taken => exact ⟨fun _ ↦ (le_max_left ..).trans taken, nofun⟩
  | @tick t now choices choices' s rest final finish taken next ih =>
    obtain ⟨hnil, hlast⟩ := ih (ht.rearm (le_max_left ..))
    refine ⟨nofun, fun x hx ↦ ?_⟩
    cases rest with
    | nil =>
      obtain rfl := Option.some.inj hx
      have hsignal := hnil rfl
      rw [ht.due_rearm (le_max_left ..), max_comm] at hsignal
      exact hsignal
    | cons y rest => exact hlast x (by rwa [List.getLast?_cons_cons] at hx)

/-- No tick overlaps another one, or starts before the grid has moved on. -/
theorem Course.pairwise (h : Course tick signal t now choices s xs final finish) (ht : t.Regular) :
    xs.Pairwise (Stint.Precedes t.period) := by
  refine List.isChain_iff_pairwise.mp ((h.isChain ht).imp fun x y hxy ↦ ⟨?_, ?_⟩)
  · rw [hxy]
    exact le_max_left ..
  · refine Nat.succ_le_iff.mp ((Nat.le_div_iff_mul_le t.period_pos).mpr ?_)
    rw [hxy]
    exact le_max_right ..

/-- **The schedule skips, never overlaps and never bursts.** Take a timer with a period of at least
a second that falls due at the outset, ticks that take any times, a signal at any moment and any
choices between both. The first tick starts at once. Each further tick starts at the end of the one
before or at the first multiple of the period after the start of that one, whichever is later, and
unless the signal is given before, there is such a tick. So no tick starts before the one before has
ended, and no two ticks start between the same two multiples of the period. -/
theorem ticks_skip (tick : σ → Nat → σ × Nat) (signal : Nat) (t : Timer) (choices : List Bool)
    (s : σ) (hdue : t.due = 0) (hperiod : Span.ofSeconds 1 ≤ t.period) :
    let xs := stints tick signal t 0 choices s
    Carried tick s xs (drive tick signal t 0 choices s).1 ∧
      ((∀ x ∈ xs.head?, x.start = 0) ∧
        xs.IsChain fun x y ↦ y.start = max x.finish ((x.start / t.period + 1) * t.period)) ∧
      ((xs = [] → signal = 0) ∧
        ∀ x ∈ xs.getLast?, signal ≤ max x.finish ((x.start / t.period + 1) * t.period)) ∧
      xs.Pairwise fun x y ↦ x.finish ≤ y.start ∧ x.start / t.period < y.start / t.period := by
  have ht : t.Regular := regular_of_due_eq_zero hdue hperiod
  have hcourse := course_drive tick signal t 0 choices s
  obtain ⟨hnil, hlast⟩ := hcourse.signal_le ht
  refine ⟨hcourse.carried, ⟨fun x hx ↦ ?_, hcourse.isChain ht⟩, ⟨fun hempty ↦ ?_, hlast⟩,
    hcourse.pairwise ht⟩
  · rw [hcourse.start_of_head? x hx, hdue]
    rfl
  · have hsignal := hnil hempty
    rw [hdue] at hsignal
    exact Nat.le_zero.mp hsignal

/-- Ticks that take the given times, and no time when these are used up. -/
def timed (times : List Nat) (_ : Nat) : List Nat × Nat := (times.tail, times.headD 0)

/-- A timer that falls due once per second. -/
def secondly : Timer := ⟨Span.ofSeconds 1, 0, by decide⟩

/-- A tick that takes two seconds and a half makes the next one late, and the due time after two
seconds is skipped. The late tick is short, so the one after it is on time. -/
theorem ticks_skip_secondly :
    Span.ofSeconds 1 ≤ secondly.period ∧
      ∃ xs, xs = stints timed (Span.ofSeconds 5) secondly 0 []
          [Span.ofMillis 2500, Span.ofMillis 300] ∧
        xs.map Stint.start = [0, Span.ofMillis 2500, Span.ofSeconds 3, Span.ofSeconds 4] ∧
        xs.Pairwise fun x y ↦
          x.finish ≤ y.start ∧ x.start / secondly.period < y.start / secondly.period := by
  refine ⟨le_rfl, _, rfl, by cbv, ?_⟩
  exact (ticks_skip timed (Span.ofSeconds 5) secondly [] _ rfl le_rfl).2.2.2

end Timer

end QueueScaler
