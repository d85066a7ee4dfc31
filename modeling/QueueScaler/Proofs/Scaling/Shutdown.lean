import QueueScaler.Proofs.Scaling.Sampling
import QueueScaler.Proofs.Scaling.Timing
/-!
# The end of the control loop

A signal ends the loop, but not at any price: a tick that is under way runs to its end, and if the
timer has fallen due again by then, nothing says whether the timer or the signal is looked at first.
So another tick may start after the signal, and this is the only way in which one can.

## Main definitions

* `Timer.Overruns`: a tick that is under way at the signal and ends after the timer has fallen due.
* `Autoscaler.loopTick`: the ticks of the loop, given what they meet and how long they take.

## Main results

* `Timer.Course.isChain_late`: what is before a tick that starts after the signal.
* `Timer.Course.exists_late`: after a tick that overruns, another one may start.
* `Autoscaler.ticks_after_signal`: which ticks complete, and which may start after the signal.
-/

namespace QueueScaler

namespace Timer

variable {σ : Type} {tick : σ → Nat → σ × Nat} {signal : Nat} {t : Timer} {now : Nat}
  {choices : List Bool} {s final : σ} {xs : List Stint} {finish : Nat}

/-- Whether a tick is under way when the signal is given, and the timer falls due again before it
ends. -/
def Overruns (period signal : Nat) (x : Stint) : Prop :=
  x.start ≤ signal ∧ signal < x.finish ∧ dueAfter period x.start ≤ x.finish

/-! ### Any ticks -/

/-- The loop does not end before its ticks. -/
theorem Course.finish_le (h : Course tick signal t now choices s xs final finish) :
    now ≤ finish ∧ ∀ x ∈ xs, x.finish ≤ finish := by
  induction h with
  | tick taken next ih =>
    refine ⟨le_trans ?_ ih.1, fun x hx ↦ ?_⟩
    · exact (le_max_right ..).trans (Nat.le_add_right ..)
    · rcases List.mem_cons.mp hx with rfl | hx
      · exact ih.1
      · exact ih.2 x hx
  | stop => exact ⟨le_max_right .., nofun⟩

/-- A tick that starts after the signal starts as soon as the loop looks up, the timer being due. -/
theorem Course.eq_now_of_late (h : Course tick signal t now choices s xs final finish) :
    ∀ x ∈ xs.head?, signal < x.start → x.start = now ∧ t.due ≤ now := by
  cases h with
  | tick taken next =>
    intro x hx hlate
    obtain rfl := Option.some.inj hx
    have hlate : signal < max t.due now := hlate
    have hready : max t.due now ≤ max signal now := by
      rcases taken with ⟨hlt, -⟩ | ⟨heq, -⟩
      · exact hlt.le
      · exact heq.le
    show max t.due now = now ∧ t.due ≤ now
    omega
  | stop => exact nofun

/-- **What is before a tick that starts after the signal:** another one, which ends at the start of
this one and after the timer has fallen due again. -/
theorem Course.isChain_late (h : Course tick signal t now choices s xs final finish)
    (ht : t.Regular) :
    xs.IsChain fun x y ↦ signal < y.start →
      y.start = x.finish ∧ dueAfter t.period x.start ≤ x.finish := by
  induction h with
  | stop => exact .nil
  | tick taken next ih =>
    refine List.isChain_cons.mpr ⟨fun y hy hlate ↦ ?_, ih (ht.rearm (le_max_left ..))⟩
    obtain ⟨hstart, hdue⟩ := next.eq_now_of_late y hy hlate
    rw [ht.due_rearm (le_max_left ..)] at hdue
    exact ⟨hstart, hdue⟩

/-- Each tick that starts after the signal takes a choice of the timer. -/
theorem Course.countP_late_le (h : Course tick signal t now choices s xs final finish) :
    xs.countP (fun x ↦ signal < x.start) ≤ choices.count true := by
  induction h with
  | stop => exact Nat.zero_le _
  | @tick t now choices choices' s rest final finish taken next ih =>
    rw [List.countP_cons]
    rcases taken with ⟨hlt, rfl⟩ | ⟨heq, rfl⟩
    · have hpunctual : ¬ signal < max t.due now := by omega
      rw [if_neg (by simpa using hpunctual)]
      exact ih
    · rw [List.count_cons_self]
      split <;> omega

/-- Where a tick starts after the signal, an earlier one has overrun. -/
theorem exists_overruns (period : Nat)
    (hchain : xs.IsChain fun x y ↦ signal < y.start →
      y.start = x.finish ∧ dueAfter period x.start ≤ x.finish)
    (hhead : ∀ x ∈ xs.head?, x.start ≤ signal) {y : Stint} (hy : y ∈ xs)
    (hlate : signal < y.start) : ∃ x ∈ xs, Overruns period signal x := by
  induction xs with
  | nil => exact absurd hy List.not_mem_nil
  | cons x xs ih =>
    obtain ⟨hnext, hchain⟩ := List.isChain_cons.mp hchain
    have hx : x.start ≤ signal := hhead x rfl
    by_cases hall : ∀ z ∈ xs.head?, z.start ≤ signal
    · have hne : y ≠ x := fun heq ↦ absurd hx (heq ▸ not_le.mpr hlate)
      obtain ⟨z, hz, hover⟩ := ih hchain hall ((List.mem_cons.mp hy).resolve_left hne)
      exact ⟨z, List.mem_cons_of_mem _ hz, hover⟩
    · -- The first late tick follows this one.
      simp only [not_forall, not_le] at hall
      obtain ⟨z, hz, hlate⟩ := hall
      obtain ⟨hstart, hdue⟩ := hnext z hz hlate
      exact ⟨x, List.mem_cons_self, hx, hstart ▸ hlate, hdue⟩

/-- When a tick has overrun, timer and signal are both ready, so the choice decides. -/
theorem exists_late_of_tie (hdue : t.due ≤ now) (hsignal : signal < now) :
    ∃ y ∈ stints tick signal t now [true] s, signal < y.start := by
  have htie : max t.due now = max signal now := by omega
  rw [stints_of_tie htie]
  exact ⟨_, List.mem_cons_self, hsignal.trans_le (le_max_right ..)⟩

/-- **After a tick that overruns, another one may start.** -/
theorem Course.exists_late (h : Course tick signal t now choices s xs final finish)
    (ht : t.Regular) {x : Stint} (hx : x ∈ xs) (hover : Overruns t.period signal x) :
    ∃ choices, ∃ y ∈ stints tick signal t now choices s, signal < y.start := by
  induction h with
  | stop => exact absurd hx List.not_mem_nil
  | @tick t now choices choices' s rest final finish taken next ih =>
    have ht' : (t.rearm (max t.due now)).Regular := ht.rearm (le_max_left ..)
    have hrest : ∃ choices, ∃ y ∈ stints tick signal (t.rearm (max t.due now))
        (max t.due now + (tick s (max t.due now)).2) choices (tick s (max t.due now)).1,
        signal < y.start := by
      rcases List.mem_cons.mp hx with rfl | hx
      · obtain ⟨-, hsignal, hdue⟩ := hover
        refine ⟨[true], exists_late_of_tie ?_ hsignal⟩
        rw [ht.due_rearm (le_max_left ..)]
        exact hdue
      · exact ih ht' hx hover
    obtain ⟨choices, y, hy, hlate⟩ := hrest
    rcases taken with ⟨hlt, -⟩ | ⟨heq, -⟩
    · refine ⟨choices, y, ?_, hlate⟩
      rw [stints_of_timer hlt]
      exact List.mem_cons_of_mem _ hy
    · refine ⟨true :: choices, y, ?_, hlate⟩
      rw [stints_of_tie heq]
      exact List.mem_cons_of_mem _ hy

end Timer

/-! ### The ticks of an autoscaler -/

namespace Autoscaler

variable {R : Type} [Rate R]

/-- The ticks of the loop, given what they meet and how long they take, in their order. A tick that
dies takes the loop with it: of such a course only the beginning up to that tick is ever run. -/
def loopTick (a : Autoscaler R) (course : Nat → Encounter × Span) (s : Memory R × Nat) (_ : Nat) :
    (Memory R × Nat) × Nat :=
  (((a.tick s.1 (course s.2).1).2, s.2 + 1), (course s.2).2)

theorem eq_after_of_carried {a : Autoscaler R} {course : Nat → Encounter × Span}
    {xs : List Stint} {m : Memory R} {k : Nat} {s : Memory R × Nat}
    (h : Timer.Carried (a.loopTick course) (m, k) xs s) :
    s.1 = a.after m ((List.range' k xs.length).map fun i ↦ (course i).1) ∧
      xs.map Stint.time = (List.range' k xs.length).map fun i ↦ (course i).2 := by
  induction xs generalizing m k with
  | nil => exact ⟨(congrArg Prod.fst h).symm, rfl⟩
  | cons x xs ih =>
    obtain ⟨htime, hrest⟩ := h
    obtain ⟨hmemory, htimes⟩ := ih hrest
    refine ⟨hmemory, ?_⟩
    rw [List.map_cons, htimes, ← htime]
    rfl

/-- **Which ticks complete, and which may start after the signal.** Take a timer with a period of at
least a second that falls due at the outset, ticks that meet anything and take any times, a signal
at any moment and any choices between timer and signal when both are ready.
* Every tick that starts runs to its end before the loop ends, so the one under way when the signal
  is given publishes its report as well, unless it dies: what is left is what all ticks leave
  behind, in turn.
* A tick that starts after the signal starts right at the end of the tick before, and that one has
  not ended before the timer fell due again. There are at most as many as there are choices of the
  timer, so there is none if the signal is always preferred.
* Some choices let a tick start after the signal if and only if some choices make the tick that is
  under way when the signal is given overrun its next due time. -/
theorem ticks_after_signal (a : Autoscaler R) (m : Memory R) (course : Nat → Encounter × Span)
    (signal : Nat) (t : Timer) (hdue : t.due = 0) (hperiod : Span.ofSeconds 1 ≤ t.period) :
    (∀ choices,
      let xs := Timer.stints (a.loopTick course) signal t 0 choices (m, 0)
      let loop := Timer.drive (a.loopTick course) signal t 0 choices (m, 0)
      (loop.1.1 = a.after m ((List.range xs.length).map fun i ↦ (course i).1) ∧
          xs.map Stint.time = (List.range xs.length).map (fun i ↦ (course i).2) ∧
          ∀ x ∈ xs, x.finish ≤ loop.2) ∧
        ((∀ x ∈ xs.head?, x.start ≤ signal) ∧
          xs.IsChain fun x y ↦ signal < y.start →
            y.start = x.finish ∧ (x.start / t.period + 1) * t.period ≤ x.finish) ∧
        xs.countP (fun x ↦ signal < x.start) ≤ choices.count true) ∧
    ((∃ choices, ∃ y ∈ Timer.stints (a.loopTick course) signal t 0 choices (m, 0),
        signal < y.start) ↔
      ∃ choices, ∃ x ∈ Timer.stints (a.loopTick course) signal t 0 choices (m, 0),
        x.start ≤ signal ∧ signal < x.finish ∧
          (x.start / t.period + 1) * t.period ≤ x.finish) := by
  have ht : t.Regular := Timer.regular_of_due_eq_zero hdue hperiod
  have hcourse := fun choices ↦ Timer.course_drive (a.loopTick course) signal t 0 choices (m, 0)
  have hhead : ∀ choices, ∀ x ∈ (Timer.stints (a.loopTick course) signal t 0 choices (m, 0)).head?,
      x.start ≤ signal := fun choices x hx ↦ by
    rw [(hcourse choices).start_of_head? x hx, hdue]
    exact Nat.zero_le _
  refine ⟨fun choices ↦ ?_, fun ⟨choices, y, hy, hlate⟩ ↦ ?_, fun ⟨choices, x, hx, hover⟩ ↦ ?_⟩
  · obtain ⟨hmemory, htimes⟩ := eq_after_of_carried (hcourse choices).carried
    rw [← List.range_eq_range'] at hmemory htimes
    exact ⟨⟨hmemory, htimes, (hcourse choices).finish_le.2⟩,
      ⟨hhead choices, (hcourse choices).isChain_late ht⟩, (hcourse choices).countP_late_le⟩
  · exact ⟨choices,
      Timer.exists_overruns t.period ((hcourse choices).isChain_late ht) (hhead choices) hy hlate⟩
  · exact (hcourse choices).exists_late ht hx hover

/-- Ticks of the relay that find its queues empty. The first one takes two seconds and a half. -/
def slowStart (k : Nat) : Encounter × Span :=
  (.relay (.ok 0) (.ok 0) 1 k [], if k = 0 then Span.ofMillis 2500 else 0)

/-- A signal after a second and a half finds the first tick of the relay under way. That tick
completes, and then one more is run if the timer is taken, and none if the signal is. -/
theorem relay_completes_slowStart :
    Span.ofSeconds 1 ≤ Timer.secondly.period ∧
      (Timer.drive (relay.loopTick slowStart) (Span.ofMillis 1500) Timer.secondly 0 [true]
          (.relay ∅, 0)).1.1 = relay.after (.relay ∅) [(slowStart 0).1, (slowStart 1).1] ∧
      (Timer.drive (relay.loopTick slowStart) (Span.ofMillis 1500) Timer.secondly 0 []
          (.relay ∅, 0)).1.1 = relay.after (.relay ∅) [(slowStart 0).1] := by
  have hticks := (ticks_after_signal relay (.relay ∅) slowStart (Span.ofMillis 1500)
    Timer.secondly rfl le_rfl).1
  have hlate : (Timer.stints (relay.loopTick slowStart) (Span.ofMillis 1500) Timer.secondly 0
      [true] (.relay ∅, 0)).length = 2 := by cbv
  have hprompt : (Timer.stints (relay.loopTick slowStart) (Span.ofMillis 1500) Timer.secondly 0
      [] (.relay ∅, 0)).length = 1 := by cbv
  refine ⟨le_rfl, ?_, ?_⟩
  · rw [(hticks [true]).1.1, hlate]
    rfl
  · rw [(hticks []).1.1, hprompt]
    rfl

/-- **A tick may start after the signal.** When the slow first tick of the relay ends, a second
after the signal, the timer has fallen due again, and nothing keeps the loop from taking it. -/
theorem relay_tick_after_signal :
    ¬ ∀ y ∈ Timer.stints (relay.loopTick slowStart) (Span.ofMillis 1500) Timer.secondly 0 [true]
        (.relay ∅, 0), y.start ≤ Span.ofMillis 1500 := by
  have hstarts : (Timer.stints (relay.loopTick slowStart) (Span.ofMillis 1500) Timer.secondly 0
      [true] (.relay ∅, 0)).map Stint.start = [0, Span.ofMillis 2500] := by cbv
  intro h
  have hall := List.forall_mem_map (P := (· ≤ Span.ofMillis 1500)).mpr h
  rw [hstarts] at hall
  exact absurd (hall (Span.ofMillis 2500) (by simp)) (by decide)

end Autoscaler

end QueueScaler
