import QueueScaler.Proofs.Scaling.Bounds
/-!
# Replica counts settle

While the queues keep their depths, every tick that decides on a service finds the same need,
however many of its calls fail. So a service is bound for one count: what it needs, cut off at the
ceiling, if it has less; a single replica if it needs none and has several; and what it has
otherwise. Whatever a tick commands is that count, and once the service has it, its count does not
change any more. Rehearsals over a cluster in memory are such runs; see `Rehearsal.Course.run`.

## Main definitions

* `Autoscaler.trueDepths`: the depths of all managed queues.
* `Autoscaler.destination`: the count that a service is bound for.
* `Autoscaler.TicksOver`: one tick over a cluster that nobody else changes.
* `Autoscaler.Run`: a run of such ticks.
* `Autoscaler.busyRun`: the run of a relay that has to be scaled up.

## Main results

* `Autoscaler.TicksOver.eq_destination`: what a tick commands.
* `Autoscaler.Run.exists_arrival`: the count of a service changes at most once.
* `Autoscaler.counts_settle`: a run converges without oscillation.
-/

namespace QueueScaler.Autoscaler

variable {R : Type} [Rate R] {a : Autoscaler R} {depth : String → Nat} {m : Memory R}
  {e : Encounter} {before after : Table Nat} {s : String} {n t current required length : Nat}

/-- The depths of all managed queues, as a round of queries finds them of which none fails. -/
def trueDepths (a : Autoscaler R) (depth : String → Nat) : Table Nat :=
  a.pipeline.wiring.map fun q _ ↦ depth q

/-- The count that a service is bound for when it has `current` replicas and needs `required`. -/
def destination (a : Autoscaler R) (current required : Nat) : Nat :=
  if current < required then min required a.strategy.maxReplicas
  else if required = 0 ∧ 1 < current then 1
  else current

/-- At its destination a service stays. -/
theorem destination_destination (a : Autoscaler R) (current required : Nat) :
    a.destination (a.destination current required) required = a.destination current required := by
  unfold destination
  split_ifs <;> omega

/-- One tick over a cluster that nobody else changes, while the queues keep their depths: the memory
and the replicas it finds, what it meets, and the replicas it leaves. -/
structure TicksOver (a : Autoscaler R) (depth : String → Nat) (m : Memory R) (e : Encounter)
    (before after : Table Nat) : Prop where
  /-- A query finds the depth of its queue unless it fails. -/
  answered : ∃ failure, a.pipeline.wiring.Answered depth failure e.samples
  /-- The listing shows what is there unless it fails. -/
  listed : ∀ counts, e.listing = .ok counts → counts = before
  /-- A service keeps its replicas or gets as many as it is commanded to. Whether a command is
  carried out is left open, whatever is heard of it. -/
  changed : ∀ s, after.get? s = before.get? s ∨
    ∃ n, (s, n) ∈ (a.tick m e).1.commands ∧ after.get? s = some n

/-- A run of ticks over a cluster that nobody else changes, while the queues keep their depths. -/
structure Run (a : Autoscaler R) (depth : String → Nat) (length : Nat) where
  /-- What is remembered at the start. -/
  start : Memory R
  /-- What each tick meets. -/
  encounter : Nat → Encounter
  /-- The replicas before each tick. -/
  replicas : Nat → Table Nat
  /-- A tick remembers what the ticks before it left, and finds the replicas that they left. -/
  ticks : ∀ i < length, a.TicksOver depth (a.after start ((List.range i).map encounter))
    (encounter i) (replicas i) (replicas (i + 1))

/-- The commands of one tick of a run. -/
def Run.commands (run : a.Run depth length) (i : Nat) : List (String × Nat) :=
  (a.tick (a.after run.start ((List.range i).map run.encounter)) (run.encounter i)).1.commands

/-! ### One tick -/

theorem get?_trueDepths (hs : s ∈ a.pipeline.wiring) :
    (a.trueDepths depth).get? s = some (depth s) := by
  obtain ⟨b, hb⟩ := Table.mem_iff_get?.mp hs
  rw [trueDepths, Table.get?_map, hb, Option.map_some]

/-- The need of every service can be told from the depths of all queues. -/
theorem exists_required?_trueDepths (a : Autoscaler R) (depth : String → Nat)
    (hs : s ∈ a.pipeline.wiring.services) :
    ∃ required, a.required? (a.trueDepths depth) s = some required := by
  obtain ⟨q, hq⟩ := Wiring.mem_services.mp hs
  refine exists_required? hq (Table.mem_iff_get?.mpr ⟨depth q, get?_trueDepths ?_⟩)
  exact Wiring.mem_of_mem_consumed (Wiring.mem_consumed_of_input? hq)

/-- A round of queries that leaves a service sighted tells its need as the depths of all queues
would. -/
theorem required?_sample {failure : String → Option CallFailure} {samples : List (Arrival Nat)}
    (h : a.pipeline.wiring.Answered depth failure samples)
    (hs : s ∉ a.blindServices (a.sample samples).failed) :
    a.required? (a.sample samples).depths s = a.required? (a.trueDepths depth) s := by
  refine required?_congr fun q hq ↦ ?_
  rw [h.get?_depths, if_pos ⟨hq.mem, h.not_mem_blindServices.mp hs q hq⟩, get?_trueDepths hq.mem]

namespace TicksOver

variable (h : a.TicksOver depth m e before after)

include h

/-- **What a tick commands** is the destination of the service, whatever the tick could not see. -/
theorem eq_destination (hmem : (s, t) ∈ (a.tick m e).1.commands) :
    ∃ current required, before.get? s = some current ∧
      a.required? (a.trueDepths depth) s = some required ∧ t = a.destination current required := by
  obtain ⟨-, hseen, counts, current, required, hlisting, hcurrent, hrequired, ht⟩ :=
    mem_commands_tick.mp hmem
  obtain ⟨failure, hanswered⟩ := h.answered
  obtain rfl := h.listed counts hlisting
  refine ⟨current, required, hcurrent, (required?_sample hanswered hseen).symm.trans hrequired, ?_⟩
  unfold destination
  rcases ht with ⟨hlt, rfl⟩ | ⟨hmany, rfl, -, rfl⟩
  · rw [if_pos hlt]
  · rw [if_neg (Nat.not_lt_zero _), if_pos ⟨rfl, hmany⟩]

/-- A tick leaves a service where it is or takes it to its destination. -/
theorem get?_after (hcurrent : before.get? s = some current)
    (hrequired : a.required? (a.trueDepths depth) s = some required) :
    after.get? s = some current ∨ after.get? s = some (a.destination current required) := by
  rcases h.changed s with hsame | ⟨n, hmem, hn⟩
  · exact .inl (hsame.trans hcurrent)
  · obtain ⟨_, _, hcurrent', hrequired', rfl⟩ := h.eq_destination hmem
    cases hcurrent.symm.trans hcurrent'
    cases hrequired.symm.trans hrequired'
    exact .inr hn

/-- A service that is not listed, or that needs nothing since it drains no queue, is left alone. -/
theorem get?_after_of_none
    (hnone : before.get? s = none ∨ a.required? (a.trueDepths depth) s = none) :
    (∀ t, (s, t) ∉ (a.tick m e).1.commands) ∧ after.get? s = before.get? s := by
  have hnever : ∀ t, (s, t) ∉ (a.tick m e).1.commands := fun t hmem ↦ by
    obtain ⟨_, _, hcurrent, hrequired, -⟩ := h.eq_destination hmem
    rcases hnone with hunlisted | hidle
    · cases hunlisted.symm.trans hcurrent
    · cases hidle.symm.trans hrequired
  exact ⟨hnever, (h.changed s).resolve_right fun ⟨n, hmem, _⟩ ↦ hnever n hmem⟩

end TicksOver

/-! ### Runs of ticks -/

namespace Run

variable (run : a.Run depth length)

/-- **The count of a service changes at most once,** namely to its destination. -/
theorem exists_arrival (hcurrent : (run.replicas 0).get? s = some n)
    (hrequired : a.required? (a.trueDepths depth) s = some required) {i : Nat} (hi : i ≤ length) :
    ∃ k, ∀ j ≤ i, (run.replicas j).get? s =
      some (if j < k then n else a.destination n required) := by
  induction i with
  | zero =>
    refine ⟨1, fun j hj ↦ ?_⟩
    obtain rfl := Nat.le_zero.mp hj
    exact hcurrent
  | succ i ih =>
    obtain ⟨k, hk⟩ := ih (Nat.le_of_succ_le hi)
    have hstep := (run.ticks i hi).get?_after (hk i i.le_refl) hrequired
    -- The service has not moved before tick `i`, and then this tick may be the one that moves it,
    -- or it has arrived, and then it stays.
    by_cases hik : i < k
    · rw [if_pos hik] at hstep
      rcases hstep with hstay | hmove
      · refine ⟨i + 2, fun j hj ↦ ?_⟩
        rw [if_pos (by omega)]
        rcases Nat.le_succ_iff.mp hj with hji | rfl
        · rw [hk j hji, if_pos (by omega)]
        · exact hstay
      · refine ⟨i + 1, fun j hj ↦ ?_⟩
        rcases Nat.le_succ_iff.mp hj with hji | rfl
        · rw [hk j hji, if_pos (by omega), if_pos (by omega)]
        · rw [if_neg (Nat.lt_irrefl _)]
          exact hmove
    · rw [if_neg hik, a.destination_destination, or_self] at hstep
      refine ⟨k, fun j hj ↦ ?_⟩
      rcases Nat.le_succ_iff.mp hj with hji | rfl
      · exact hk j hji
      · rw [if_neg (by omega)]
        exact hstep

/-- A service that is not there, or that drains no queue, is left alone by every tick. -/
theorem get?_of_none
    (hnone : (run.replicas 0).get? s = none ∨ a.required? (a.trueDepths depth) s = none) {i : Nat}
    (hi : i ≤ length) : (run.replicas i).get? s = (run.replicas 0).get? s := by
  induction i with
  | zero => rfl
  | succ i ih =>
    have hkept := ih (Nat.le_of_succ_le hi)
    rw [← hkept] at hnone
    exact ((run.ticks i hi).get?_after_of_none hnone).2.trans hkept

end Run

/-- **A run converges without oscillation,** whichever of its calls fail, wherever the clock goes,
whatever it remembers at its start, and whether or not a command is carried out whose answer does
not come. Take any run while the queues keep their depths and only the ticks change the cluster. The
depths of all queues tell the demand of every service. The count of a service that is there changes
at most once, before some tick `k` or never: to the demand, cut off at the ceiling, if it is below
the demand, and to a single replica if there is no demand and it is above that. Every command that
the service gets, before the change and after it, is for that count, so after the change it repeats
the count that is there. Nothing else is ever commanded, and no other count changes. -/
theorem counts_settle (run : a.Run depth length) :
    ∃ demand, (a.plan (a.trueDepths depth)).demand = .ok demand ∧
      (∀ s ∈ a.pipeline.wiring.services, ∃ d, demand.get? s = some d ∧
        ∀ n, (run.replicas 0).get? s = some n →
          ∃ k, (∀ i ≤ length, (run.replicas i).get? s =
              some (if i < k then n else a.destination n d)) ∧
            ∀ i < length, ∀ t, (s, t) ∈ run.commands i →
              t = a.destination n d ∧ (k ≤ i → (run.replicas i).get? s = some t)) ∧
      ∀ s, s ∉ a.pipeline.wiring.services ∨ (run.replicas 0).get? s = none →
        (∀ i ≤ length, (run.replicas i).get? s = (run.replicas 0).get? s) ∧
          ∀ i < length, ∀ t, (s, t) ∉ run.commands i := by
  obtain ⟨demand, hdemand, hget⟩ :=
    a.pipeline.wiring.exists_demand (a.plan (a.trueDepths depth)).total
  refine ⟨demand, hdemand, fun s hs ↦ ?_, fun s hs ↦ ?_⟩
  · obtain ⟨d, hd⟩ := a.exists_required?_trueDepths depth hs
    refine ⟨d, (hget s).trans hd, fun n hn ↦ ?_⟩
    obtain ⟨k, hk⟩ := run.exists_arrival hn hd length.le_refl
    refine ⟨k, hk, fun i hi t ht ↦ ?_⟩
    obtain ⟨_, _, hcurrent, hrequired, rfl⟩ := (run.ticks i hi).eq_destination ht
    have hki := hk i hi.le
    cases hd.symm.trans hrequired
    cases hki.symm.trans hcurrent
    split
    · exact ⟨rfl, fun hle ↦ absurd ‹i < k› hle.not_gt⟩
    · rw [if_neg ‹¬ i < k›] at hki
      exact ⟨a.destination_destination n d, fun _ ↦ by rw [a.destination_destination, hki]⟩
  · have hnone : (run.replicas 0).get? s = none ∨ a.required? (a.trueDepths depth) s = none := by
      refine hs.symm.imp_right fun hs ↦ Option.eq_none_iff_forall_ne_some.mpr fun d hd ↦ ?_
      exact hs (mem_services_of_required? hd)
    refine ⟨fun i hi ↦ run.get?_of_none hnone hi, fun i hi ↦ ?_⟩
    rw [← run.get?_of_none hnone hi.le] at hnone
    exact ((run.ticks i hi).get?_after_of_none hnone).1

/-- What a relay meets whose input holds ten replicas' worth of work for each of its services. The
answers to the first two commands come too late, but the commands are carried out; later on the
output cannot be sampled. -/
def busyEncounter : Nat → Encounter
  | 0 => .relay (.ok 600) (.ok 0) 1 0
      [⟨"reader", .error .timedOut, 5⟩, ⟨"writer", .error .timedOut, 5⟩]
  | _ => .relay (.ok 600) (.error .timedOut) 8 60000000000 [⟨"reader", .ok (), 60000000005⟩]

/-- Two ticks of a busy relay. -/
def busyRun : relay.Run (fun q ↦ if q = "in" then 600 else 0) 2 where
  start := .relay ∅
  encounter := busyEncounter
  replicas
    | 0 => .ofList [("reader", 1), ("writer", 1)]
    | _ => .ofList [("reader", 8), ("writer", 8)]
  ticks := by
    have hfirst : relay.TicksOver (fun q ↦ if q = "in" then 600 else 0) (.relay ∅)
        (busyEncounter 0) (.ofList [("reader", 1), ("writer", 1)])
        (.ofList [("reader", 8), ("writer", 8)]) := by
      refine ⟨⟨fun _ ↦ none, by decide, by decide⟩, fun counts h ↦ (Except.ok.inj h).symm,
        fun s ↦ ?_⟩
      by_cases hreader : s = "reader"
      · subst hreader
        exact .inr ⟨8, Report.mem_commands.mpr ⟨.scaleUp 1 8, by cbv, rfl⟩, by cbv⟩
      · by_cases hwriter : s = "writer"
        · subst hwriter
          exact .inr ⟨8, Report.mem_commands.mpr ⟨.scaleUp 1 8, by cbv, rfl⟩, by cbv⟩
        · left
          simp [Table.ofList, Table.get?_insert, hreader, hwriter]
    have hlater (m : Memory ℚ) : relay.TicksOver (fun q ↦ if q = "in" then 600 else 0) m
        (busyEncounter 1) (.ofList [("reader", 8), ("writer", 8)])
        (.ofList [("reader", 8), ("writer", 8)]) :=
      ⟨⟨fun q ↦ if q = "in" then none else some .timedOut, by decide, by decide⟩,
        fun counts h ↦ (Except.ok.inj h).symm, fun s ↦ .inl rfl⟩
    rintro (_ | _ | i) hi
    · exact hfirst
    · exact hlater _
    · omega

/-- In two ticks the reader of a busy relay goes from one replica to the eight of the ceiling, and
all its commands are for eight. -/
theorem busyRun_reader_settles :
    ∃ k, (∀ i ≤ 2, (busyRun.replicas i).get? "reader" = some (if i < k then 1 else 8)) ∧
      ∀ i < 2, ∀ t, ("reader", t) ∈ busyRun.commands i →
        t = 8 ∧ (k ≤ i → (busyRun.replicas i).get? "reader" = some t) := by
  obtain ⟨demand, hdemand, hservices, -⟩ := counts_settle busyRun
  have hneed : (relay.plan (relay.trueDepths fun q ↦ if q = "in" then 600 else 0)).demand =
      .ok (.ofList [("reader", 10), ("writer", 10)]) := by cbv
  obtain rfl := Except.ok.inj (hdemand.symm.trans hneed)
  obtain ⟨d, hd, hsettles⟩ := hservices "reader" (by decide)
  obtain rfl : 10 = d := Option.some.inj hd
  exact hsettles 1 rfl

end QueueScaler.Autoscaler
