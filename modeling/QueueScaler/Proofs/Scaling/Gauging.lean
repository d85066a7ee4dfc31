import QueueScaler.Proofs.Scaling.Futility
import QueueScaler.Proofs.Scaling.Interleaving
import QueueScaler.Status
/-!
# Gauges show the last good sample

A gauge is set whenever the query for its queue succeeds, and at no other time. So whatever else the
ticks meet, the gauge of a queue shows what the last good answer to its query was, and a queue that
was never sampled has no gauge. The report of a tick holds the same answers. The gauges are set
while the tick is under way, so they also show the depths of a tick that dies without a report. The
status interface shows the gauges and nothing else.

## Main definitions

* `latestDepth?`: the depth of a queue in the latest of some outcomes that has one.
* `Trace.outcomes`: the outcomes of depth queries that came in during a run.
* `Memory.ShowsLatest`: the gauges against the outcomes of all queries so far.
* `Status.depths?`: the depths that a status document shows.

## Main results

* `latestDepth?_foldl`: what outcomes do to anything that keeps the latest depth of a queue.
* `Autoscaler.gauges_after`, `System.gauges_run`: the gauges of ticks in turn, and of calls that
  take their steps in any order.
* `Autoscaler.exists_of_lastReport_after`: where the last report comes from.
* `Autoscaler.gauges_show_latest`: the gauges and the reports against the outcomes of the queries.
-/

namespace QueueScaler

variable {R : Type} {q : String}

/-! ### The latest depth -/

/-- The depth that an outcome tells for a queue. -/
def Arrival.depth? (c : Arrival Nat) (queue : String) : Option Nat :=
  if c.name = queue then c.answer.toOption else none

/-- The depth of a queue in the latest of some outcomes that has one. -/
def latestDepth? (outcomes : List (Arrival Nat)) (queue : String) : Option Nat :=
  outcomes.reverse.findSome? (·.depth? queue)

@[simp] theorem Arrival.depth?_error (name : String) (failure : CallFailure) (moment : Instant)
    (q : String) : depth? ⟨name, .error failure, moment⟩ q = none := ite_self none

theorem Arrival.depth?_eq_some_iff {c : Arrival Nat} {depth : Nat} :
    c.depth? q = some depth ↔ c.name = q ∧ c.answer = .ok depth := by
  rw [depth?, Option.ite_none_right_eq_some]
  cases c.answer <;> simp [Except.toOption]

theorem Arrival.depth?_eq_none_iff {c : Arrival Nat} :
    c.depth? q = none ↔ (c.name = q → ∃ failure, c.answer = .error failure) := by
  rw [depth?, ite_eq_right_iff]
  cases c.answer <;> simp [Except.toOption]

theorem latestDepth?_append (outcomes later : List (Arrival Nat)) (q : String) :
    latestDepth? (outcomes ++ later) q =
      (latestDepth? later q).or (latestDepth? outcomes q) := by
  rw [latestDepth?, List.reverse_append, List.findSome?_append]
  rfl

/-- What outcomes do to anything that keeps the latest depth of a queue. -/
theorem latestDepth?_foldl {σ : Type} {f : σ → Arrival Nat → σ} (view : σ → Option Nat)
    (h : ∀ s c, view (f s c) = (c.depth? q).or (view s)) (outcomes : List (Arrival Nat)) (s : σ) :
    view (outcomes.foldl f s) = (latestDepth? outcomes q).or (view s) := by
  induction outcomes generalizing s with
  | nil => rfl
  | cons c outcomes ih =>
    have hc : latestDepth? [c] q = c.depth? q := by
      rw [latestDepth?, List.reverse_singleton, List.findSome?_cons]
      cases c.depth? q <;> rfl
    rw [List.foldl_cons, ih, h, ← List.singleton_append, latestDepth?_append, hc, Option.or_assoc]

theorem latestDepth?_eq_some_iff {outcomes : List (Arrival Nat)} {depth : Nat} :
    latestDepth? outcomes q = some depth ↔
      ∃ before c later, outcomes = before ++ c :: later ∧ (c.name = q ∧ c.answer = .ok depth) ∧
        ∀ c' ∈ later, c'.name = q → ∃ failure, c'.answer = .error failure := by
  simp only [latestDepth?, List.findSome?_eq_some_iff, ← Arrival.depth?_eq_some_iff,
    ← Arrival.depth?_eq_none_iff]
  constructor
  · rintro ⟨later, c, before, houtcomes, hc, hlater⟩
    refine ⟨before.reverse, c, later.reverse, ?_, hc,
      fun c' hc' ↦ hlater c' (List.mem_reverse.mp hc')⟩
    rw [← List.reverse_reverse outcomes, houtcomes]
    simp
  · rintro ⟨before, c, later, rfl, hc, hlater⟩
    exact ⟨later.reverse, c, before.reverse, by simp, hc, fun c' hc' ↦
      hlater c' (List.mem_reverse.mp hc')⟩

theorem isSome_latestDepth?_iff {outcomes : List (Arrival Nat)} :
    (latestDepth? outcomes q).isSome ↔
      ∃ c ∈ outcomes, c.name = q ∧ ∃ depth, c.answer = .ok depth := by
  rw [latestDepth?, List.findSome?_isSome_iff]
  simp only [List.mem_reverse, Option.isSome_iff_exists, Arrival.depth?_eq_some_iff,
    exists_and_left]

/-! ### Ticks in turn -/

theorem Gauges.value?_note (g : Gauges) (c : Arrival Nat) :
    (g.note c).value? q = (c.depth? q).or (g.value? q) := by
  obtain ⟨name, answer, moment⟩ := c
  rcases answer with failure | depth
  · simp [note]
  · simp only [note, set, value?, Table.get?_insert, Arrival.depth?, Except.toOption,
      eq_comm (a := q)]
    split <;> rfl

theorem Gauges.value?_foldl_note (outcomes : List (Arrival Nat)) (g : Gauges) (q : String) :
    (outcomes.foldl note g).value? q = (latestDepth? outcomes q).or (g.value? q) :=
  latestDepth?_foldl (fun g : Gauges ↦ g.value? q) value?_note outcomes g

theorem Sample.get?_depths_note (s : Sample) (c : Arrival Nat) :
    (s.note c).depths.get? q = (c.depth? q).or (s.depths.get? q) := by
  obtain ⟨name, answer, moment⟩ := c
  rcases answer with failure | depth
  · cases failure <;> simp [note]
  · simp only [note, Table.get?_insert, Arrival.depth?, Except.toOption, eq_comm (a := q)]
    split <;> rfl

namespace Autoscaler

variable [Rate R] {a : Autoscaler R} {m : Memory R} {e : Encounter} {r : Report R}

/-- The depths in the report of a tick. -/
theorem get?_depths_tick (a : Autoscaler R) (m : Memory R) (e : Encounter) (q : String) :
    (a.tick m e).1.depths.get? q = latestDepth? e.samples q := by
  rw [(a.sample_tick m e).1, sample, Sample.depths_close]
  exact (latestDepth?_foldl (fun s : Sample ↦ s.depths.get? q) Sample.get?_depths_note e.samples
    {}).trans Option.or_none

theorem gauges_after (a : Autoscaler R) (m : Memory R) (es : List Encounter) :
    (a.after m es).gauges = (es.flatMap Encounter.samples).foldl Gauges.note m.gauges := by
  induction es generalizing m with
  | nil => rfl
  | cons e es ih =>
    rw [List.flatMap_cons, List.foldl_append]
    exact ih (a.tick m e).2

theorem after_append (a : Autoscaler R) (m : Memory R) (es es' : List Encounter) :
    a.after m (es ++ es') = a.after (a.after m es) es' := List.foldl_append

/-- A gauge shows the latest depth that any query came to. -/
theorem value?_gauges_after (a : Autoscaler R) (m : Memory R) (es : List Encounter) (q : String) :
    (a.after m es).gauges.value? q =
      (latestDepth? (es.flatMap Encounter.samples) q).or (m.gauges.value? q) := by
  rw [gauges_after, Gauges.value?_foldl_note]

/-- After a tick that returns a report, and others that do not sample a queue, its gauge shows the
depth in this report. -/
theorem value?_gauges_after_of_returned {later : List Encounter} {depth : Nat}
    (hr : a.returned? m e = some r) (hlater : ∀ e' ∈ later, ¬ e'.Samples q)
    (hdepth : r.depths.get? q = some depth) :
    (a.after m (e :: later)).gauges.value? q = some depth := by
  obtain ⟨-, rfl⟩ := returned?_eq_some_iff.mp hr
  rw [get?_depths_tick] at hdepth
  have hunsampled : latestDepth? (later.flatMap Encounter.samples) q = none := by
    refine Option.not_isSome_iff_eq_none.mp fun h ↦ ?_
    obtain ⟨c, hc, hname, hok⟩ := isSome_latestDepth?_iff.mp h
    obtain ⟨e', he', hc⟩ := List.mem_flatMap.mp hc
    exact hlater e' he' ⟨c, hc, hname, hok⟩
  rw [value?_gauges_after, List.flatMap_cons, latestDepth?_append, hunsampled, hdepth]
  rfl

/-- **The last report** is that of a tick after which all others have died. -/
theorem exists_of_lastReport_after (hfresh : m.lastReport = none) {es : List Encounter}
    (h : (a.after m es).lastReport = some r) :
    ∃ before e later, es = before ++ e :: later ∧ a.returned? (a.after m before) e = some r ∧
      ∀ e' ∈ later, e'.dies a.strategy.scalingEnabled = true := by
  induction es using List.reverseRecOn with
  | nil => cases hfresh.symm.trans h
  | append_singleton es e ih =>
    rw [after_append] at h
    have hlast := (a.lastReport_tick (a.after m es) e).symm.trans h
    cases hreturned : a.returned? (a.after m es) e with
    | some r' =>
      rw [hreturned, Option.some_or] at hlast
      exact ⟨es, e, [], rfl, hreturned.trans hlast, nofun⟩
    | none =>
      rw [hreturned, Option.none_or] at hlast
      obtain ⟨before, e₀, later, rfl, hr, hdied⟩ := ih hlast
      have hdies := Encounter.dies_iff.mpr (returned?_eq_none_iff.mp hreturned)
      refine ⟨before, e₀, later ++ [e], by simp, hr, fun e' he' ↦ ?_⟩
      rcases List.mem_append.mp he' with he' | he'
      · exact hdied e' he'
      · rwa [List.mem_singleton.mp he']

end Autoscaler

/-! ### Calls in any order -/

/-- The outcome of a depth query, if one comes in with a step. -/
def Step.sample? : Step → Option (Arrival Nat)
  | .depth arrival => some arrival
  | _ => none

/-- The outcomes of depth queries that came in during a run. -/
def Trace.outcomes (t : Trace R) : List (Arrival Nat) :=
  t.steps.filterMap fun event ↦ event.2.sample?

namespace System

variable [Rate R] {a : Autoscaler R} {phase : Phase R} {step : Step}

/-- A step sets a gauge when the outcome of a depth query comes in, and at no other time. -/
theorem gauges_stepCall (a : Autoscaler R) (guarded : Bool) (m : Memory R)
    (hfits : phase.fits step = true) :
    (stepCall a guarded m phase step).2.2.gauges =
      step.sample?.toList.foldl Gauges.note m.gauges := by
  cases phase with
  | waiting =>
    cases step with
    | enter now => cases guarded <;> rfl
    | _ => cases hfits
  | sampling start sample =>
    cases step with
    | depth c => rfl
    | depthsDone =>
      simp only [stepCall]
      split <;> rfl
    | _ => cases hfits
  | listing start sample =>
    cases step with
    | listed listing now =>
      by_cases hdead : listing = .error .aborted
      · subst hdead
        rfl
      · rw [stepCall_listed hdead]
        rfl
    | _ => cases hfits
  | commanding report => cases step <;> first | rfl | cases hfits
  | published report => cases step <;> first | rfl | cases hfits
  | returned report => cases step <;> cases hfits
  | died => cases step <;> cases hfits

/-- **The gauges at every moment** are those that the outcomes so far have set. -/
theorem gauges_run (a : Autoscaler R) (m : Memory R) (n : Nat) (events : List (Nat × Step)) :
    ((idle m n).run a events).memory.gauges =
      ((idle m n).trace a events).outcomes.foldl Gauges.note m.gauges := by
  induction events using List.reverseRecOn with
  | nil => rfl
  | append_singleton events event ih =>
    obtain ⟨i, step⟩ := event
    rw [run_append, trace_append]
    by_cases hfits : ∃ phase, ((idle m n).run a events).calls[i]? = some phase ∧
        phase.fits step = true
    · obtain ⟨phase, hi, hfits⟩ := hfits
      rw [step_eq hi, note_eq hi hfits]
      simp only [gauges_stepCall a _ _ hfits, ih, Trace.outcomes, List.filterMap_append,
        List.foldl_append]
      cases step <;> rfl
    · obtain ⟨hstep, hnote⟩ := step_note_eq_self (t := (idle m n).trace a events)
        fun phase hi ↦ Bool.eq_false_of_not_eq_true fun h ↦ hfits ⟨phase, hi, h⟩
      rw [hstep, hnote, ih]

end System

/-! ### What the status interface shows -/

namespace Gauges

theorem map_fst_readings (g : Gauges) : g.readings.map Prod.fst = g.values.keys := by
  rw [readings, List.map_map]
  rfl

theorem mem_readings {g : Gauges} {depth : Nat} :
    (q, depth) ∈ g.readings ↔ g.value? q = some depth := by
  simp only [readings, value?, List.mem_map, Option.map_eq_some_iff, Prod.mk.injEq]
  constructor
  · rintro ⟨⟨_, gauge⟩, hmem, rfl, rfl⟩
    exact ⟨gauge, Table.mem_entries_iff.mp hmem, rfl⟩
  · rintro ⟨gauge, hgauge, rfl⟩
    exact ⟨(q, gauge), Table.mem_entries_iff.mpr hgauge, rfl, rfl⟩

end Gauges

namespace Status

/-- A member of a document. -/
def member? (name : String) : Document → Option Document
  | .object members => (members.find? fun m ↦ m.1 = name).map Prod.snd
  | _ => none

/-- The queue and the depth that a row of a status document shows. -/
def rowDepth? (row : Document) : Option (String × Nat) :=
  match member? "queue" row, member? "value" row with
  | some (.text queue), some (.number (.count depth)) => some (queue, depth.toNat)
  | _, _ => none

/-- The depths that a status document shows. -/
def depths? (d : Document) : Option (List (String × Nat)) :=
  match (member? "data" d).bind (member? "queues") with
  | some (.array rows) => rows.mapM rowDepth?
  | _ => none

theorem depths?_overview (m : Memory Float) : depths? (overview m) = some m.gauges.readings := by
  have hrows (entries : List (String × Gauge)) :
      (entries.map fun e ↦ (.object [("queue", .text e.1), ("value", .count e.2.value),
        ("updated_at", .count e.2.sampledAt.epochSeconds)] : Document)).mapM rowDepth? =
          some (entries.map fun e ↦ (e.1, e.2.value)) := by
    induction entries with
    | nil => rfl
    | cons entry entries ih =>
      rw [List.map_cons, List.mapM_cons, ih]
      rfl
  exact hrows m.gauges.values.entries

theorem respond_status (m : Memory Float) (exportMetrics : Bool) :
    respond m exportMetrics "GET" "/status" =
      ⟨200, some "application/json", .document (overview m)⟩ := by
  have hpath : pathOf "/status" = "/status" := by cbv
  rw [respond, hpath]
  rfl

theorem respond_metrics (m : Memory Float) :
    respond m true "GET" "/metrics" =
      ⟨200, some "text/plain; version=0.0.4; charset=utf-8", .text m.gauges.render⟩ := by
  have hpath : pathOf "/metrics" = "/metrics" := by cbv
  rw [respond, hpath]
  rfl

end Status

/-! ### Gauges against outcomes -/

/-- Whether the gauges, and what the status interface shows of them, are what the depth queries with
some outcomes, in the order in which they came in, have come to last. -/
structure Memory.ShowsLatest (m : Memory Float) (outcomes : List (Arrival Nat)) : Prop where
  /-- A queue has a gauge exactly if some query for it succeeded. -/
  mem_iff : ∀ q, q ∈ m.gauges.values ↔
    ∃ c ∈ outcomes, c.name = q ∧ ∃ depth, c.answer = .ok depth
  /-- The gauge shows the depth that the latest such query came to. -/
  value_iff : ∀ q depth, m.gauges.value? q = some depth ↔
    ∃ before c later, outcomes = before ++ c :: later ∧ (c.name = q ∧ c.answer = .ok depth) ∧
      ∀ c' ∈ later, c'.name = q → ∃ failure, c'.answer = .error failure
  /-- The status document and the exposition show the gauges, in name order. -/
  shown : ∃ shown : List (String × Nat), shown.map Prod.fst = m.gauges.values.keys ∧
    (∀ q depth, (q, depth) ∈ shown ↔ m.gauges.value? q = some depth) ∧
    (∀ exportMetrics, ∃ d, Status.respond m exportMetrics "GET" "/status" =
        ⟨200, some "application/json", .document d⟩ ∧ Status.depths? d = some shown) ∧
    Status.respond m true "GET" "/metrics" =
      ⟨200, some "text/plain; version=0.0.4; charset=utf-8",
        .text (Exposition.render m.gauges.application shown)⟩

theorem Memory.showsLatest {m : Memory Float} {outcomes : List (Arrival Nat)}
    {application : String} (h : m.gauges = outcomes.foldl Gauges.note { application }) :
    m.ShowsLatest outcomes := by
  have hvalue (q : String) : m.gauges.value? q = latestDepth? outcomes q := by
    rw [h, Gauges.value?_foldl_note]
    exact Option.or_none
  refine ⟨fun q ↦ ?_, fun q depth ↦ ?_, ?_⟩
  · rw [← isSome_latestDepth?_iff, ← hvalue, Gauges.value?, Option.isSome_map]
    rfl
  · rw [hvalue, latestDepth?_eq_some_iff]
  · exact ⟨m.gauges.readings, Gauges.map_fst_readings _, fun _ _ ↦ Gauges.mem_readings,
      fun exportMetrics ↦ ⟨_, Status.respond_status m exportMetrics, Status.depths?_overview m⟩,
      Status.respond_metrics m⟩

namespace Autoscaler

/-- **Gauges always show the last good sample,** however long the run, whatever the queries, the
listings and the commands come to, and whether scaling is enabled or not. Let an autoscaler start
without gauges.
* After any run of ticks the gauges, the status document and the exposition show, for each queue
  whose query succeeded at some time, the depth that it came to the last time, and nothing else.
* The report that a tick returns has the depths of the queues that this tick sampled. The gauge of a
  queue shows the depth in the report of the latest tick that sampled it, if it returned one.
* The last report is that of the latest tick that did not die. Its depths are those of the gauges,
  but for queues that a tick has sampled and then died.
* If any number of calls take their steps in any order, the gauges show at every moment what the
  queries have come to last. Whenever no tick is under way, they are the gauges after ticks in turn
  that have met what the calls have met and returned what the calls have returned.
* A call that is left alone does one such tick.
* A query that fails, in whatever way, leaves the gauge of its queue as it was. -/
theorem gauges_show_latest (a : Autoscaler Float) (application : String) (history : History) :
    let fresh : Memory Float := { gauges := { application }, history }
    (∀ es, (a.after fresh es).ShowsLatest (es.flatMap Encounter.samples)) ∧
      (∀ before e r, a.returned? (a.after fresh before) e = some r →
        (∀ q, q ∈ r.depths ↔ e.Samples q) ∧
          ∀ q depth later, r.depths.get? q = some depth → (∀ e' ∈ later, ¬ e'.Samples q) →
            (a.after fresh (before ++ e :: later)).gauges.value? q = some depth) ∧
      (∀ es r, (a.after fresh es).lastReport = some r →
        ∃ before e later, es = before ++ e :: later ∧
          a.returned? (a.after fresh before) e = some r ∧
          (∀ e' ∈ later, e'.dies a.strategy.scalingEnabled = true) ∧
          ∀ q depth, r.depths.get? q = some depth →
            (a.after fresh es).gauges.value? q = some depth ∨ ∃ e' ∈ later, e'.Samples q) ∧
      (∀ n events,
        let s := (System.idle fresh n).run a events
        let t := (System.idle fresh n).trace a events
        s.memory.ShowsLatest t.outcomes ∧
          (s.guarded = false → ∃ done : List (Nat × Encounter), (done.map Prod.fst).Nodup ∧
            (∀ i e, (i, e) ∈ done → t.stepsOf i = e.steps a.strategy.scalingEnabled) ∧
              t.returns = a.reportsInTurn fresh done ∧
              s.memory = a.after fresh (done.map Prod.snd))) ∧
      (∀ (s : System Float) i e, s.guarded = false → s.calls[i]? = some .waiting →
        let s' := s.run a ((e.steps a.strategy.scalingEnabled).map (i, ·))
        s'.guarded = false ∧ s'.memory = (a.tick s.memory e).2) ∧
      ∀ m e q, (∀ c ∈ e.samples, c.name = q → ∃ failure, c.answer = .error failure) →
        (a.tick m e).2.gauges.values.get? q = m.gauges.values.get? q := by
  intro fresh
  refine ⟨fun es ↦ Memory.showsLatest (a.gauges_after fresh es), fun before e r hr ↦ ⟨fun q ↦ ?_,
    fun q depth later hdepth hlater ↦ ?_⟩, fun es r hlast ↦ ?_, fun n events ↦
    ⟨Memory.showsLatest (System.gauges_run a fresh n events), fun hfree ↦ ?_⟩,
    fun s i e hfree hi ↦ ?_, fun m e q hfailed ↦ ?_⟩
  · obtain ⟨-, rfl⟩ := returned?_eq_some_iff.mp hr
    rw [Table.mem_iff_get?, ← Option.isSome_iff_exists, get?_depths_tick, isSome_latestDepth?_iff]
    rfl
  · rw [after_append]
    exact value?_gauges_after_of_returned hr hlater hdepth
  · obtain ⟨before, e, later, rfl, hr, hdied⟩ := exists_of_lastReport_after rfl hlast
    refine ⟨before, e, later, rfl, hr, hdied, fun q depth hdepth ↦ or_iff_not_imp_right.mpr ?_⟩
    intro hlater
    rw [after_append]
    exact value?_gauges_after_of_returned hr (fun e' he' hq ↦ hlater ⟨e', he', hq⟩) hdepth
  · obtain ⟨htold, done, hserial⟩ := System.serial_run a fresh n events
    exact ⟨done, hserial.nodup, hserial.steps, hserial.returns,
      hserial.memory_of_free htold hfree⟩
  · intro s'
    have hs' : s' = _ := System.run_steps hfree hi e
    rw [hs']
    exact ⟨rfl, rfl⟩
  · refine Gauges.get?_values_foldl_note_of_failed _ ?_
    rintro ⟨c, hc, hname, depth, hdepth⟩
    obtain ⟨failure, hfailure⟩ := hfailed c hc hname
    cases hdepth.symm.trans hfailure

theorem fault?_lone_eq_none :
    Wiring.fault? (.ofList [("in", (⟨"reader", 60, ∅⟩ : Binding Float))]) = none := by
  have hrates : Wiring.rateFault? (.ofList [("in", (⟨"reader", 60, ∅⟩ : Binding Float))]) = none :=
    rfl
  have hcycle (x : Float) :
      Wiring.findCycle? (.ofList [("in", (⟨"reader", x, ∅⟩ : Binding Float))]) = none := by cbv
  rw [Wiring.fault?, hrates]
  exact congrArg (Option.map _) (hcycle 60)

/-- A service that drains one queue. -/
def loneReader : Autoscaler Float where
  pipeline := ⟨_, fault?_lone_eq_none⟩
  strategy :=
    { exportMetrics := true, scalingEnabled := true, followUpEnabled := true
      decreasePerMinute := 1, stabilizationSeconds := 300, maxReplicas := 8 }

/-- What the lone reader meets: the outcomes of its query and of its listing. -/
def loneEncounter (input : Answer Nat) (listing : Answer (Table Nat)) (now : Instant) :
    Encounter :=
  ⟨now, [⟨"in", input, now⟩], listing, now, []⟩

/-- A query that fails after one that succeeded leaves the gauge as it was, and the report of its
tick has no depth. A tick that then dies with its listing leaves the depth that it sampled in the
gauge. -/
theorem loneReader_keeps_gauge :
    let fresh : Memory Float := { gauges := { application := "lone" } }
    let sampled := loneEncounter (.ok 600) (.ok ∅) 0
    let failed := loneEncounter (.error .timedOut) (.ok ∅) 1
    let lost := loneEncounter (.ok 700) (.error .aborted) 2
    (sampled.Samples "in" ∧ ¬ failed.Samples "in" ∧ lost.Samples "in") ∧
      (loneReader.after fresh [sampled, failed]).gauges.value? "in" = some 600 ∧
      (∀ r, loneReader.returned? (loneReader.after fresh [sampled]) failed = some r →
        "in" ∉ r.depths) ∧
      (loneReader.after fresh [sampled, failed, lost]).gauges.value? "in" = some 700 := by
  intro fresh sampled failed lost
  obtain ⟨hshows, hreports, -⟩ := gauges_show_latest loneReader "lone" ∅
  have hsampled : sampled.Samples "in" := ⟨_, List.mem_cons_self, rfl, 600, rfl⟩
  have hfailed : ¬ failed.Samples "in" := by
    rintro ⟨c, hc, -, depth, hdepth⟩
    rw [List.mem_singleton.mp hc] at hdepth
    cases hdepth
  have hlost : lost.Samples "in" := ⟨_, List.mem_cons_self, rfl, 700, rfl⟩
  refine ⟨⟨hsampled, hfailed, hlost⟩, ?_, fun r hr hmem ↦ ?_, ?_⟩
  · refine ((hshows [sampled, failed]).value_iff "in" 600).mpr
      ⟨[], _, _, rfl, ⟨rfl, rfl⟩, fun c hc _ ↦ ⟨.timedOut, ?_⟩⟩
    rw [List.mem_singleton.mp hc]
  · exact hfailed (((hreports [sampled] failed r hr).1 "in").mp hmem)
  · exact ((hshows [sampled, failed, lost]).value_iff "in" 700).mpr
      ⟨[⟨"in", .ok 600, 0⟩, ⟨"in", .error .timedOut, 1⟩], _, [], rfl, ⟨rfl, rfl⟩, nofun⟩

end Autoscaler

end QueueScaler
