import QueueScaler.Proofs.Scaling.Accounting
/-!
# Calls do not disturb each other

The outcomes of a round of calls come in in any order. What a tick holds for a queue afterwards
comes from the outcome of its own query, and what it holds for a service from the decision on it and
the outcome of its own command. Outcomes that come in before or after, and what they say, make no
difference.

## Main definitions

* `QueueEntry`, `Autoscaler.queueEntry`: what a tick holds for a queue.
* `ServiceEntry`, `Autoscaler.serviceEntry`: what a tick holds for a service.
* `Autoscaler.Complete`: whether each query and each command of a tick has one outcome.

## Main results

* `Autoscaler.queueEntry_eq`, `Autoscaler.serviceEntry_eq`: these entries in any order of the
  outcomes.
* `Autoscaler.tick_eq_of_perm`: a tick does not depend on that order.
* `Autoscaler.entries_isolated`: every entry comes from one outcome.
-/

namespace QueueScaler

variable {R : Type}

/-! ### What is held for a queue -/

/-- What a tick holds for a queue: its depth or how its query failed, and its gauge. -/
structure QueueEntry where
  /-- The sampled depth. -/
  depth : Option Nat
  /-- How the query failed. -/
  failure : Option CallFailure
  /-- The gauge. -/
  gauge : Option Gauge
  deriving DecidableEq

/-- What the outcome of its query makes of a queue's gauge: an answer gives the depth and sets the
gauge, a failure leaves the gauge as it was. -/
def QueueEntry.after (previous : Option Gauge) (c : Arrival Nat) : QueueEntry :=
  match c.answer with
  | .ok n => ⟨some n, none, some ⟨n, c.moment⟩⟩
  | .error failure => ⟨none, some failure, previous⟩

/-- What a tick holds for a queue. -/
def Autoscaler.queueEntry [Rate R] (a : Autoscaler R) (m : Memory R) (e : Encounter)
    (queue : String) : QueueEntry :=
  ⟨(a.tick m e).1.depths.get? queue, (a.tick m e).1.failedQueues.get? queue,
    (a.tick m e).2.gauges.values.get? queue⟩

theorem Sample.get?_failed_noteMissing (s : Sample) (queue q : String) :
    (s.noteMissing queue).failed.get? q =
      (s.failed.get? q).or (if q = queue ∧ q ∉ s.depths then some .aborted else none) := by
  rw [noteMissing]
  by_cases hq : q = queue
  · subst hq
    split
    · rename_i hknown
      rcases hknown with hdepth | hfailed
      · rw [if_neg fun h ↦ h.2 hdepth, Option.or_none]
      · obtain ⟨failure, hfailure⟩ := Table.mem_iff_get?.mp hfailed
        rw [hfailure, Option.some_or]
    · rename_i hunknown
      obtain ⟨hdepth, hfailed⟩ := not_or.mp hunknown
      rw [Table.not_mem_iff_get?.mp hfailed, Option.none_or, if_pos ⟨rfl, hdepth⟩]
      exact Table.get?_insert_self ..
  · rw [if_neg (c := q = queue ∧ _) fun h ↦ hq h.1, Option.or_none]
    split
    · rfl
    · exact (Table.get?_insert ..).trans (if_neg hq)

/-- A queue that nothing was heard of counts as one whose query died. -/
theorem Sample.get?_failed_close (s : Sample) (queues : List String) (q : String) :
    (s.close queues).failed.get? q =
      (s.failed.get? q).or (if q ∈ queues ∧ q ∉ s.depths then some .aborted else none) := by
  rw [close]
  induction queues generalizing s with
  | nil => rw [if_neg fun h ↦ List.not_mem_nil h.1, Option.or_none, List.foldl_nil]
  | cons queue queues ih =>
    rw [List.foldl_cons, ih, get?_failed_noteMissing, Option.or_assoc, depths_noteMissing]
    congr 1
    by_cases hnew : q = queue ∧ q ∉ s.depths
    · rw [if_pos hnew, Option.some_or, if_pos ⟨List.mem_cons.mpr (.inl hnew.1), hnew.2⟩]
    · rw [if_neg hnew, Option.none_or]
      exact if_congr (by rw [List.mem_cons]; tauto) rfl rfl

theorem Gauges.get?_values_foldl_note (samples : List (Arrival Nat)) (g : Gauges) (q : String) :
    (samples.foldl note g).values.get? q = (samples.filter (·.name = q)).foldl
      (fun gauge c ↦ match c.answer with
        | .ok n => some ⟨n, c.moment⟩
        | .error _ => gauge) (g.values.get? q) := by
  refine Arrival.view_foldl (fun g : Gauges ↦ g.values.get? q) (fun g c hne ↦ ?_)
    (fun g c heq ↦ ?_) samples g
  · rw [note]
    split
    · exact (Table.get?_insert ..).trans (if_neg (Ne.symm hne))
    · rfl
  · obtain ⟨name, answer, moment⟩ := c
    subst heq
    cases answer with
    | error failure => rfl
    | ok n => exact Table.get?_insert_self ..

theorem Gauges.application_foldl_note (samples : List (Arrival Nat)) (g : Gauges) :
    (samples.foldl note g).application = g.application := by
  induction samples generalizing g with
  | nil => rfl
  | cons c samples ih =>
    rw [List.foldl_cons, ih, note]
    split <;> rfl

/-! ### What is held for a service -/

/-- What a tick holds for a service: the count applied or how its command failed, and the moment of
its last scale-up. -/
structure ServiceEntry where
  /-- The replica count acknowledged. -/
  applied : Option Nat
  /-- How the command failed. -/
  failure : Option CallFailure
  /-- The moment of the last scale-up. -/
  scaledUp : Option Instant
  deriving DecidableEq

/-- What the outcome of its command makes of the entry of a service, given the decision. Only an
acknowledged scale-up is dated; a command that dies leaves no trace. -/
def ServiceEntry.after (decision : Option Decision) (entry : ServiceEntry) (c : Arrival Unit) :
    ServiceEntry :=
  match decision.bind Decision.target, c.answer with
  | none, _ => entry
  | some _, .error .aborted => entry
  | some _, .error failure => { entry with failure := some failure }
  | some n, .ok () =>
    match decision with
    | some (.scaleUp ..) => { entry with applied := some n, scaledUp := some c.moment }
    | _ => { entry with applied := some n }

/-- What a report and a history hold for a service. -/
def Report.serviceEntry (r : Report R) (history : History) (service : String) : ServiceEntry :=
  ⟨r.applied.get? service, r.failedCommands.get? service, history.get? service⟩

/-- What a tick holds for a service. -/
def Autoscaler.serviceEntry [Rate R] (a : Autoscaler R) (m : Memory R) (e : Encounter)
    (service : String) : ServiceEntry :=
  (a.tick m e).1.serviceEntry (a.tick m e).2.history service

/-- An answered command touches the entry of its own service. -/
theorem Report.serviceEntry_acknowledge (r : Report R) (history : History) (c : Arrival Unit)
    (s : String) :
    (r.acknowledge history c).1.serviceEntry (r.acknowledge history c).2 s =
      if c.name = s then .after (r.decisions.get? s) (r.serviceEntry history s) c
      else r.serviceEntry history s := by
  obtain ⟨name, answer, moment⟩ := c
  by_cases hname : name = s
  · subst hname
    rw [if_pos rfl, acknowledge]
    rcases r.decisions.get? name with _ | (_ | _ | _ | _)
    · rfl
    · rcases answer with (_ | _ | _) | ⟨⟩ <;>
        simp [serviceEntry, ServiceEntry.after, Decision.target, History.record]
    · rcases answer with (_ | _ | _) | ⟨⟩ <;>
        simp [serviceEntry, ServiceEntry.after, Decision.target]
    · rfl
    · rfl
  · have hother {α : Type} (t : Table α) (x : α) : (t.insert name x).get? s = t.get? s :=
      (Table.get?_insert ..).trans (if_neg (Ne.symm hname))
    rw [if_neg hname, acknowledge]
    split
    · rfl
    · split
      · rfl
      · rfl
      · simp [serviceEntry, hother]
      · split <;> simp [serviceEntry, History.record, hother]

/-- What is held for a service after several commands comes from its own ones. -/
theorem Report.serviceEntry_foldl_acknowledge (commands : List (Arrival Unit)) (r : Report R)
    (history : History) (s : String) :
    (commands.foldl (fun (r, h) c ↦ r.acknowledge h c) (r, history)).1.serviceEntry
        (commands.foldl (fun (r, h) c ↦ r.acknowledge h c) (r, history)).2 s =
      (commands.filter (·.name = s)).foldl (ServiceEntry.after (r.decisions.get? s))
        (r.serviceEntry history s) := by
  induction commands generalizing r history with
  | nil => rfl
  | cons c commands ih =>
    rw [List.foldl_cons, List.filter_cons]
    refine (ih (r.acknowledge history c).1 (r.acknowledge history c).2).trans ?_
    rw [decisions_acknowledge, serviceEntry_acknowledge]
    by_cases hc : c.name = s
    · rw [if_pos hc, if_pos (decide_eq_true hc), List.foldl_cons]
    · rw [if_neg hc, if_neg (mt of_decide_eq_true hc)]

/-! ### A whole tick -/

namespace Autoscaler

variable [Rate R] {a : Autoscaler R} {m m' : Memory R} {e e' : Encounter} {q s : String}

/-- Whether each query and each command of a tick has one outcome, in any order. -/
structure Complete (a : Autoscaler R) (m : Memory R) (e : Encounter) : Prop where
  /-- There is one query for each managed queue. -/
  samples : (e.samples.map Arrival.name).Perm a.pipeline.wiring.keys
  /-- The commands are those of the report. -/
  commands : (e.commands.map Arrival.name).Perm ((a.tick m e).1.commands.map Prod.fst)

theorem Complete.nodup_samples (h : a.Complete m e) : (e.samples.map Arrival.name).Nodup :=
  h.samples.nodup_iff.mpr a.pipeline.wiring.nodup_keys

theorem Complete.nodup_commands (h : a.Complete m e) : (e.commands.map Arrival.name).Nodup :=
  h.commands.nodup_iff.mpr (Report.nodup_commands _)

theorem get?_depths_sample (a : Autoscaler R) (samples : List (Arrival Nat)) (q : String) :
    (a.sample samples).depths.get? q = (samples.filter (·.name = q)).foldl
      (fun depth c ↦ match c.answer with
        | .ok n => some n
        | .error _ => depth) none := by
  rw [sample, Sample.depths_close, Sample.get?_depths_foldl_note]
  rfl

theorem get?_failed_sample (a : Autoscaler R) (samples : List (Arrival Nat)) (q : String) :
    (a.sample samples).failed.get? q =
      ((samples.filter (·.name = q)).foldl
        (fun failed c ↦ match c.answer with
          | .ok _ => failed
          | .error .aborted => failed
          | .error failure => some failure) none).or
        (if q ∈ a.pipeline.wiring ∧ (a.sample samples).depths.get? q = none then some .aborted
          else none) := by
  rw [sample, Sample.get?_failed_close, Sample.depths_close, Sample.get?_failed_foldl_note]
  simp only [Table.mem_keys_iff, Table.not_mem_iff_get?]
  rfl

/-- **What a tick holds for a queue** comes from the outcome of its own query and its gauge. -/
theorem queueEntry_eq (h : a.Complete m e) {c : Arrival Nat} (hc : c ∈ e.samples) :
    a.queueEntry m e c.name = .after (m.gauges.values.get? c.name) c := by
  have hmem : c.name ∈ a.pipeline.wiring :=
    Table.mem_keys_iff.mp (h.samples.mem_iff.mp (List.mem_map_of_mem hc))
  have hown := Arrival.filter_name_of_mem h.nodup_samples hc
  have hdepth := a.get?_depths_sample e.samples c.name
  have hfailed := a.get?_failed_sample e.samples c.name
  have hgauge := Gauges.get?_values_foldl_note e.samples m.gauges c.name
  rw [hown] at hdepth hfailed hgauge
  rw [queueEntry, (a.sample_tick m e).1, (a.sample_tick m e).2, hfailed, hdepth]
  refine (congrArg _ hgauge).trans ?_
  rcases hanswer : c.answer with (_ | _ | _) | n <;> simp [QueueEntry.after, hanswer, hmem]

/-- Of a queue that is not managed nothing is reported, and its gauge stays as it is. -/
theorem queueEntry_of_not_mem (h : a.Complete m e) (hq : q ∉ a.pipeline.wiring) :
    a.queueEntry m e q = ⟨none, none, m.gauges.values.get? q⟩ := by
  have hnone : q ∉ e.samples.map Arrival.name := fun hq' ↦
    hq (Table.mem_keys_iff.mp (h.samples.mem_iff.mp hq'))
  have hdepth := a.get?_depths_sample e.samples q
  have hfailed := a.get?_failed_sample e.samples q
  have hgauge := Gauges.get?_values_foldl_note e.samples m.gauges q
  rw [Arrival.filter_name_of_not_mem hnone] at hdepth hfailed hgauge
  rw [if_neg fun h ↦ hq h.1] at hfailed
  rw [queueEntry, (a.sample_tick m e).1, (a.sample_tick m e).2, hfailed, hdepth]
  exact congrArg _ hgauge

/-- What a tick holds for a service, from its own commands. -/
theorem serviceEntry_eq_foldl (a : Autoscaler R) (m : Memory R) (e : Encounter) (s : String) :
    a.serviceEntry m e s = (e.commands.filter (·.name = s)).foldl
      (ServiceEntry.after ((a.tick m e).1.decisions.get? s))
      ⟨none, none, m.history.get? s⟩ := by
  obtain ⟨-, -, happlied, hfailed⟩ :=
    a.assess_frame e.startedAt (a.sample e.samples) e.listing m.history e.decidedAt
  have h := Report.serviceEntry_foldl_acknowledge e.commands (a.decisions m e) m.history s
  rw [decisions_tick]
  refine h.trans (congrArg (List.foldl _ · _) ?_)
  rw [Report.serviceEntry, decisions, happlied, hfailed]
  rfl

/-- **What a tick holds for a service** comes from the decision on it, the outcome of its own
command, and its last scale-up. -/
theorem serviceEntry_eq (h : a.Complete m e) {c : Arrival Unit} (hc : c ∈ e.commands) :
    a.serviceEntry m e c.name =
      .after ((a.tick m e).1.decisions.get? c.name) ⟨none, none, m.history.get? c.name⟩ c := by
  rw [serviceEntry_eq_foldl, Arrival.filter_name_of_mem h.nodup_commands hc]
  rfl

/-- For a service that got no command nothing is reported, and its last scale-up stays. -/
theorem serviceEntry_of_not_mem (hs : s ∉ e.commands.map Arrival.name) :
    a.serviceEntry m e s = ⟨none, none, m.history.get? s⟩ := by
  rw [serviceEntry_eq_foldl, Arrival.filter_name_of_not_mem hs]
  rfl

/-! ### The order of the outcomes -/

theorem sample_eq_of_perm {samples samples' : List (Arrival Nat)}
    (hnodup : (samples.map Arrival.name).Nodup) (h : samples'.Perm samples) :
    a.sample samples' = a.sample samples := by
  have hown := Arrival.filter_name_of_perm hnodup h
  have hdepths : (a.sample samples').depths = (a.sample samples).depths :=
    Table.ext_get? fun q ↦ by rw [get?_depths_sample, get?_depths_sample, hown]
  have hfailed : (a.sample samples').failed = (a.sample samples).failed :=
    Table.ext_get? fun q ↦ by rw [get?_failed_sample, get?_failed_sample, hown, hdepths]
  revert hdepths hfailed
  cases a.sample samples'
  cases a.sample samples
  rintro rfl rfl
  rfl

theorem gauges_eq_of_perm {samples samples' : List (Arrival Nat)} (g : Gauges)
    (hnodup : (samples.map Arrival.name).Nodup) (h : samples'.Perm samples) :
    samples'.foldl Gauges.note g = samples.foldl Gauges.note g := by
  have happlication : (samples'.foldl Gauges.note g).application =
      (samples.foldl Gauges.note g).application := by
    rw [Gauges.application_foldl_note, Gauges.application_foldl_note]
  have hvalues : (samples'.foldl Gauges.note g).values = (samples.foldl Gauges.note g).values :=
    Table.ext_get? fun q ↦ by
      rw [Gauges.get?_values_foldl_note, Gauges.get?_values_foldl_note,
        Arrival.filter_name_of_perm hnodup h]
  revert happlication hvalues
  cases samples'.foldl Gauges.note g
  cases samples.foldl Gauges.note g
  rintro rfl rfl
  rfl

/-- What a tick decides does not depend on the order in which its queries are answered, nor on what
becomes of its commands. -/
theorem decisions_eq_of_perm (h : a.Complete m e) (hstart : e'.startedAt = e.startedAt)
    (hsamples : e'.samples.Perm e.samples) (hlisting : e'.listing = e.listing)
    (hnow : e'.decidedAt = e.decidedAt) : a.decisions m e' = a.decisions m e := by
  rw [decisions, decisions, hstart, sample_eq_of_perm h.nodup_samples hsamples, hlisting, hnow]

/-- **A tick does not depend on the order in which its calls are answered.** -/
theorem tick_eq_of_perm (h : a.Complete m e) (hstart : e'.startedAt = e.startedAt)
    (hsamples : e'.samples.Perm e.samples) (hlisting : e'.listing = e.listing)
    (hnow : e'.decidedAt = e.decidedAt) (hcommands : e'.commands.Perm e.commands) :
    a.tick m e' = a.tick m e := by
  have hdecisions := decisions_eq_of_perm h hstart hsamples hlisting hnow
  have hentry (s : String) : a.serviceEntry m e' s = a.serviceEntry m e s := by
    rw [serviceEntry_eq_foldl, serviceEntry_eq_foldl, decisions_tick, decisions_tick, hdecisions,
      Arrival.filter_name_of_perm h.nodup_commands hcommands]
  have happlied : (a.tick m e').1.applied = (a.tick m e).1.applied :=
    Table.ext_get? fun s ↦ congrArg ServiceEntry.applied (hentry s)
  have hfailed : (a.tick m e').1.failedCommands = (a.tick m e).1.failedCommands :=
    Table.ext_get? fun s ↦ congrArg ServiceEntry.failure (hentry s)
  have hhistory : (a.tick m e').2.history = (a.tick m e).2.history :=
    Table.ext_get? fun s ↦ congrArg ServiceEntry.scaledUp (hentry s)
  have hreport : (a.tick m e').1 = (a.tick m e).1 := by
    obtain ⟨applied, failedCommands, htick⟩ := a.exists_tick m e
    obtain ⟨applied', failedCommands', htick'⟩ := a.exists_tick m e'
    rw [htick, htick'] at happlied hfailed
    obtain rfl : applied' = applied := happlied
    obtain rfl : failedCommands' = failedCommands := hfailed
    rw [htick, htick', hdecisions]
  have hgauges : (a.tick m e').2.gauges = (a.tick m e).2.gauges :=
    gauges_eq_of_perm m.gauges h.nodup_samples hsamples
  have hdies (on : Bool) : e'.dies on = e.dies on := by
    rw [Encounter.dies, Encounter.dies, hlisting]
  have hlast : (a.tick m e').2.lastReport = (a.tick m e).2.lastReport := by
    rw [lastReport_tick, lastReport_tick, returned?, returned?, hdies, hreport]
  refine Prod.ext hreport ?_
  revert hhistory hgauges hlast
  cases (a.tick m e').2
  cases (a.tick m e).2
  rintro rfl rfl rfl
  rfl

/-- **Calls do not disturb each other,** whatever their outcomes and in whatever order they come in,
as long as each query and each command has one outcome. What a tick holds for a queue comes from the
outcome of its own query and its previous gauge, and what it holds for a service from the decision
on it, the outcome of its own command and its previous scale-up; a queue without a query and a
service without a command are left as they were. So another tick, with other outcomes for other
queues and services, holds the same. In particular a tick whose calls are answered in another order
is the same tick: even if other things become of its commands, it makes the same decisions. -/
theorem entries_isolated (h : a.Complete m e) :
    (∀ c ∈ e.samples, a.queueEntry m e c.name = .after (m.gauges.values.get? c.name) c) ∧
      (∀ q, q ∉ a.pipeline.wiring →
        a.queueEntry m e q = ⟨none, none, m.gauges.values.get? q⟩) ∧
      (∀ c ∈ e.commands, a.serviceEntry m e c.name =
        .after ((a.tick m e).1.decisions.get? c.name) ⟨none, none, m.history.get? c.name⟩ c) ∧
      (∀ s, s ∉ e.commands.map Arrival.name →
        a.serviceEntry m e s = ⟨none, none, m.history.get? s⟩) ∧
      (∀ m' e', a.Complete m' e' →
        (∀ c ∈ e.samples, c ∈ e'.samples →
          m'.gauges.values.get? c.name = m.gauges.values.get? c.name →
          a.queueEntry m' e' c.name = a.queueEntry m e c.name) ∧
        ∀ c ∈ e.commands, c ∈ e'.commands →
          (a.tick m' e').1.decisions.get? c.name = (a.tick m e).1.decisions.get? c.name →
          m'.history.get? c.name = m.history.get? c.name →
          a.serviceEntry m' e' c.name = a.serviceEntry m e c.name) ∧
      ∀ e', e'.startedAt = e.startedAt → e'.samples.Perm e.samples → e'.listing = e.listing →
        e'.decidedAt = e.decidedAt →
        (a.tick m e').1.decisions = (a.tick m e).1.decisions ∧
          (e'.commands.Perm e.commands → a.tick m e' = a.tick m e) := by
  refine ⟨fun c hc ↦ queueEntry_eq h hc, fun q hq ↦ queueEntry_of_not_mem h hq,
    fun c hc ↦ serviceEntry_eq h hc, fun s hs ↦ serviceEntry_of_not_mem hs,
    fun m' e' h' ↦ ⟨fun c hc hc' hgauge ↦ ?_, fun c hc hc' hdecision hhistory ↦ ?_⟩,
    fun e' hstart hsamples hlisting hnow ↦ ⟨?_, fun hcommands ↦ ?_⟩⟩
  · rw [queueEntry_eq h hc, queueEntry_eq h' hc', hgauge]
  · rw [serviceEntry_eq h hc, serviceEntry_eq h' hc', hdecision, hhistory]
  · rw [decisions_tick, decisions_tick, decisions_eq_of_perm h hstart hsamples hlisting hnow]
  · exact tick_eq_of_perm h hstart hsamples hlisting hnow hcommands

/-- The reader of a relay is scaled up although the command to the writer dies, and the tick is the
same when all its calls are answered in the opposite order. -/
theorem relay_reader_isolated :
    relay.Complete (.relay ∅) lostWriter ∧
      relay.serviceEntry (.relay ∅) lostWriter "reader" = ⟨some 8, none, some 5⟩ ∧
      relay.tick (.relay ∅) { lostWriter with
        samples := lostWriter.samples.reverse, commands := lostWriter.commands.reverse } =
        relay.tick (.relay ∅) lostWriter := by
  have hnames : (relay.tick (.relay ∅) lostWriter).1.commands.map Prod.fst =
      ["reader", "writer"] := by cbv
  have hcomplete : relay.Complete (.relay ∅) lostWriter :=
    ⟨by decide, by rw [hnames]; decide⟩
  have hdecision : (relay.tick (.relay ∅) lostWriter).1.decisions.get? "reader" =
      some (.scaleUp 1 8) := by cbv
  obtain ⟨-, -, hservices, -, -, horder⟩ := entries_isolated hcomplete
  have hreader := hservices ⟨"reader", .ok (), 5⟩ (List.mem_cons_of_mem _ List.mem_cons_self)
  rw [hdecision] at hreader
  have hreverse := horder { lostWriter with
    samples := lostWriter.samples.reverse, commands := lostWriter.commands.reverse } rfl
    (List.reverse_perm _) rfl rfl
  exact ⟨hcomplete, hreader, hreverse.2 (List.reverse_perm _)⟩

end Autoscaler

end QueueScaler
