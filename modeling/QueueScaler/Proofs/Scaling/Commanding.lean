import QueueScaler.Proofs.Scaling.Deciding
/-!
# What commands leave behind

Answered commands add to what the report says was applied or failed; the decisions stay as they
were made. The history takes over the moment of an acknowledged scale-up, of the last one if there
are several, and nothing else.

## Main definitions

* `Encounter.acknowledged?`: when the command to a service was acknowledged.

## Main results

* `Autoscaler.exists_tick`: a tick reports what it decided.
* `Autoscaler.decisions_tick_eq_some`: the decisions that a tick reports.
* `Autoscaler.get?_history_tick`: what a tick does to the history.
* `Autoscaler.lastReport_tick`: a tick publishes the report that it returns.
* `Autoscaler.tick_of_dies`: what is left of a tick that dies.
-/

namespace QueueScaler

variable {R : Type}

/-- The moment when a command to a service was acknowledged, if one was. -/
def Encounter.acknowledged? (e : Encounter) (service : String) : Option Instant :=
  (e.commands.filter fun c ↦ c.name = service ∧ c.answer.isOk).getLast?.map Arrival.moment

/-- Taking a command into account touches what was applied and what failed, nothing else. -/
theorem Report.exists_acknowledge (r : Report R) (history : History) (c : Arrival Unit) :
    ∃ applied failedCommands,
      (r.acknowledge history c).1 = { r with applied, failedCommands } := by
  rw [acknowledge]
  split
  · exact ⟨r.applied, r.failedCommands, rfl⟩
  · split
    · exact ⟨r.applied, r.failedCommands, rfl⟩
    · exact ⟨r.applied, r.failedCommands, rfl⟩
    · exact ⟨r.applied, _, rfl⟩
    · split
      · exact ⟨_, r.failedCommands, rfl⟩
      · exact ⟨_, r.failedCommands, rfl⟩

theorem Report.exists_foldl_acknowledge (commands : List (Arrival Unit)) (r : Report R)
    (history : History) :
    ∃ applied failedCommands,
      (commands.foldl (fun (r, h) c ↦ r.acknowledge h c) (r, history)).1 =
        { r with applied, failedCommands } := by
  induction commands generalizing r history with
  | nil => exact ⟨r.applied, r.failedCommands, rfl⟩
  | cons c commands ih =>
    obtain ⟨_, _, hstep⟩ := r.exists_acknowledge history c
    obtain ⟨applied, failedCommands, hrest⟩ :=
      ih (r.acknowledge history c).1 (r.acknowledge history c).2
    exact ⟨applied, failedCommands, hrest.trans (by rw [hstep])⟩

theorem Report.decisions_acknowledge (r : Report R) (history : History) (c : Arrival Unit) :
    (r.acknowledge history c).1.decisions = r.decisions := by
  obtain ⟨_, _, h⟩ := r.exists_acknowledge history c
  rw [h]

/-- The last scale-up of a service changes when a decision to scale it up is acknowledged. -/
theorem Report.get?_acknowledge (r : Report R) (history : History) (c : Arrival Unit) (s : String) :
    (r.acknowledge history c).2.get? s =
      match r.decisions.get? s with
      | some (.scaleUp ..) =>
        if c.name = s ∧ c.answer.isOk then some c.moment else history.get? s
      | _ => history.get? s := by
  obtain ⟨name, answer, moment⟩ := c
  by_cases hname : name = s
  · subst hname
    rw [acknowledge]
    rcases r.decisions.get? name with _ | (_ | _ | _ | _)
    · rfl
    · rcases answer with (_ | _ | _) | ⟨⟩
      · simp [Decision.target, Except.isOk, Except.toBool]
      · simp [Decision.target, Except.isOk, Except.toBool]
      · simp [Decision.target, Except.isOk, Except.toBool]
      · simp [Decision.target, Except.isOk, Except.toBool, History.record]
    · rcases answer with (_ | _ | _) | ⟨⟩ <;> rfl
    · rfl
    · rfl
  · have hkeep : (r.acknowledge history ⟨name, answer, moment⟩).2.get? s = history.get? s := by
      rw [acknowledge]
      split
      · rfl
      · split
        · rfl
        · rfl
        · rfl
        · split
          · exact (Table.get?_insert ..).trans (if_neg (Ne.symm hname))
          · rfl
    rw [hkeep]
    split
    · rw [if_neg fun h ↦ hname h.1]
    · rfl

/-- The last acknowledgement among several commands counts. -/
theorem Report.get?_foldl_acknowledge (commands : List (Arrival Unit)) (r : Report R)
    (history : History) (s : String) :
    (commands.foldl (fun (r, h) c ↦ r.acknowledge h c) (r, history)).2.get? s =
      match r.decisions.get? s with
      | some (.scaleUp ..) =>
        ((commands.filter fun c ↦ c.name = s ∧ c.answer.isOk).getLast?.map Arrival.moment).or
          (history.get? s)
      | _ => history.get? s := by
  induction commands generalizing r history with
  | nil => cases r.decisions.get? s with
    | none => rfl
    | some d => cases d <;> rfl
  | cons c commands ih =>
    rw [List.foldl_cons]
    have hrest := ih (r.acknowledge history c).1 (r.acknowledge history c).2
    rw [decisions_acknowledge, get?_acknowledge] at hrest
    refine Eq.trans hrest ?_
    rcases r.decisions.get? s with _ | (_ | _ | _ | _)
    · rfl
    · by_cases hc : c.name = s ∧ c.answer.isOk = true
      · rw [if_pos hc, List.filter_cons, if_pos (decide_eq_true hc), List.getLast?_cons]
        cases (commands.filter fun c ↦ c.name = s ∧ c.answer.isOk).getLast? <;> rfl
      · rw [if_neg hc, List.filter_cons, if_neg (mt of_decide_eq_true hc)]
    · rfl
    · rfl
    · rfl

namespace Autoscaler

variable [Rate R]

/-- **A tick reports what it decided** before it commanded anything. -/
theorem exists_tick (a : Autoscaler R) (m : Memory R) (e : Encounter) :
    ∃ applied failedCommands,
      (a.tick m e).1 = { a.decisions m e with applied, failedCommands } :=
  Report.exists_foldl_acknowledge e.commands _ _

theorem decisions_tick (a : Autoscaler R) (m : Memory R) (e : Encounter) :
    (a.tick m e).1.decisions = (a.decisions m e).decisions := by
  obtain ⟨_, _, h⟩ := a.exists_tick m e
  rw [h]

/-- What becomes of the commands does not change what is commanded. -/
theorem commands_tick (a : Autoscaler R) (m : Memory R) (e : Encounter) :
    (a.tick m e).1.commands = (a.decisions m e).commands := by
  rw [Report.commands, decisions_tick, Report.commands]

/-- The demand that a tick reports. -/
theorem get?_demand_tick (a : Autoscaler R) (m : Memory R) (e : Encounter) (s : String) :
    (a.tick m e).1.demand.get? s =
      if a.strategy.scalingEnabled then a.required? (a.sample e.samples).depths s else none := by
  obtain ⟨_, _, h⟩ := a.exists_tick m e
  rw [h]
  exact a.get?_demand_assess ..

/-- The decisions that a tick reports. -/
theorem decisions_tick_eq_some {a : Autoscaler R} {m : Memory R} {e : Encounter} {s : String}
    {d : Decision} :
    (a.tick m e).1.decisions.get? s = some d ↔
      a.strategy.scalingEnabled = true ∧ s ∉ a.blindServices (a.sample e.samples).failed ∧
        ∃ counts current required, e.listing = .ok counts ∧ counts.get? s = some current ∧
          a.required? (a.sample e.samples).depths s = some required ∧
          Decision.choose current required a.strategy.maxReplicas
            (m.history.since? s e.decidedAt) (Span.ofSeconds a.strategy.stabilizationSeconds) = d := by
  rw [decisions_tick]
  exact decisions_assess_eq_some

/-- Without a listing, and with scaling disabled, nothing is decided, and so nothing commanded. -/
theorem decisions_tick_eq_empty {a : Autoscaler R} {m : Memory R} {e : Encounter}
    (h : a.strategy.scalingEnabled = false ∨ ∃ failure, e.listing = .error failure) :
    (a.tick m e).1.decisions = ∅ := by
  refine Table.ext_get? fun s ↦ Option.eq_none_iff_forall_ne_some.mpr fun d hd ↦ ?_
  obtain ⟨hon, -, counts, -, -, hlisting, -⟩ := decisions_tick_eq_some.mp hd
  rcases h with hoff | ⟨failure, hfailure⟩
  · exact Bool.false_ne_true (hoff.symm.trans hon)
  · cases hlisting.symm.trans hfailure

theorem commands_tick_eq_nil {a : Autoscaler R} {m : Memory R} {e : Encounter}
    (h : a.strategy.scalingEnabled = false ∨ ∃ failure, e.listing = .error failure) :
    (a.tick m e).1.commands = [] := by
  rw [Report.commands, decisions_tick_eq_empty h]
  rfl

/-- What a tick decided on a service was decided for the replicas it lists and the demand it
reports. -/
theorem tick_of_decided {a : Autoscaler R} {m : Memory R} {e : Encounter} {s : String}
    {d : Decision} (hd : (a.tick m e).1.decisions.get? s = some d) :
    ∃ current required, (a.tick m e).1.currentReplicas.get? s = some current ∧
      (a.tick m e).1.demand.get? s = some required ∧
      Decision.choose current required a.strategy.maxReplicas (m.history.since? s e.decidedAt)
        (Span.ofSeconds a.strategy.stabilizationSeconds) = d := by
  obtain ⟨hon, -, counts, current, required, hlisting, hcurrent, hrequired, hd⟩ :=
    decisions_tick_eq_some.mp hd
  obtain ⟨_, _, htick⟩ := a.exists_tick m e
  obtain ⟨hcounts, -⟩ := assess_ok hon e.startedAt (a.sample e.samples) counts m.history e.decidedAt
  refine ⟨current, required, ?_, ?_, hd⟩
  · rw [htick]
    simp only [decisions, hlisting, hcounts]
    exact hcurrent
  · rw [get?_demand_tick, if_pos hon, hrequired]

/-- What a tick decides on a service follows from the replicas it lists and the demand it reports. -/
theorem get?_decisions_tick_of_mem {a : Autoscaler R} {m : Memory R} {e : Encounter} {s : String}
    {current required : Nat} (hs : s ∈ (a.tick m e).1.decisions)
    (hcurrent : (a.tick m e).1.currentReplicas.get? s = some current)
    (hrequired : (a.tick m e).1.demand.get? s = some required) :
    (a.tick m e).1.decisions.get? s = some (Decision.choose current required
      a.strategy.maxReplicas (m.history.since? s e.decidedAt)
      (Span.ofSeconds a.strategy.stabilizationSeconds)) := by
  obtain ⟨d, hd⟩ := Table.mem_iff_get?.mp hs
  obtain ⟨current', required', hcurrent', hrequired', hchoose⟩ := tick_of_decided hd
  obtain rfl := Option.some.inj (hcurrent.symm.trans hcurrent')
  obtain rfl := Option.some.inj (hrequired.symm.trans hrequired')
  rw [hd, hchoose]

/-- **What a tick does to the history:** the last scale-up of a service becomes the moment when its
command was acknowledged, if it was decided to scale the service up. -/
theorem get?_history_tick (a : Autoscaler R) (m : Memory R) (e : Encounter) (s : String) :
    (a.tick m e).2.history.get? s =
      match (a.tick m e).1.decisions.get? s with
      | some (.scaleUp ..) => (e.acknowledged? s).or (m.history.get? s)
      | _ => m.history.get? s := by
  rw [decisions_tick]
  exact Report.get?_foldl_acknowledge ..

/-! ### The end of a tick -/

section Returned

variable {a : Autoscaler R} {m : Memory R} {e : Encounter} {r : Report R}

theorem returned?_eq_none_iff :
    a.returned? m e = none ↔ a.strategy.scalingEnabled = true ∧ e.listing = .error .aborted := by
  rw [returned?, ite_eq_left_iff, ← Encounter.dies_iff]
  simp

theorem returned?_of_lives (h : e.dies a.strategy.scalingEnabled = false) :
    a.returned? m e = some (a.tick m e).1 := by
  rw [returned?, h]
  rfl

theorem returned?_eq_some_iff :
    a.returned? m e = some r ↔
      e.dies a.strategy.scalingEnabled = false ∧ (a.tick m e).1 = r := by
  rw [returned?]
  cases e.dies a.strategy.scalingEnabled <;> simp

/-- **A tick publishes the report that it returns,** if it returns one. -/
theorem lastReport_tick (a : Autoscaler R) (m : Memory R) (e : Encounter) :
    (a.tick m e).2.lastReport = (a.returned? m e).or m.lastReport := by
  rw [tick, returned?]
  cases e.dies a.strategy.scalingEnabled <;> rfl

/-- **A tick that dies** has decided nothing, and leaves nothing behind but the gauges. -/
theorem tick_of_dies (a : Autoscaler R) (m : Memory R)
    (h : e.dies a.strategy.scalingEnabled = true) :
    (a.tick m e).1.decisions = ∅ ∧
      (a.tick m e).2 = { m with gauges := e.samples.foldl Gauges.note m.gauges } := by
  have hdecisions : (a.tick m e).1.decisions = ∅ :=
    decisions_tick_eq_empty (.inr ⟨_, (Encounter.dies_iff.mp h).2⟩)
  have hhistory : (a.tick m e).2.history = m.history := Table.ext_get? fun s ↦ by
    rw [get?_history_tick, hdecisions]
    rfl
  have hreport : (a.tick m e).2.lastReport = m.lastReport := by
    rw [lastReport_tick, returned?, if_pos h, Option.none_or]
  refine ⟨hdecisions, ?_⟩
  rw [← hhistory, ← hreport]
  rfl

end Returned

end Autoscaler

end QueueScaler
