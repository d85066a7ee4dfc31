import QueueScaler.Proofs.Scaling.Commanding
/-!
# Scale-downs keep their distance from scale-ups

Along a run of ticks the history holds, for each service, the moment of its last acknowledged
scale-up, or the moment it was started with if there has been none. So a service is never scaled
down before its last scale-up lies a whole window back, and a service that was never scaled up does
not have to wait.

## Main definitions

* `Autoscaler.ScalesUp`: whether a tick meets unmet demand with an acknowledged command.
* `Autoscaler.Quiet`: whether no tick of a run does.

## Main results

* `Autoscaler.get?_history_after_scalesUp`, `Autoscaler.Quiet.get?_history_after`: the history after
  a run.
* `Autoscaler.scaleDown_after_window`: the window holds along every run.
-/

namespace QueueScaler.Autoscaler

variable {R : Type} [Rate R] {a : Autoscaler R} {m : Memory R} {e : Encounter}
  {es later : List Encounter} {s : String} {t : Instant}

/-- Whether a tick finds fewer replicas of a service listed than it requires, decides on the service
and gets its command acknowledged at the given moment. Whether the command adds replicas, or the
ceiling forbids it, makes no difference. -/
def ScalesUp (a : Autoscaler R) (m : Memory R) (e : Encounter) (s : String) (t : Instant) : Prop :=
  s ∈ (a.tick m e).1.decisions ∧
    (∃ current required, (a.tick m e).1.currentReplicas.get? s = some current ∧
      (a.tick m e).1.demand.get? s = some required ∧ current < required) ∧
    e.acknowledged? s = some t

/-- Whether no tick of a run scales a service up. -/
def Quiet (a : Autoscaler R) (s : String) : Memory R → List Encounter → Prop
  | _, [] => True
  | m, e :: es => (∀ t, ¬ a.ScalesUp m e s t) ∧ a.Quiet s (a.tick m e).2 es

/-! ### One tick -/

/-- Unmet demand is what a scale-up is decided for. -/
theorem decided_scaleUp_iff :
    (∃ c n, (a.tick m e).1.decisions.get? s = some (.scaleUp c n)) ↔
      s ∈ (a.tick m e).1.decisions ∧ ∃ current required,
        (a.tick m e).1.currentReplicas.get? s = some current ∧
          (a.tick m e).1.demand.get? s = some required ∧ current < required := by
  constructor
  · rintro ⟨c, n, hd⟩
    obtain ⟨current, required, hcurrent, hrequired, hchoose⟩ := tick_of_decided hd
    exact ⟨Table.mem_iff_get?.mpr ⟨_, hd⟩, current, required, hcurrent, hrequired,
      (Decision.choose_eq_scaleUp.mp hchoose).1⟩
  · rintro ⟨hs, current, required, hcurrent, hrequired, hlt⟩
    refine ⟨current, min required a.strategy.maxReplicas, ?_⟩
    rw [get?_decisions_tick_of_mem hs hcurrent hrequired,
      Decision.choose_eq_scaleUp.mpr ⟨hlt, rfl, rfl⟩]

/-- A tick that scales a service up records the moment. -/
theorem ScalesUp.get?_history (h : a.ScalesUp m e s t) :
    (a.tick m e).2.history.get? s = some t := by
  obtain ⟨c, n, hd⟩ := decided_scaleUp_iff.mpr ⟨h.1, h.2.1⟩
  rw [get?_history_tick, hd, h.2.2]
  rfl

/-- A tick that does not scale a service up leaves its last scale-up as it is. -/
theorem get?_history_of_not_scalesUp (h : ∀ t, ¬ a.ScalesUp m e s t) :
    (a.tick m e).2.history.get? s = m.history.get? s := by
  rw [get?_history_tick]
  split
  · rename_i c n hd
    obtain ⟨hs, hunmet⟩ := decided_scaleUp_iff.mp ⟨c, n, hd⟩
    cases hack : e.acknowledged? s with
    | none => rfl
    | some t => exact absurd ⟨hs, hunmet, hack⟩ (h t)
  · rfl

/-! ### Runs of ticks -/

/-- A run without scale-ups of a service leaves its last scale-up as it is. -/
theorem Quiet.get?_history_after (h : a.Quiet s m es) :
    (a.after m es).history.get? s = m.history.get? s := by
  induction es generalizing m with
  | nil => rfl
  | cons e es ih => exact (ih h.2).trans (get?_history_of_not_scalesUp h.1)

/-- **The history holds the last scale-up of a service** in a run. -/
theorem get?_history_after_scalesUp {before : List Encounter}
    (hup : a.ScalesUp (a.after m before) e s t)
    (hquiet : a.Quiet s (a.tick (a.after m before) e).2 later) :
    (a.after m (before ++ e :: later)).history.get? s = some t := by
  have hsplit : a.after m (before ++ e :: later) =
      a.after (a.tick (a.after m before) e).2 later := by
    rw [after, List.foldl_append]
    rfl
  rw [hsplit, hquiet.get?_history_after, hup.get?_history]

/-- A tick that scales a service down finds its last scale-up a whole window back. -/
theorem window_le_of_scaleDown {c n : Nat}
    (hd : (a.tick m e).1.decisions.get? s = some (.scaleDown c n))
    (ht : m.history.get? s = some t) :
    Span.ofSeconds a.strategy.stabilizationSeconds ≤ Instant.elapsed t e.decidedAt := by
  obtain ⟨_, _, -, -, hchoose⟩ := tick_of_decided hd
  obtain ⟨-, -, hwindow, -⟩ := Decision.choose_eq_scaleDown.mp hchoose
  exact hwindow _ (by rw [History.since?, ht, Option.map_some])

/-- A tick that finds no scale-up of a service does not hold it back. -/
theorem not_stabilizing_of_get?_history (hnone : m.history.get? s = none) (c remaining : Nat) :
    (a.tick m e).1.decisions.get? s ≠ some (.stabilizing c remaining) := by
  intro hd
  obtain ⟨_, _, -, -, hchoose⟩ := tick_of_decided hd
  rw [History.since?, hnone] at hchoose
  exact Decision.choose_none_ne_stabilizing hchoose

/-- A tick that finds no scale-up of a service scales it down as soon as there is no demand. -/
theorem scaleDown_of_get?_history (hnone : m.history.get? s = none) {current : Nat}
    (hs : s ∈ (a.tick m e).1.decisions)
    (hcurrent : (a.tick m e).1.currentReplicas.get? s = some current) (hmany : 1 < current)
    (hrequired : (a.tick m e).1.demand.get? s = some 0) :
    (a.tick m e).1.decisions.get? s = some (.scaleDown current 1) := by
  rw [get?_decisions_tick_of_mem hs hcurrent hrequired, History.since?, hnone, Option.map_none]
  exact congrArg some (Decision.choose_eq_scaleDown.mpr
    ⟨hmany, rfl, fun _ h ↦ absurd h (Option.some_ne_none _).symm, rfl, rfl⟩)

/-- **Hysteresis over whole runs,** whatever the ticks meet and wherever the clock goes. If the
tick after a run scales a service down, then the last scale-up of the service in the run lies at
least the window back, and so does the one the run was started with if there is none in the run. A
service without any scale-up is never held back: as soon as it has more than one replica and no
demand, it is scaled down. -/
theorem scaleDown_after_window (a : Autoscaler R) (m : Memory R) (es : List Encounter)
    (e : Encounter) (s : String) :
    (∀ c n, (a.tick (a.after m es) e).1.decisions.get? s = some (.scaleDown c n) →
        (∀ before up later t, es = before ++ up :: later →
            a.ScalesUp (a.after m before) up s t →
            a.Quiet s (a.tick (a.after m before) up).2 later →
            Span.ofSeconds a.strategy.stabilizationSeconds ≤ Instant.elapsed t e.decidedAt) ∧
          (a.Quiet s m es → ∀ t, m.history.get? s = some t →
            Span.ofSeconds a.strategy.stabilizationSeconds ≤ Instant.elapsed t e.decidedAt)) ∧
      (m.history.get? s = none → a.Quiet s m es →
        (∀ c remaining,
            (a.tick (a.after m es) e).1.decisions.get? s ≠ some (.stabilizing c remaining)) ∧
          ∀ current, s ∈ (a.tick (a.after m es) e).1.decisions →
            (a.tick (a.after m es) e).1.currentReplicas.get? s = some current → 1 < current →
            (a.tick (a.after m es) e).1.demand.get? s = some 0 →
            (a.tick (a.after m es) e).1.decisions.get? s = some (.scaleDown current 1)) := by
  refine ⟨fun c n hd ↦ ⟨?_, fun hquiet t ht ↦ ?_⟩, fun hnone hquiet ↦ ?_⟩
  · rintro before up later t rfl hup hquiet
    exact window_le_of_scaleDown hd (get?_history_after_scalesUp hup hquiet)
  · exact window_le_of_scaleDown hd (hquiet.get?_history_after.trans ht)
  · have hnever := hquiet.get?_history_after.trans hnone
    exact ⟨not_stabilizing_of_get?_history hnever, fun current hs hcurrent hmany hrequired ↦
      scaleDown_of_get?_history hnever hs hcurrent hmany hrequired⟩

/-- Six minutes after the reader of a relay got eight replicas, the idle reader is scaled down. -/
theorem relay_reader_scaled_down :
    (relay.tick (relay.after (.relay ∅)
          [.relay (.ok 600) (.ok 0) 1 0 [⟨"reader", .ok (), 5⟩]])
        (.relay (.ok 0) (.ok 0) 8 360000000000 [])).1.decisions.get? "reader" =
        some (.scaleDown 8 1) ∧
      Span.ofSeconds 300 ≤ Instant.elapsed 5 360000000000 := by
  have hd : (relay.tick (relay.after (.relay ∅)
        [.relay (.ok 600) (.ok 0) 1 0 [⟨"reader", .ok (), 5⟩]])
      (.relay (.ok 0) (.ok 0) 8 360000000000 [])).1.decisions.get? "reader" =
      some (.scaleDown 8 1) := by cbv
  have hup : relay.ScalesUp (relay.after (.relay ∅) [])
      (.relay (.ok 600) (.ok 0) 1 0 [⟨"reader", .ok (), 5⟩]) "reader" 5 :=
    ⟨Table.mem_iff_get?.mpr ⟨.scaleUp 1 8, by cbv⟩, ⟨1, 10, by cbv, by cbv, by decide⟩, by cbv⟩
  exact ⟨hd, ((scaleDown_after_window relay _ _ _ "reader").1 8 1 hd).1 [] _ [] 5 rfl hup trivial⟩

end QueueScaler.Autoscaler
