import QueueScaler.Proofs.Scaling.Commanding
/-!
# Commands stay within bounds

A command comes from a decision, and a decision from one listed count and one requirement of the
same tick. So whatever the run before it was like, a tick commands each service at most once, and
only to a count between one and the ceiling.

## Main results

* `Autoscaler.mem_commands_tick`: the commands of a tick.
* `Autoscaler.commands_within_bounds`: the bounds on every command of every run.
-/

namespace QueueScaler.Autoscaler

variable {R : Type} [Rate R] {a : Autoscaler R} {m : Memory R} {e : Encounter} {s : String}
  {n : Nat}

/-- **The commands of a tick** go to services that are listed and not blind, and meet their demand
or scale them down. -/
theorem mem_commands_tick :
    (s, n) ∈ (a.tick m e).1.commands ↔
      a.strategy.scalingEnabled = true ∧ s ∉ a.blindServices (a.sample e.samples).failed ∧
        ∃ counts current required, e.listing = .ok counts ∧ counts.get? s = some current ∧
          a.required? (a.sample e.samples).depths s = some required ∧
          ((current < required ∧ n = min required a.strategy.maxReplicas) ∨
            (1 < current ∧ required = 0 ∧
              (∀ elapsed, m.history.since? s e.decidedAt = some elapsed →
                Span.ofSeconds a.strategy.stabilizationSeconds ≤ elapsed) ∧ n = 1)) := by
  simp only [Report.mem_commands, decisions_tick_eq_some, ← Decision.target_choose_eq_some]
  constructor
  · rintro ⟨d, ⟨hon, hseen, counts, current, required, hlisting, hcurrent, hrequired, rfl⟩, hn⟩
    exact ⟨hon, hseen, counts, current, required, hlisting, hcurrent, hrequired, hn⟩
  · rintro ⟨hon, hseen, counts, current, required, hlisting, hcurrent, hrequired, hn⟩
    exact ⟨_, ⟨hon, hseen, counts, current, required, hlisting, hcurrent, hrequired, rfl⟩, hn⟩

/-- **Every command that is ever sent is within bounds,** after any run of ticks and whatever the
tick meets. No service gets two commands, and none gets any when scaling is disabled or the listing
failed. A command goes to a service that drains a queue of the pipeline and is listed, and it is for
at least one replica and at most as many as the ceiling allows. A service whose requirement is not
zero is commanded only to that requirement, cut off at the ceiling, and only if it has fewer
replicas than it requires. -/
theorem commands_within_bounds (hceiling : 1 ≤ a.strategy.maxReplicas) (m : Memory R)
    (es : List Encounter) (e : Encounter) :
    ((a.tick (a.after m es) e).1.commands.map Prod.fst).Nodup ∧
      (a.strategy.scalingEnabled = false ∨ (∃ failure, e.listing = .error failure) →
        (a.tick (a.after m es) e).1.commands = []) ∧
      ∀ s n, (s, n) ∈ (a.tick (a.after m es) e).1.commands →
        s ∈ a.pipeline.wiring.services ∧ 1 ≤ n ∧ n ≤ a.strategy.maxReplicas ∧
          ∃ counts current required, e.listing = .ok counts ∧ counts.get? s = some current ∧
            (a.tick (a.after m es) e).1.demand.get? s = some required ∧
            (required ≠ 0 → n = min required a.strategy.maxReplicas ∧ current < required) := by
  refine ⟨Report.nodup_commands _, commands_tick_eq_nil, fun s n hmem ↦ ?_⟩
  obtain ⟨hon, -, counts, current, required, hlisting, hcurrent, hrequired, hn⟩ :=
    mem_commands_tick.mp hmem
  have hdemand : (a.tick (a.after m es) e).1.demand.get? s = some required := by
    rw [get?_demand_tick, if_pos hon, hrequired]
  have hbounds : 1 ≤ n ∧ n ≤ a.strategy.maxReplicas := by
    rcases hn with ⟨hlt, rfl⟩ | ⟨-, -, -, rfl⟩ <;> omega
  refine ⟨mem_services_of_required? hrequired, hbounds.1, hbounds.2,
    counts, current, required, hlisting, hcurrent, hdemand, fun hneeded ↦ ?_⟩
  rcases hn with ⟨hlt, hn⟩ | ⟨-, hzero, -⟩
  · exact ⟨hn, hlt⟩
  · exact absurd hzero hneeded

/-- The reader of a relay needs ten replicas, gets the eight of the ceiling, and is commanded to
hold them as long as the demand lasts. -/
theorem relay_reader_held_at_ceiling :
    1 ≤ relay.strategy.maxReplicas ∧
      ("reader", 8) ∈ (relay.tick (relay.after (.relay ∅)
          [.relay (.ok 600) (.ok 0) 1 0 [⟨"reader", .ok (), 5⟩]])
        (.relay (.ok 600) (.ok 0) 8 60000000000 [])).1.commands ∧
      1 ≤ 8 ∧ 8 ≤ relay.strategy.maxReplicas := by
  have hceiling : 1 ≤ relay.strategy.maxReplicas := by decide
  have hmem : ("reader", 8) ∈ (relay.tick (relay.after (.relay ∅)
        [.relay (.ok 600) (.ok 0) 1 0 [⟨"reader", .ok (), 5⟩]])
      (.relay (.ok 600) (.ok 0) 8 60000000000 [])).1.commands := by
    refine Report.mem_commands.mpr ⟨.scaleUp 8 8, ?_, rfl⟩
    cbv
  obtain ⟨-, hlow, hhigh, -⟩ :=
    (commands_within_bounds hceiling _ _ _).2.2 "reader" 8 hmem
  exact ⟨hceiling, hmem, hlow, hhigh⟩

end QueueScaler.Autoscaler
