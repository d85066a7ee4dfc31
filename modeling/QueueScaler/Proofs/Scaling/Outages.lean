import QueueScaler.Proofs.Scaling.Commanding
/-!
# Ticks in which depth queries fail

Missing data never looks like missing demand. A service that a tick still decides on is one that no
failed queue feeds, so its demand is computed from the same terms in the same order as in any tick
that sees more.

## Main results

* `Autoscaler.get?_tick_congr`: two ticks agree on a service whose queues both of them sampled.
* `Autoscaler.decisions_despite_failures`: failed queries never change a decision that is still made.
-/

namespace QueueScaler.Autoscaler

variable {R : Type} [Rate R] {a : Autoscaler R} {m m' : Memory R} {e e' : Encounter}
  {depth depth' : String → Nat} {failure failure' : String → Option CallFailure} {s : String}

/-- Two ticks agree on a service if both of them sampled the queues that feed it, and found the same
depths there. -/
theorem get?_tick_congr (he : a.pipeline.wiring.Answered depth failure e.samples)
    (he' : a.pipeline.wiring.Answered depth' failure' e'.samples)
    (hlisting : e'.listing = e.listing) (hnow : e'.decidedAt = e.decidedAt)
    (hhistory : m'.history = m.history)
    (hdepth : ∀ q, failure q = none → failure' q = none → depth' q = depth q)
    (hs : ∀ q, a.pipeline.wiring.Feeds a.strategy.followUpEnabled q s → failure q = none)
    (hs' : ∀ q, a.pipeline.wiring.Feeds a.strategy.followUpEnabled q s → failure' q = none) :
    (a.tick m' e').1.decisions.get? s = (a.tick m e).1.decisions.get? s ∧
      (a.tick m' e').1.demand.get? s = (a.tick m e).1.demand.get? s := by
  have hneed : a.required? (a.sample e'.samples).depths s =
      a.required? (a.sample e.samples).depths s := by
    refine required?_congr fun q hq ↦ ?_
    rw [he.get?_depths, he'.get?_depths, if_pos ⟨hq.mem, hs' q hq⟩, if_pos ⟨hq.mem, hs q hq⟩,
      hdepth q (hs q hq) (hs' q hq)]
  have hseen := he.not_mem_blindServices.mpr hs
  have hseen' := he'.not_mem_blindServices.mpr hs'
  constructor
  · refine Option.ext fun d ↦ ?_
    rw [decisions_tick_eq_some, decisions_tick_eq_some, and_iff_right hseen, and_iff_right hseen',
      hlisting, hnow, hhistory, hneed]
  · rw [get?_demand_tick, get?_demand_tick, hneed]

theorem sampled_of_decided (he : a.pipeline.wiring.Answered depth failure e.samples)
    (hs : s ∈ (a.tick m e).1.decisions) {q : String}
    (hq : a.pipeline.wiring.Feeds a.strategy.followUpEnabled q s) : failure q = none := by
  obtain ⟨d, hd⟩ := Table.mem_iff_get?.mp hs
  obtain ⟨-, hseen, -⟩ := decisions_tick_eq_some.mp hd
  exact he.not_mem_blindServices.mp hseen q hq

/-- **A failed depth query never changes what is decided for a service that is still decided,** in
any arithmetic. Compare two ticks of one autoscaler with the same listing, history and moment of
decision, in which the queues that both sampled have the same depths; the depths of the queues that
one of them could not sample are free. If the second one samples whatever the first one samples, say
because none of its queries fails, it makes every decision of the first one, for the same demand. In
any case they agree on every service that both decide on. -/
theorem decisions_despite_failures (he : a.pipeline.wiring.Answered depth failure e.samples)
    (he' : a.pipeline.wiring.Answered depth' failure' e'.samples)
    (hlisting : e'.listing = e.listing) (hnow : e'.decidedAt = e.decidedAt)
    (hhistory : m'.history = m.history)
    (hdepth : ∀ q, failure q = none → failure' q = none → depth' q = depth q) :
    ((∀ q, failure q = none → failure' q = none) → ∀ s ∈ (a.tick m e).1.decisions,
        (a.tick m' e').1.decisions.get? s = (a.tick m e).1.decisions.get? s ∧
          (a.tick m' e').1.demand.get? s = (a.tick m e).1.demand.get? s) ∧
      ∀ s ∈ (a.tick m e).1.decisions, s ∈ (a.tick m' e').1.decisions →
        (a.tick m' e').1.decisions.get? s = (a.tick m e).1.decisions.get? s ∧
          (a.tick m' e').1.demand.get? s = (a.tick m e).1.demand.get? s := by
  constructor
  · intro hmore s hs
    exact get?_tick_congr he he' hlisting hnow hhistory hdepth
      (fun q hq ↦ sampled_of_decided he hs hq)
      fun q hq ↦ hmore q (sampled_of_decided he hs hq)
  · intro s hs hs'
    exact get?_tick_congr he he' hlisting hnow hhistory hdepth
      (fun q hq ↦ sampled_of_decided he hs hq) fun q hq ↦ sampled_of_decided he' hs' hq

/-- A timeout of the query for its output does not change what a relay decides on the reader. -/
theorem relay_reader_despite_timeout :
    "reader" ∈ (relay.tick (.relay ∅) (.relay (.ok 600) (.error .timedOut) 1 0 [])).1.decisions ∧
      (relay.tick (.relay ∅) (.relay (.ok 600) (.ok 90) 1 0 [])).1.decisions.get? "reader" =
        (relay.tick (.relay ∅) (.relay (.ok 600) (.error .timedOut) 1 0 [])).1.decisions.get?
          "reader" := by
  have he : relay.pipeline.wiring.Answered (fun q ↦ if q = "in" then 600 else 90)
      (fun q ↦ if q = "in" then none else some .timedOut)
      (Encounter.relay (.ok 600) (.error .timedOut) 1 0 []).samples := ⟨by decide, by decide⟩
  have he' : relay.pipeline.wiring.Answered (fun q ↦ if q = "in" then 600 else 90) (fun _ ↦ none)
      (Encounter.relay (.ok 600) (.ok 90) 1 0 []).samples := ⟨by decide, by decide⟩
  have hdecided : "reader" ∈
      (relay.tick (.relay ∅) (.relay (.ok 600) (.error .timedOut) 1 0 [])).1.decisions :=
    Table.mem_iff_get?.mpr ⟨.scaleUp 1 8, by cbv⟩
  exact ⟨hdecided, ((decisions_despite_failures he he' rfl rfl rfl fun _ _ _ ↦ rfl).1
    (fun _ _ ↦ rfl) "reader" hdecided).1⟩

end QueueScaler.Autoscaler
