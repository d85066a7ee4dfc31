import QueueScaler.Proofs.Scaling.Commanding
/-!
# When a service is scaled down

Only a service with more than one replica, whose queues and everything upstream of them were all
sampled, and none of whose queues has a demand worth a quarter of a replica, own or forecast along
any production path. Rates are read as exact rationals.

## Main definitions

* `Autoscaler.forecast`: the rate that the depths of all queues call for at one of them.

## Main results

* `Autoscaler.getD_total_sample`: the total rates of a tick are what the true depths forecast,
  wherever nothing upstream is missing.
* `Autoscaler.scaleDown_sound`: what holds of a service that is scaled down.
-/

namespace QueueScaler.Autoscaler

variable {a : Autoscaler ℚ} {m : Memory ℚ} {e : Encounter} {depth : String → ℕ}
  {failure : String → Option CallFailure} {samples : List (Arrival ℕ)} {q s : String}

/-- The rate that the depths of all queues call for at one queue: a share of its own depth and, with
follow-up, of the depth of every consumed queue times the sum over the production paths from there
of the product of the edge rates. -/
noncomputable def forecast (a : Autoscaler ℚ) (depth : String → ℕ) (q : String) : ℚ :=
  depth q * a.strategy.decreasePerMinute +
    if a.strategy.followUpEnabled then
      ∑ o ∈ a.pipeline.wiring.consumed.keys.toFinset,
        depth o * a.strategy.decreasePerMinute * a.pipeline.wiring.pathSum o q
    else 0

/-- **The total rate of a queue is what the true depths forecast for it,** if the queue and, with
follow-up, everything that reaches it were sampled. -/
theorem getD_total_sample (he : a.pipeline.wiring.Answered depth failure samples)
    (hq : q ∈ a.pipeline.wiring.consumed) (hself : failure q = none)
    (hup : a.strategy.followUpEnabled = true → ∀ o, a.pipeline.wiring.Reaches o q →
      failure o = none) :
    (a.plan (a.sample samples).depths).total.getD q 0 = a.forecast depth q := by
  have horigin : ∀ o ∈ a.pipeline.wiring.consumed, failure o = none →
      (a.origins (a.sample samples).depths).getD o 0 =
        depth o * a.strategy.decreasePerMinute := fun o ho hf ↦ by
    rw [Table.getD_eq, he.get?_origins, if_pos ⟨ho, hf⟩]
    rfl
  have hmem : ∀ o, o ∈ (a.origins (a.sample samples).depths).keys.toFinset ↔
      o ∈ a.pipeline.wiring.consumed ∧ failure o = none := fun o ↦ by
    rw [List.mem_toFinset, Table.mem_keys_iff, Table.mem_iff_get?, he.get?_origins]
    split <;> simp [*]
  refine (Wiring.getD_plan_total a.pipeline.acyclic _ _ q).trans ?_
  rw [forecast, horigin q hq hself]
  split
  · rename_i hfollow
    have hsub : (a.origins (a.sample samples).depths).keys.toFinset ⊆
        a.pipeline.wiring.consumed.keys.toFinset := fun o ho ↦
      List.mem_toFinset.mpr (Table.mem_keys_iff.mpr ((hmem o).mp ho).1)
    refine congrArg _ (Eq.trans (Finset.sum_congr rfl fun o ho ↦ ?_)
      (Finset.sum_subset hsub fun o ho hno ↦ ?_))
    · obtain ⟨hc, hf⟩ := (hmem o).mp ho
      rw [horigin o hc hf]
    · -- A consumed queue that is no origin could not be sampled, so it reaches nothing seen here.
      have hc : o ∈ a.pipeline.wiring.consumed := Table.mem_keys_iff.mp (List.mem_toFinset.mp ho)
      have hreach : ¬ a.pipeline.wiring.Reaches o q := fun h ↦
        hno ((hmem o).mpr ⟨hc, hup hfollow o h⟩)
      rw [Wiring.pathSum_of_not_reaches hreach, mul_zero]
  · rfl

/-- **A service is scaled down only when it is safe to do so.** It is listed with more than one
replica; each queue it drains was sampled in the same tick and, with follow-up, so was each queue
upstream of one; and for each queue it drains, what the depths call for there, directly and along
all production paths, is below a quarter of what a replica drains. -/
theorem scaleDown_sound {c n : ℕ} (he : a.pipeline.wiring.Answered depth failure e.samples)
    (hd : (a.tick m e).1.decisions.get? s = some (.scaleDown c n)) :
    (∃ counts, e.listing = .ok counts ∧ counts.get? s = some c ∧ 1 < c) ∧
      (∀ q, (a.pipeline.wiring.input? s q).isSome → failure q = none) ∧
      (a.strategy.followUpEnabled = true → ∀ p q, (a.pipeline.wiring.input? s q).isSome →
        a.pipeline.wiring.Reaches p q → failure p = none) ∧
      ∀ q b, a.pipeline.wiring.input? s q = some b →
        a.forecast depth q < max b.consumptionRate 1 / 4 := by
  obtain ⟨-, hseen, counts, current, required, hlisting, hcurrent, hrequired, hchoose⟩ :=
    decisions_tick_eq_some.mp hd
  obtain ⟨hmany, rfl, -, rfl, -⟩ := Decision.choose_eq_scaleDown.mp hchoose
  have hsampled := he.not_mem_blindServices.mp hseen
  have hself : ∀ q, (a.pipeline.wiring.input? s q).isSome → failure q = none :=
    fun q hq ↦ hsampled q (Wiring.feeds_of_input? hq)
  have hup : a.strategy.followUpEnabled = true → ∀ p q, (a.pipeline.wiring.input? s q).isSome →
      a.pipeline.wiring.Reaches p q → failure p = none :=
    fun hfollow p q hq hreach ↦ hsampled p (hfollow ▸ hreach.feeds hq)
  refine ⟨⟨counts, hlisting, hcurrent, hmany⟩, hself, hup, fun q b hb ↦ ?_⟩
  have hq : (a.pipeline.wiring.input? s q).isSome := Option.isSome_iff_exists.mpr ⟨b, hb⟩
  have hconsumed := Wiring.mem_consumed_of_input? hq
  have horigin := (he.get?_origins q).trans (if_pos ⟨hconsumed, hself q hq⟩)
  have hmem : q ∈ (a.plan (a.sample e.samples).depths).total :=
    (Wiring.mem_plan_total a.pipeline.acyclic).mpr (.inl (Table.mem_iff_get?.mpr ⟨_, horigin⟩))
  obtain ⟨x, hx⟩ := Table.mem_iff_get?.mp hmem
  have htotal : x = a.forecast depth q := by
    rw [← getD_total_sample he hconsumed (hself q hq) fun h o ↦ hup h o q hq, Table.getD_eq, hx,
      Option.getD_some]
  have hneed : replicasFor b.consumptionRate x = 0 :=
    Nat.le_zero.mp ((List.max?_eq_some_iff.mp hrequired).2 _ (Wiring.mem_needs hb hx))
  exact htotal ▸ replicasFor_eq_zero_iff.mp hneed

/-- The writer of a relay is scaled down while the reader has little left to pass on. -/
theorem relay_writer_scaled_down :
    (relay.tick (.relay ∅) (.relay (.ok 10) (.ok 0) 3 0 [])).1.decisions.get? "writer" =
        some (.scaleDown 3 1) ∧
      relay.forecast (fun q ↦ if q = "in" then 10 else 0) "out" < max 30 1 / 4 := by
  have he : relay.pipeline.wiring.Answered (fun q ↦ if q = "in" then 10 else 0) (fun _ ↦ none)
      (Encounter.relay (.ok 10) (.ok 0) 3 0 []).samples := ⟨by decide, by decide⟩
  have hd : (relay.tick (.relay ∅) (.relay (.ok 10) (.ok 0) 3 0 [])).1.decisions.get? "writer" =
      some (.scaleDown 3 1) := by cbv
  exact ⟨hd, (scaleDown_sound he hd).2.2.2 "out" ⟨"writer", 30, ∅⟩ (by cbv)⟩

end QueueScaler.Autoscaler
