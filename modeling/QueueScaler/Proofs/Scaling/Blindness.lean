import QueueScaler.Proofs.Scaling.Sampling
/-!
# Blind services and follow-up rates

What lies downstream of a queue is told in three ways: by the production edges that can be followed
from it, by the breadth-first traversal, and by the names that propagation gives a rate. In a
pipeline the three agree, whatever the rates of the edges, so a service is skipped exactly when the
follow-up rates of a failed queue would have added to its demand.

## Main results

* `Pipeline.mem_downstream`: the traversal finds what can be reached.
* `Wiring.Acyclic.keys_propagate`: the names with a follow-up rate are those downstream.
* `Wiring.Acyclic.feeds_iff_propagate`: the queues that feed a service, by follow-up rates.
* `Autoscaler.downstream_agrees`: the three agree, and with them the blind services.
-/

namespace QueueScaler

variable {R : Type} [Rate R]

/-- In a pipeline no queue is downstream of itself, so nothing reached is left out. -/
theorem Pipeline.mem_downstream (p : Pipeline R) {origin q : String} :
    q ∈ p.wiring.downstream origin ↔ p.wiring.Reaches origin q := by
  rw [Wiring.mem_downstream, and_iff_right_iff_imp]
  rintro hq rfl
  exact p.acyclic q hq

namespace Wiring

variable {w : Wiring R} {origin q s : String} {x : R}

/-- **The names with a follow-up rate are those downstream of the origin,** in the same order. -/
theorem Acyclic.keys_propagate (hw : w.Acyclic) {rates : Table R}
    (h : w.propagate origin x = .ok rates) : rates.keys = (w.downstream origin).keys := by
  refine Table.keys_eq_of_mem_iff fun q ↦ ?_
  rw [mem_propagate hw h, mem_downstream, iff_and_self]
  rintro hq rfl
  exact hw q hq

/-- The depth of a queue has a say in the demand of a service if the service drains the queue or,
with follow-up, a queue that gets a rate from it. -/
theorem Acyclic.feeds_iff_propagate (hw : w.Acyclic) {followUp : Bool} (x : R) :
    w.Feeds followUp q s ↔ (w.input? s q).isSome ∨
      followUp = true ∧ ∃ rates, w.propagate q x = .ok rates ∧
        ∃ r ∈ rates, (w.input? s r).isSome := by
  constructor
  · rintro ⟨r, hr, rfl | ⟨hfollow, hreach⟩⟩
    · exact .inl hr
    · obtain ⟨rates, hrates⟩ := exists_propagate hw q x
      exact .inr ⟨hfollow, rates, hrates, r, (mem_propagate hw hrates).mpr hreach, hr⟩
  · rintro (hq | ⟨hfollow, rates, hrates, r, hmem, hr⟩)
    · exact feeds_of_input? hq
    · exact ⟨r, hr, .inr ⟨hfollow, (mem_propagate hw hrates).mp hmem⟩⟩

end Wiring

/-- **What lies downstream of a queue is the same wherever it is computed.** In a pipeline the
traversal from any queue, managed or not, finds the names that one or more production edges lead to;
propagation from it succeeds at every rate and gives a rate to those same names. So, whichever
queues have failed, the blind services are those that drain a failed queue or, with follow-up, a
queue that propagation from a failed queue gives a rate. -/
theorem Autoscaler.downstream_agrees :
    (∀ (p : Pipeline R) (queue : String) (x : R),
      (∀ q, q ∈ p.wiring.downstream queue ↔ p.wiring.Reaches queue q) ∧
      ∃ rates, p.wiring.propagate queue x = .ok rates ∧
        rates.keys = (p.wiring.downstream queue).keys) ∧
    ∀ (a : Autoscaler R) (failed : Table CallFailure) (x : R) (s : String),
      s ∈ a.blindServices failed ↔
        ∃ queue ∈ failed, (a.pipeline.wiring.input? s queue).isSome ∨
          a.strategy.followUpEnabled = true ∧
            ∃ rates, a.pipeline.wiring.propagate queue x = .ok rates ∧
              ∃ q ∈ rates, (a.pipeline.wiring.input? s q).isSome := by
  refine ⟨fun p queue x ↦ ⟨fun q ↦ p.mem_downstream, ?_⟩, fun a failed x s ↦ ?_⟩
  · obtain ⟨rates, hrates⟩ := Wiring.exists_propagate p.acyclic queue x
    exact ⟨rates, hrates, p.acyclic.keys_propagate hrates⟩
  · rw [Autoscaler.mem_blindServices]
    exact exists_congr fun queue ↦
      and_congr_right fun _ ↦ a.pipeline.acyclic.feeds_iff_propagate x

end QueueScaler
