import QueueScaler.Proofs.Pipeline.Apart
import QueueScaler.Proofs.Scaling.Sampling
/-!
# Unrelated pipelines

Two pipelines without a common queue name may be run as one. What the one asks for is then what it
asks for on its own, in any arithmetic: each queue keeps its rates to the last bit, and a service
that drains queues of both needs the greater of the two numbers of replicas.

## Main results

* `Wiring.Apart.unrelated`: the rates and the demand of two pipelines side by side.
-/

namespace QueueScaler

namespace Wiring

variable {R : Type} [Rate R] {w w' : Wiring R}

theorem Apart.exists_ofWiring_beside_iff (h : w.Apart w') :
    (∃ p, Pipeline.ofWiring (w.beside w') = .ok p) ↔
      (∃ p, Pipeline.ofWiring w = .ok p) ∧ ∃ p, Pipeline.ofWiring w' = .ok p := by
  have hok (w : Wiring R) : (∃ p, Pipeline.ofWiring w = .ok p) ↔ w.fault? = none :=
    ⟨fun ⟨_, hp⟩ ↦ (Pipeline.ofWiring_eq_ok_iff.mp hp).1,
      fun hvalid ↦ ⟨⟨w, hvalid⟩, Pipeline.ofWiring_eq_ok_iff.mpr ⟨hvalid, rfl⟩⟩⟩
  rw [hok, hok, hok, h.fault?_beside_eq_none_iff]

/-- The demand of two pipelines side by side, from rates that fall into those of the parts. -/
theorem Apart.exists_demand_beside (h : w.Apart w') {rates rates₁ rates₂ : Table R}
    (hsplit : rates.Splits rates₁ rates₂) (h₁ : ∀ q ∈ rates₁, w.Occurs q)
    (h₂ : ∀ q ∈ rates₂, w'.Occurs q) :
    ∃ demand demand₁ demand₂, (w.beside w').demand rates = .ok demand ∧
      w.demand rates₁ = .ok demand₁ ∧ w'.demand rates₂ = .ok demand₂ ∧
      demand = demand₁.merge max demand₂ := by
  obtain ⟨demand, hdemand, hget⟩ := (w.beside w').exists_demand rates
  obtain ⟨demand₁, hdemand₁, hget₁⟩ := w.exists_demand rates₁
  obtain ⟨demand₂, hdemand₂, hget₂⟩ := w'.exists_demand rates₂
  refine ⟨demand, demand₁, demand₂, hdemand, hdemand₁, hdemand₂, Table.ext_get? fun s ↦ ?_⟩
  rw [Table.get?_merge, hget, hget₁, hget₂, h.max?_needs hsplit h₁ h₂]

/-- **Unrelated pipelines do not influence each other,** in any arithmetic. Take two wirings such
that no queue name occurs in both, neither as a managed queue nor as a target. Side by side they
become a pipeline if and only if each of them does. Whatever the strategy and the depths, the origin
rates, the follow-up rates and the total rates then fall into those of the two parts, each of which
knows the depths of its own queues. All demands can be told, and each service needs the greater of
what it needs in the parts, or what it needs in the one that names it. -/
theorem Apart.unrelated (h : w.Apart w') :
    ((∃ p, Pipeline.ofWiring (w.beside w') = .ok p) ↔
      (∃ p, Pipeline.ofWiring w = .ok p) ∧ ∃ p, Pipeline.ofWiring w' = .ok p) ∧
    ∀ p p₁ p₂, Pipeline.ofWiring (w.beside w') = .ok p → Pipeline.ofWiring w = .ok p₁ →
      Pipeline.ofWiring w' = .ok p₂ →
      ∀ (strategy : Strategy R) (depths depths₁ depths₂ : Table Nat),
        (∀ q ∈ w, depths₁.get? q = depths.get? q) → (∀ q ∈ w', depths₂.get? q = depths.get? q) →
        let both : Autoscaler R := ⟨p, strategy⟩
        let first : Autoscaler R := ⟨p₁, strategy⟩
        let second : Autoscaler R := ⟨p₂, strategy⟩
        (both.origins depths).Splits (first.origins depths₁) (second.origins depths₂) ∧
        (both.plan depths).followUp.Splits (first.plan depths₁).followUp
          (second.plan depths₂).followUp ∧
        (both.plan depths).total.Splits (first.plan depths₁).total (second.plan depths₂).total ∧
        ∃ demand demand₁ demand₂, (both.plan depths).demand = .ok demand ∧
          (first.plan depths₁).demand = .ok demand₁ ∧
          (second.plan depths₂).demand = .ok demand₂ ∧ demand = demand₁.merge max demand₂ := by
  refine ⟨h.exists_ofWiring_beside_iff, fun p p₁ p₂ hp hp₁ hp₂ strategy depths depths₁ depths₂
    hdepths₁ hdepths₂ ↦ ?_⟩
  have hwiring := (Pipeline.ofWiring_eq_ok_iff.mp hp).2
  obtain ⟨wiring₁, valid₁⟩ := p₁
  obtain ⟨wiring₂, valid₂⟩ := p₂
  obtain ⟨-, rfl⟩ := Pipeline.ofWiring_eq_ok_iff.mp hp₁
  obtain ⟨-, rfl⟩ := Pipeline.ofWiring_eq_ok_iff.mp hp₂
  have hw : wiring₁.Acyclic := (fault?_eq_none_iff.mp valid₁).2
  have hw' : wiring₂.Acyclic := (fault?_eq_none_iff.mp valid₂).2
  have horigins : ((wiring₁.beside wiring₂).originRates strategy.decreasePerMinute depths).Splits
      (wiring₁.originRates strategy.decreasePerMinute depths₁)
      (wiring₂.originRates strategy.decreasePerMinute depths₂) :=
    h.splits_originRates hdepths₁ hdepths₂
  have h₁ : ∀ o ∈ wiring₁.originRates strategy.decreasePerMinute depths₁, wiring₁.Occurs o :=
    fun _ ↦ occurs_of_mem_originRates
  have h₂ : ∀ o ∈ wiring₂.originRates strategy.decreasePerMinute depths₂, wiring₂.Occurs o :=
    fun _ ↦ occurs_of_mem_originRates
  have htotal := h.splits_plan_total hw hw' horigins h₁ h₂ strategy.followUpEnabled
  simp only [Autoscaler.origins, Autoscaler.plan, hwiring]
  exact ⟨horigins, h.splits_plan_followUp hw hw' horigins h₁ h₂ _, htotal,
    h.exists_demand_beside htotal (fun _ ↦ occurs_of_mem_plan_total hw h₁)
      fun _ ↦ occurs_of_mem_plan_total hw' h₂⟩

/-- A reader of log files, and a keeper of the files that it has read. -/
def logbook : Pipeline ℚ where
  wiring := .ofList
    [("archive", ⟨"keeper", 10, ∅⟩), ("logs", ⟨"reader", 30, .singleton "archive" (1 / 3)⟩)]
  valid := by cbv

/-- The relay and the logbook share the reader. It needs the ten replicas that the relay asks for,
since the logbook asks for three. -/
theorem relay_beside_logbook :
    Autoscaler.relay.pipeline.wiring.Apart logbook.wiring ∧
      ∃ p, Pipeline.ofWiring (Autoscaler.relay.pipeline.wiring.beside logbook.wiring) = .ok p ∧
        ∃ demand, ((⟨p, Autoscaler.relay.strategy⟩ : Autoscaler ℚ).plan
          (.ofList [("in", 600), ("logs", 90)])).demand = .ok demand ∧
          demand.get? "reader" = some 10 ∧ demand.get? "keeper" = some 3 := by
  have hapart : Autoscaler.relay.pipeline.wiring.Apart logbook.wiring := by decide
  have hrelay : Pipeline.ofWiring Autoscaler.relay.pipeline.wiring =
      .ok Autoscaler.relay.pipeline :=
    Pipeline.ofWiring_eq_ok_iff.mpr ⟨Autoscaler.relay.pipeline.valid, rfl⟩
  have hlogbook : Pipeline.ofWiring logbook.wiring = .ok logbook :=
    Pipeline.ofWiring_eq_ok_iff.mpr ⟨logbook.valid, rfl⟩
  have hdepths₁ : ∀ q ∈ Autoscaler.relay.pipeline.wiring.keys,
      (Table.singleton "in" 600).get? q = (Table.ofList [("in", 600), ("logs", 90)]).get? q := by
    decide
  have hdepths₂ : ∀ q ∈ logbook.wiring.keys,
      (Table.singleton "logs" 90).get? q = (Table.ofList [("in", 600), ("logs", 90)]).get? q := by
    decide
  obtain ⟨haccepted, hparts⟩ := hapart.unrelated
  obtain ⟨p, hp⟩ := haccepted.mpr ⟨⟨_, hrelay⟩, _, hlogbook⟩
  obtain ⟨-, -, -, demand, demand₁, demand₂, hdemand, hdemand₁, hdemand₂, rfl⟩ :=
    hparts p _ _ hp hrelay hlogbook Autoscaler.relay.strategy _ _ _
      (fun q hq ↦ hdepths₁ q (Table.mem_keys_iff.mpr hq))
      fun q hq ↦ hdepths₂ q (Table.mem_keys_iff.mpr hq)
  have hneeds₁ : (Autoscaler.relay.plan (.singleton "in" 600)).demand =
      .ok (.ofList [("reader", 10), ("writer", 10)]) := by cbv
  have hneeds₂ : ((⟨logbook, Autoscaler.relay.strategy⟩ : Autoscaler ℚ).plan
      (.singleton "logs" 90)).demand = .ok (.ofList [("keeper", 3), ("reader", 3)]) := by cbv
  obtain rfl := Except.ok.inj (hdemand₁.symm.trans hneeds₁)
  obtain rfl := Except.ok.inj (hdemand₂.symm.trans hneeds₂)
  exact ⟨hapart, p, hp, _, hdemand, rfl, rfl⟩

end Wiring

end QueueScaler
