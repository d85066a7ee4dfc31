import Mathlib.Algebra.BigOperators.Ring.Finset
import Mathlib.Algebra.Order.Ring.Rat
import QueueScaler.Proofs.Pipeline.Acyclicity
import QueueScaler.Proofs.Pipeline.FollowUp
/-!
# Total rates as a flow

In exact arithmetic the total rates balance: every queue carries its own demand and what the managed
queues emit to it. In an acyclic wiring there is only one such flow for given demands, so separate
walks from each origin, added up, neither lose a contribution nor count one twice.

## Main definitions

* `Wiring.emission`: the messages that one queue emits to another per message drained from it.
* `Wiring.IsFlow`: the balance of a queue's own demand, what it receives, and what it carries.

## Main results

* `Wiring.IsFlow.unique`: a flow is determined by the demands.
* `Wiring.isFlow_propagate`: one walk yields the flow of a single origin.
* `Wiring.isFlow_totalRates`: the total rates are the flow of all origins.
* `Pipeline.total_eq_flow`: for every pipeline they are the only one, and which queues they list.
-/

namespace QueueScaler

namespace Wiring

variable {K : Type} [CommSemiring K] {w : Wiring K} {origin q : String} {x : K}

/-! ### Flows -/

/-- The messages that a queue emits to another per message drained from it. -/
def emission (w : Wiring K) (p q : String) : K := (w.edges p).getD q 0

/-- Every queue carries its own demand and what the managed queues emit to it. -/
def IsFlow (w : Wiring K) (own flow : String → K) : Prop :=
  ∀ q, flow q = own q + ∑ p ∈ w.managed, w.emission p q * flow p

theorem emission_of_not_produces {p : String} (h : ¬ w.Produces p q) : w.emission p q = 0 := by
  rw [emission, Table.getD_eq, not_produces_iff_get?.mp h, Option.getD_none]

/-- **In an acyclic wiring a flow is determined by the demands.** -/
theorem IsFlow.unique (hw : w.Acyclic) {own f g : String → K} (hf : w.IsFlow own f)
    (hg : w.IsFlow own g) : f = g := by
  funext q
  induction q using hw.wellFounded_produces.induction with
  | _ q ih =>
    rw [hf q, hg q]
    refine congrArg _ (Finset.sum_congr rfl fun p _ ↦ ?_)
    by_cases hp : w.Produces p q
    · rw [ih p hp]
    · rw [emission_of_not_produces hp, zero_mul, zero_mul]

theorem isFlow_zero (w : Wiring K) : w.IsFlow (fun _ ↦ 0) (fun _ ↦ 0) := fun q ↦ by simp

theorem IsFlow.add {own own' f g : String → K} (hf : w.IsFlow own f) (hg : w.IsFlow own' g) :
    w.IsFlow (fun q ↦ own q + own' q) (fun q ↦ f q + g q) := by
  intro q
  simp only [mul_add, Finset.sum_add_distrib]
  rw [hf q, hg q]
  exact add_add_add_comm ..

/-! ### The flow of one origin -/

/-- What has been gathered is the sum of the shares. -/
theorem getD_gathered (inflow : String → K) (q : String) (order : List String) :
    (w.gathered inflow q order).getD 0 = (order.map fun p ↦ w.emission p q * inflow p).sum := by
  induction order with
  | nil => rfl
  | cons p order ih =>
    rw [List.map_cons, List.sum_cons, ← ih, gathered, received, emission, Table.getD_eq]
    rcases (w.edges p).get? q with _ | relative
    · simp
    · exact add_comm ..

/-- Only the managed queues that the origin touches contribute to a sum over its part. -/
theorem sum_touched {order : List String} {inflow : String → K} (hnodup : order.Nodup)
    (h : ∀ p ∈ w.managed, p ∉ order → inflow p = 0) :
    (order.map fun p ↦ w.emission p q * inflow p).sum =
      ∑ p ∈ w.managed, w.emission p q * inflow p := by
  rw [← List.sum_toFinset _ hnodup]
  refine Finset.sum_congr_of_eq_on_inter (fun p _ hp ↦ ?_) (fun p hp hp' ↦ ?_) fun _ _ _ ↦ rfl
  · have hunmanaged : ¬ w.Produces p q := fun hprod ↦ hp (mem_managed.mpr hprod.mem)
    rw [emission_of_not_produces hunmanaged, zero_mul]
  · rw [h p hp fun hmem ↦ hp' (List.mem_toFinset.mpr hmem), mul_zero]

/-- **One walk yields the flow of its origin.** -/
theorem isFlow_propagate (hw : w.Acyclic) {rates : Table K}
    (h : w.propagate origin x = .ok rates) :
    w.IsFlow (fun q ↦ if q = origin then x else 0)
      (fun q ↦ (if q = origin then x else 0) + rates.getD q 0) := by
  intro q
  refine congrArg _ ?_
  have habsent : ∀ q, ¬ w.Reaches origin q → rates.getD q 0 = 0 := fun q hq ↦ by
    rw [Table.getD_eq, Table.not_mem_iff_get?.mp (mt (mem_propagate hw h).mp hq), Option.getD_none]
  by_cases ho : origin ∈ w
  · obtain ⟨order, rates', h', hwalk⟩ := exists_walked hw ho x
    obtain rfl := Except.ok.inj (h.symm.trans h')
    have hinflow : (fun p ↦ if p = origin then x else rates.getD p 0) =
        fun p ↦ (if p = origin then x else 0) + rates.getD p 0 := by
      funext p
      by_cases hp : p = origin
      · rw [hp, if_pos rfl, if_pos rfl, habsent origin (hw origin), add_zero]
      · rw [if_neg hp, if_neg hp, zero_add]
    rw [Table.getD_eq, hwalk.rates, hinflow, getD_gathered]
    refine sum_touched hwalk.nodup fun p _ hp ↦ ?_
    have htouch : ¬ w.Touches origin p := mt (hwalk.mem_iff p).mpr hp
    rw [if_neg fun he ↦ htouch (.inl he), habsent p fun hr ↦ htouch (.inr hr), add_zero]
  · have hnone (q : String) : rates.getD q 0 = 0 := habsent q fun hr ↦ ho hr.mem
    rw [hnone]
    refine (Finset.sum_eq_zero fun p hp ↦ ?_).symm
    have hp : p ≠ origin := fun he ↦ ho (he ▸ mem_managed.mp hp)
    simp only [hnone, if_neg hp, add_zero, mul_zero]

/-! ### The flow of all origins -/

theorem getD_addRates (into other : Table K) (q : String) :
    (addRates into other).getD q 0 = into.getD q 0 + other.getD q 0 := by
  rw [Table.getD_eq, get?_addRates, Table.getD_eq other]
  rcases other.get? q with _ | rate
  · exact (add_zero _).symm
  · rfl

/-- Adding what one origin causes keeps the balance of the origins taken into account. -/
theorem IsFlow.addFollowUp (hw : w.Acyclic) {own sum : Table K} (hnew : origin ∉ own)
    (h : w.IsFlow (own.getD · 0) (fun q ↦ own.getD q 0 + sum.getD q 0)) :
    w.IsFlow ((own.insert origin x).getD · 0)
      (fun q ↦ (own.insert origin x).getD q 0 + (w.addFollowUp sum origin x).getD q 0) := by
  obtain ⟨rates, hrates⟩ := exists_propagate hw origin x
  have hown (q : String) :
      (own.insert origin x).getD q 0 = own.getD q 0 + if q = origin then x else 0 := by
    rw [Table.getD_eq, Table.get?_insert, Table.getD_eq]
    by_cases hq : q = origin
    · rw [if_pos hq, if_pos hq, hq, Table.not_mem_iff_get?.mp hnew]
      exact (zero_add x).symm
    · rw [if_neg hq, if_neg hq, add_zero]
  have hadd := h.add (isFlow_propagate hw hrates)
  simp only [hown, Wiring.addFollowUp, hrates, getD_addRates]
  simpa only [add_add_add_comm] using hadd

/-- Taking further origins into account, each once, keeps the balance. -/
theorem IsFlow.foldl_addFollowUp (hw : w.Acyclic) {entries : List (String × K)}
    {own sum : Table K} (hnodup : (entries.map Prod.fst).Nodup)
    (hnew : ∀ e ∈ entries, e.1 ∉ own)
    (h : w.IsFlow (own.getD · 0) (fun q ↦ own.getD q 0 + sum.getD q 0)) :
    w.IsFlow ((entries.foldl (fun t e ↦ t.insert e.1 e.2) own).getD · 0)
      (fun q ↦ (entries.foldl (fun t e ↦ t.insert e.1 e.2) own).getD q 0 +
        (entries.foldl (fun s e ↦ w.addFollowUp s e.1 e.2) sum).getD q 0) := by
  induction entries generalizing own sum with
  | nil => exact h
  | cons e entries ih =>
    have hkeys := List.nodup_cons.mp hnodup
    refine ih hkeys.2 (fun e' he' hmem ↦ ?_) (h.addFollowUp hw (hnew e List.mem_cons_self))
    rcases Table.mem_insert.mp hmem with heq | hmem
    · exact hkeys.1 (heq ▸ List.mem_map_of_mem he')
    · exact hnew e' (List.mem_cons_of_mem _ he') hmem

/-- **The total rates are the flow of all origins.** -/
theorem isFlow_totalRates (hw : w.Acyclic) (origins : Table K) :
    w.IsFlow (origins.getD · 0) ((totalRates origins (w.followUpRates origins)).getD · 0) := by
  have hempty (q : String) : (∅ : Table K).getD q 0 = 0 := rfl
  have hstart : w.IsFlow ((∅ : Table K).getD · 0)
      (fun q ↦ (∅ : Table K).getD q 0 + (∅ : Table K).getD q 0) := by
    simpa only [hempty, add_zero] using isFlow_zero w
  have hfold := hstart.foldl_addFollowUp hw origins.nodup_keys
    fun e _ ↦ Table.not_mem_empty e.1
  have hown : origins.entries.foldl (fun t e ↦ t.insert e.1 e.2) ∅ = origins :=
    origins.ofList_entries
  rw [hown] at hfold
  simp only [totalRates, getD_addRates]
  exact hfold

end Wiring

/-! ### The total rates of a pipeline -/

variable (p : Pipeline ℚ) (origins : Table ℚ)

/-- **The total rates are the flow of the whole pipeline.** In exact arithmetic, for any rates of
the origins, they are the one solution of the balance at every queue, and they list the origins and
whatever an origin reaches. -/
theorem Pipeline.total_eq_flow :
    (∀ flow : String → ℚ, p.wiring.IsFlow (origins.getD · 0) flow ↔
      flow = fun q ↦ (p.wiring.plan true origins).total.getD q 0) ∧
    ∀ q, q ∈ (p.wiring.plan true origins).total ↔
      q ∈ origins ∨ ∃ o ∈ origins, p.wiring.Reaches o q := by
  have hflow : p.wiring.IsFlow (origins.getD · 0)
      fun q ↦ (p.wiring.plan true origins).total.getD q 0 :=
    Wiring.isFlow_totalRates p.acyclic origins
  refine ⟨fun flow ↦ ⟨fun h ↦ h.unique p.acyclic hflow, fun h ↦ h ▸ hflow⟩, fun q ↦ ?_⟩
  rw [Wiring.mem_plan_total p.acyclic, and_iff_right rfl]

end QueueScaler
