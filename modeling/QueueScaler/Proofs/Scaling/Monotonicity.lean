import QueueScaler.Proofs.Pipeline.Validity
import QueueScaler.Proofs.Scaling.Deciding
/-!
# More work never calls for fewer replicas

One plan is lighter than another if the same queues were sampled in pipelines of the same shape, and
the depths, the share of them to be drained and the production rates are at most those of the other
one, while a replica drains at least as much; follow-up may be missing. In exact arithmetic the
lighter plan calls for at most as many replicas of every service. The path sums carry this from the
production rates to the total rates, and the rounding keeps it.

## Main definitions

* `Wiring.Lighter`, `Autoscaler.Lighter`: the comparison of two wirings and of two plans.

## Main results

* `Wiring.Lighter.pathSum_le`: lighter production rates carry less from one queue to another.
* `Autoscaler.Lighter.total_le`: the total rates of a lighter plan.
* `replicasFor_mono`: rounding to replicas keeps the order.
* `Autoscaler.demand_mono`: the replicas that a lighter plan calls for.
-/

namespace QueueScaler

/-- Two wirings of the same shape, of which the first one has the lower production rates and the
higher consumption rates. -/
structure Wiring.Lighter (w w' : Wiring ℚ) : Prop where
  /-- The same queues are managed, and drained by the same services. -/
  service : ∀ q, (w.get? q).map Binding.service = (w'.get? q).map Binding.service
  /-- The same production edges exist. -/
  produces : ∀ p q, w.Produces p q ↔ w'.Produces p q
  /-- Along each of them at most as much is produced. -/
  emission : ∀ p q, w.emission p q ≤ w'.emission p q
  /-- A replica drains at least as much of a consumed queue. -/
  capacity : ∀ q b b', w.consumed.get? q = some b → w'.consumed.get? q = some b' →
    b'.consumptionRate ≤ b.consumptionRate

/-- Two autoscalers and the depths that each has sampled, of which the first one has less work. -/
structure Autoscaler.Lighter (a a' : Autoscaler ℚ) (depths depths' : Table Nat) : Prop where
  /-- The wirings have the same shape, and the first one is lighter. -/
  wiring : a.pipeline.wiring.Lighter a'.pipeline.wiring
  /-- As is checked, no negative share is drained. -/
  decrease_nonneg : 0 ≤ a.strategy.decreasePerMinute
  /-- At most the same share is drained. -/
  decrease : a.strategy.decreasePerMinute ≤ a'.strategy.decreasePerMinute
  /-- Follow-up may be missing. -/
  followUp : a.strategy.followUpEnabled = true → a'.strategy.followUpEnabled = true
  /-- The same queues were sampled. -/
  sampled : ∀ q, q ∈ depths ↔ q ∈ depths'
  /-- At most the same depths were found. -/
  depth : ∀ q, depths.getD q 0 ≤ depths'.getD q 0

/-! ### Wirings -/

theorem Pipeline.emission_nonneg (p : Pipeline ℚ) (q t : String) : 0 ≤ p.wiring.emission q t := by
  rw [Wiring.emission, Table.getD_eq]
  cases hrate : (p.wiring.edges q).get? t with
  | none => exact le_refl 0
  | some rate => exact not_lt.mp (p.ratesFit.edge hrate).2

namespace Wiring

variable {w w' : Wiring ℚ} {p q s : String}

theorem getD_originRates (w : Wiring ℚ) (decrease : ℚ) (depths : Table Nat) (q : String) :
    (w.originRates decrease depths).getD q 0 =
      if q ∈ w.consumed then (depths.getD q 0 : ℚ) * decrease else 0 := by
  rw [Table.getD_eq, get?_originRates, Table.getD_eq]
  by_cases hq : q ∈ w.consumed
  · obtain ⟨b, hb⟩ := Table.mem_iff_get?.mp hq
    rw [if_pos hq, hb, Option.bind_some]
    cases depths.get? q with
    | none => simp
    | some n => rfl
  · rw [if_neg hq, Table.not_mem_iff_get?.mp hq]
    rfl

namespace Lighter

variable (h : w.Lighter w')

include h

theorem isSome_input? : (w.input? s q).isSome ↔ (w'.input? s q).isSome := by
  rw [isSome_input?_iff, isSome_input?_iff, h.service]

theorem mem_consumed : q ∈ w.consumed ↔ q ∈ w'.consumed := by
  simp only [mem_consumed_iff, h.isSome_input?]

theorem reaches : w.Reaches p q ↔ w'.Reaches p q := by
  rw [Reaches, Reaches, show w.Produces = w'.Produces from
    funext fun p ↦ funext fun q ↦ propext (h.produces p q)]

/-- **Lighter production rates carry less from one queue to another.** -/
theorem pathSum_le (hw : w.Acyclic) (hw' : w'.Acyclic) (hpos : ∀ p q, 0 ≤ w.emission p q)
    (p q : String) : 0 ≤ w.pathSum p q ∧ w.pathSum p q ≤ w'.pathSum p q := by
  have htargets (p : String) : (w'.targets p).toFinset = (w.targets p).toFinset :=
    Finset.ext fun t ↦ by
      rw [List.mem_toFinset, List.mem_toFinset]
      exact (h.produces p t).symm
  induction p using hw.wellFounded_targets.induction with
  | _ p ih =>
    have hnonneg : ∀ t ∈ (w.targets p).toFinset, 0 ≤ (if t = q then 1 else 0) + w.pathSum t q :=
      fun t ht ↦ add_nonneg (by split <;> simp) (ih t (List.mem_toFinset.mp ht)).1
    rw [pathSum_eq_sum_first hw, pathSum_eq_sum_first hw', htargets]
    refine ⟨Finset.sum_nonneg fun t ht ↦ mul_nonneg (hpos p t) (hnonneg t ht),
      Finset.sum_le_sum fun t ht ↦ ?_⟩
    have hrest := add_le_add_right (ih t (List.mem_toFinset.mp ht)).2 (if t = q then 1 else 0)
    exact mul_le_mul (h.emission p t) hrest (hnonneg t ht)
      ((hpos p t).trans (h.emission p t))

end Lighter

end Wiring

/-! ### Rates -/

namespace Autoscaler.Lighter

variable {a a' : Autoscaler ℚ} {depths depths' : Table Nat} {q s : String}
  (h : a.Lighter a' depths depths')

include h

theorem mem_origins : q ∈ a.origins depths ↔ q ∈ a'.origins depths' := by
  rw [origins, origins, Wiring.mem_originRates, Wiring.mem_originRates, h.wiring.mem_consumed,
    h.sampled]

theorem origin_le (q : String) :
    0 ≤ (a.origins depths).getD q 0 ∧
      (a.origins depths).getD q 0 ≤ (a'.origins depths').getD q 0 := by
  rw [origins, origins, Wiring.getD_originRates, Wiring.getD_originRates,
    if_congr h.wiring.mem_consumed rfl rfl]
  split
  · have hdepth : (depths.getD q 0 : ℚ) ≤ depths'.getD q 0 := Nat.cast_le.mpr (h.depth q)
    exact ⟨mul_nonneg (Nat.cast_nonneg _) h.decrease_nonneg,
      mul_le_mul hdepth h.decrease h.decrease_nonneg (Nat.cast_nonneg _)⟩
  · exact ⟨le_refl 0, le_refl 0⟩

theorem mem_total (hq : q ∈ (a.plan depths).total) : q ∈ (a'.plan depths').total := by
  rw [plan, Wiring.mem_plan_total a.pipeline.acyclic] at hq
  rw [plan, Wiring.mem_plan_total a'.pipeline.acyclic]
  simpa only [← h.mem_origins, ← h.wiring.reaches] using hq.imp_right (And.imp_left h.followUp)

theorem mem_total_iff (hfollowUp : a.strategy.followUpEnabled = a'.strategy.followUpEnabled) :
    q ∈ (a.plan depths).total ↔ q ∈ (a'.plan depths').total := by
  rw [plan, plan, Wiring.mem_plan_total a.pipeline.acyclic,
    Wiring.mem_plan_total a'.pipeline.acyclic, hfollowUp]
  simp only [h.mem_origins, h.wiring.reaches]

/-- **The total rates of a lighter plan** are at most those of the other one. -/
theorem total_le (q : String) :
    (a.plan depths).total.getD q 0 ≤ (a'.plan depths').total.getD q 0 := by
  have horigins : (a'.origins depths').keys.toFinset = (a.origins depths).keys.toFinset :=
    Finset.ext fun o ↦ by
      rw [List.mem_toFinset, List.mem_toFinset, Table.mem_keys_iff, Table.mem_keys_iff,
        h.mem_origins]
  have hpath := h.wiring.pathSum_le a.pipeline.acyclic a'.pipeline.acyclic
    a.pipeline.emission_nonneg
  have hcaused : ∀ o, 0 ≤ (a.origins depths).getD o 0 * a.pipeline.wiring.pathSum o q ∧
      (a.origins depths).getD o 0 * a.pipeline.wiring.pathSum o q ≤
        (a'.origins depths').getD o 0 * a'.pipeline.wiring.pathSum o q := fun o ↦
    ⟨mul_nonneg (h.origin_le o).1 (hpath o q).1, mul_le_mul (h.origin_le o).2 (hpath o q).2
      (hpath o q).1 ((h.origin_le o).1.trans (h.origin_le o).2)⟩
  rw [plan, plan, Wiring.getD_plan_total a.pipeline.acyclic,
    Wiring.getD_plan_total a'.pipeline.acyclic, horigins]
  refine add_le_add (h.origin_le q).2 ?_
  by_cases hon : a.strategy.followUpEnabled = true
  · rw [if_pos hon, if_pos (h.followUp hon)]
    exact Finset.sum_le_sum fun o _ ↦ (hcaused o).2
  · rw [if_neg hon]
    split
    · exact Finset.sum_nonneg fun o _ ↦ (hcaused o).1.trans (hcaused o).2
    · exact le_refl 0

end Autoscaler.Lighter

/-! ### Replicas -/

/-- Rounding to replicas keeps the order: a lower rate, shared by replicas that drain more, calls for
at most as many of them. -/
theorem replicasFor_mono {capacity capacity' rate rate' : ℚ} (hcapacity : capacity' ≤ capacity)
    (hrate : rate ≤ rate') : replicasFor capacity rate ≤ replicasFor capacity' rate' := by
  have hmax : max capacity' 1 ≤ max capacity 1 := max_le_max_right 1 hcapacity
  have hpos : (0 : ℚ) < max capacity' 1 := lt_max_of_lt_right one_pos
  rw [replicasFor_eq, replicasFor_eq]
  split
  · exact Nat.zero_le _
  · rename_i hdemanded
    have hquarter : max capacity 1 / 4 ≤ rate := not_lt.mp hdemanded
    have hrate' : max capacity' 1 / 4 ≤ rate' :=
      (div_le_div_of_nonneg_right hmax (by norm_num)).trans (hquarter.trans hrate)
    have hshare : rate / max capacity 1 ≤ rate' / max capacity' 1 := by
      have hrate0 : 0 ≤ rate' := le_trans (by positivity) hrate'
      exact div_le_div₀ hrate0 hrate hpos hmax
    have hceil : (rate / max capacity 1).ceil ≤ (rate' / max capacity' 1).ceil :=
      Rat.ceil_le_iff.mpr (hshare.trans Rat.le_ceil)
    rw [if_neg (not_lt.mpr hrate')]
    exact min_le_min_right _ (Int.toNat_le_toNat hceil)

/-! ### The demand of services -/

namespace Autoscaler

variable {a a' : Autoscaler ℚ} {depths depths' : Table Nat} {s : String} {n : Nat}

/-- A lighter plan calls for at most as many replicas of a service. -/
theorem Lighter.required?_le (h : a.Lighter a' depths depths')
    (hn : a.required? depths s = some n) : ∃ n', a'.required? depths' s = some n' ∧ n ≤ n' := by
  obtain ⟨q, b, x, hb, hx, rfl⟩ := exists_input_of_required? hn
  obtain ⟨b', hb'⟩ := Option.isSome_iff_exists.mp
    (h.wiring.isSome_input?.mp (Option.isSome_iff_exists.mpr ⟨b, hb⟩))
  obtain ⟨x', hx'⟩ := Table.mem_iff_get?.mp (h.mem_total (Table.mem_iff_get?.mpr ⟨x, hx⟩))
  have hcapacity : b'.consumptionRate ≤ b.consumptionRate :=
    h.wiring.capacity q b b' (Option.filter_eq_some_iff.mp hb).1 (Option.filter_eq_some_iff.mp hb').1
  have htotal := h.total_le q
  rw [Table.getD_eq, Table.getD_eq, hx, hx', Option.getD_some, Option.getD_some] at htotal
  obtain ⟨n', hn', hle⟩ := exists_required?_ge hb' hx'
  exact ⟨n', hn', (replicasFor_mono hcapacity htotal).trans hle⟩

/-- With or without follow-up on both sides, the same services need something. -/
theorem Lighter.exists_required? (h : a.Lighter a' depths depths')
    (hfollowUp : a.strategy.followUpEnabled = a'.strategy.followUpEnabled)
    (hn : a'.required? depths' s = some n) : ∃ n', a.required? depths s = some n' := by
  obtain ⟨q, b, x, hb, hx, -⟩ := exists_input_of_required? hn
  obtain ⟨b', hb'⟩ := Option.isSome_iff_exists.mp
    (h.wiring.isSome_input?.mpr (Option.isSome_iff_exists.mpr ⟨b, hb⟩))
  have htotal : q ∈ (a'.plan depths').total := Table.mem_iff_get?.mpr ⟨x, hx⟩
  rw [← h.mem_total_iff hfollowUp] at htotal
  obtain ⟨x', hx'⟩ := Table.mem_iff_get?.mp htotal
  obtain ⟨n', hn', -⟩ := exists_required?_ge hb' hx'
  exact ⟨n', hn'⟩

/-- **More work never calls for fewer replicas,** in exact arithmetic and in all valid pipelines.
Take two plans of the same shape, with the same queues sampled, of which one is lighter: every depth,
the share to be drained and every production rate is at most that of the other plan, every consumed
queue is drained at least as fast by a replica, and follow-up is enabled only if it is in the other
plan. The demand of both can be told. A service with a demand in the lighter plan has at least that
demand in the other one, and if follow-up is enabled in both or in neither, the same services have a
demand. -/
theorem demand_mono (h : a.Lighter a' depths depths') :
    ∃ demand demand', (a.plan depths).demand = .ok demand ∧
      (a'.plan depths').demand = .ok demand' ∧
      (∀ s n, demand.get? s = some n → ∃ n', demand'.get? s = some n' ∧ n ≤ n') ∧
      (a.strategy.followUpEnabled = a'.strategy.followUpEnabled →
        ∀ s, s ∈ demand ↔ s ∈ demand') := by
  obtain ⟨demand, hdemand, hget⟩ := a.pipeline.wiring.exists_demand (a.plan depths).total
  obtain ⟨demand', hdemand', hget'⟩ := a'.pipeline.wiring.exists_demand (a'.plan depths').total
  have hle : ∀ s n, demand.get? s = some n → ∃ n', demand'.get? s = some n' ∧ n ≤ n' :=
    fun s n hn ↦ by
      rw [hget']
      exact h.required?_le ((hget s).symm.trans hn)
  refine ⟨demand, demand', hdemand, hdemand', hle, fun hfollowUp s ↦ ⟨fun hs ↦ ?_, fun hs ↦ ?_⟩⟩
  · obtain ⟨n, hn⟩ := Table.mem_iff_get?.mp hs
    obtain ⟨n', hn', -⟩ := hle s n hn
    exact Table.mem_iff_get?.mpr ⟨n', hn'⟩
  · obtain ⟨n, hn⟩ := Table.mem_iff_get?.mp hs
    obtain ⟨n', hn'⟩ := h.exists_required? hfollowUp ((hget' s).symm.trans hn)
    exact Table.mem_iff_get?.mpr ⟨n', (hget s).trans hn'⟩

/-- A relay that forecasts nothing. -/
def shortSightedRelay : Autoscaler ℚ :=
  { relay with strategy := { relay.strategy with followUpEnabled := false } }

/-- A relay with slower services, one of which passes on every message, and with twice the share to
be drained. -/
def strainedRelay : Autoscaler ℚ where
  pipeline :=
    { wiring := .ofList
        [("in", ⟨"reader", 50, .singleton "out" 1⟩), ("out", ⟨"writer", 20, ∅⟩)]
      valid := by cbv }
  strategy := { relay.strategy with decreasePerMinute := 2 }

theorem shortSightedRelay_lighter :
    shortSightedRelay.pipeline.wiring.Lighter strainedRelay.pipeline.wiring := by
  have hget (q : String) : shortSightedRelay.pipeline.wiring.get? q =
      if q = "out" then some ⟨"writer", 30, ∅⟩
      else if q = "in" then some ⟨"reader", 60, .singleton "out" (1 / 2)⟩ else none := by
    simp [shortSightedRelay, relay, Table.ofList, Table.get?_insert]
  have hget' (q : String) : strainedRelay.pipeline.wiring.get? q =
      if q = "out" then some ⟨"writer", 20, ∅⟩
      else if q = "in" then some ⟨"reader", 50, .singleton "out" 1⟩ else none := by
    simp [strainedRelay, Table.ofList, Table.get?_insert]
  constructor
  · intro q
    rw [hget, hget']
    split_ifs <;> rfl
  · intro q t
    rw [Wiring.Produces, Wiring.Produces, Wiring.targets, Wiring.targets, Wiring.edges,
      Wiring.edges, hget, hget']
    split_ifs <;> exact Iff.rfl
  · intro q t
    rw [Wiring.emission, Wiring.emission, Wiring.edges, Wiring.edges, hget, hget']
    split_ifs
    · exact le_refl 0
    · simp only [Option.map_some, Option.getD_some, Table.getD_eq, Table.get?_singleton]
      split <;> norm_num
    · exact le_refl 0
  · intro q b b' hb hb'
    rw [Wiring.get?_consumed, Option.filter_eq_some_iff] at hb hb'
    rw [hget] at hb
    rw [hget'] at hb'
    split_ifs at hb hb'
    · obtain rfl := Option.some.inj hb.1
      obtain rfl := Option.some.inj hb'.1
      norm_num
    · obtain rfl := Option.some.inj hb.1
      obtain rfl := Option.some.inj hb'.1
      norm_num
    · cases hb.1

/-- The writer of a strained relay with more messages needs at least the one replica that the writer
of a relay without forecast needs. -/
theorem strainedRelay_writer_demand :
    shortSightedRelay.Lighter strainedRelay
        (.ofList [("in", 600), ("out", 30)]) (.ofList [("in", 660), ("out", 60)]) ∧
      ∃ demand', (strainedRelay.plan (.ofList [("in", 660), ("out", 60)])).demand = .ok demand' ∧
        ∃ n, demand'.get? "writer" = some n ∧ 1 ≤ n := by
  have hlighter : shortSightedRelay.Lighter strainedRelay
      (.ofList [("in", 600), ("out", 30)]) (.ofList [("in", 660), ("out", 60)]) := by
    refine ⟨shortSightedRelay_lighter, by decide, by decide, fun _ ↦ rfl, fun q ↦ ?_, fun q ↦ ?_⟩
    · rw [← Table.mem_keys_iff, ← Table.mem_keys_iff]
      exact Iff.rfl
    · simp only [Table.getD_eq, Table.ofList, List.foldl_cons, List.foldl_nil, Table.get?_insert]
      split_ifs
      · decide
      · decide
      · exact le_rfl
  obtain ⟨demand, demand', hdemand, hdemand', hle, -⟩ := demand_mono hlighter
  have hneed : (shortSightedRelay.plan (.ofList [("in", 600), ("out", 30)])).demand =
      .ok (.ofList [("reader", 10), ("writer", 1)]) := by cbv
  obtain rfl := Except.ok.inj (hdemand.symm.trans hneed)
  exact ⟨hlighter, demand', hdemand', hle "writer" 1 rfl⟩

end Autoscaler

end QueueScaler
