import QueueScaler.Proofs.Pipeline.Demand
import QueueScaler.Proofs.Pipeline.Paths
/-!
# Plans and the depths behind them

A depth has a say in the demand of a service when its queue is an input of the service or, with
follow-up, can send messages on to one. Demand is the same, in any arithmetic, for any two samples
that agree on the depths of those queues.

## Main definitions

* `Wiring.Feeds`: whether the depth of a queue has a say in the demand of a service.

## Main results

* `Wiring.get?_originRates`: the origin rate of a queue.
* `Wiring.needs_plan_congr`: only the depths of the queues that feed a service have a say.
* `Wiring.getD_plan_total`: the total rate of a queue as a sum over production paths.
-/

namespace QueueScaler.Wiring

variable {R : Type} {w : Wiring R} {followUp : Bool} {p q r s : String}

/-- Whether the depth of a queue has a say in the demand of a service, with follow-up or without. -/
def Feeds (w : Wiring R) (followUp : Bool) (q s : String) : Prop :=
  ∃ r, (w.input? s r).isSome ∧ (q = r ∨ followUp = true ∧ w.Reaches q r)

theorem feeds_of_input? (h : (w.input? s q).isSome) : w.Feeds followUp q s := ⟨q, h, .inl rfl⟩

theorem Reaches.feeds (h : w.Reaches p q) (hq : (w.input? s q).isSome) : w.Feeds true p s :=
  ⟨q, hq, .inr ⟨rfl, h⟩⟩

theorem Feeds.mem (h : w.Feeds followUp q s) : q ∈ w := by
  obtain ⟨r, hr, rfl | ⟨-, hreach⟩⟩ := h
  · exact mem_of_mem_consumed (mem_consumed_of_input? hr)
  · exact hreach.mem

section Congruence

variable [Rate R] {decrease : R} {depths depths' : Table Nat} {origins origins' : Table R}

theorem get?_addOrigin (decrease : R) (depths : Table Nat) (rates : Table R) (queue q : String) :
    (addOrigin decrease depths rates queue).get? q =
      if q = queue then ((depths.get? q).map fun n ↦ Rate.ofCount n * decrease).or (rates.get? q)
      else rates.get? q := by
  rw [addOrigin]
  by_cases hq : q = queue
  · subst hq
    rw [if_pos rfl]
    cases depths.get? q with
    | none => rfl
    | some n => exact Table.get?_insert_self ..
  · rw [if_neg hq]
    cases depths.get? queue with
    | none => rfl
    | some n => exact (Table.get?_insert ..).trans (if_neg hq)

/-- The origin rate of a queue: a share of its depth, if it is consumed and was sampled. -/
theorem get?_originRates (w : Wiring R) (decrease : R) (depths : Table Nat) (q : String) :
    (w.originRates decrease depths).get? q =
      (w.consumed.get? q).bind fun _ ↦ (depths.get? q).map fun n ↦ Rate.ofCount n * decrease := by
  have h := Table.view_fold (fun t : Table R ↦ t.get? q)
    (f := fun rates queue (_ : Binding R) ↦ addOrigin decrease depths rates queue)
    (g := fun _ old ↦ ((depths.get? q).map fun n ↦ Rate.ofCount n * decrease).or old)
    (fun t queue b hne ↦ (get?_addOrigin ..).trans (if_neg (Ne.symm hne)))
    (fun t b ↦ (get?_addOrigin ..).trans (if_pos rfl)) w.consumed ∅
  refine Eq.trans h ?_
  cases w.consumed.get? q with
  | none => rfl
  | some b => exact Option.or_none

theorem mem_originRates : q ∈ w.originRates decrease depths ↔ q ∈ w.consumed ∧ q ∈ depths := by
  simp only [Table.mem_iff_get?, get?_originRates, Option.bind_eq_some_iff, Option.map_eq_some_iff]
  constructor
  · rintro ⟨_, b, hb, n, hn, -⟩
    exact ⟨⟨b, hb⟩, n, hn⟩
  · rintro ⟨⟨b, hb⟩, n, hn⟩
    exact ⟨_, b, hb, n, hn, rfl⟩

/-- The total rate of a queue depends on the origins that reach it. -/
theorem get?_plan_total_congr (hw : w.Acyclic) (hself : origins.get? q = origins'.get? q)
    (h : followUp = true → ∀ o, w.Reaches o q → origins.get? o = origins'.get? o) :
    (w.plan followUp origins).total.get? q = (w.plan followUp origins').total.get? q := by
  have hcaused : (if followUp then w.followUpRates origins else ∅).get? q =
      (if followUp then w.followUpRates origins' else ∅).get? q := by
    cases followUp with
    | false => rfl
    | true =>
      classical
      let keep : String → R → Bool := fun o _ ↦ decide (w.Reaches o q)
      have hfilter : origins.filter keep = origins'.filter keep := by
        refine Table.ext_get? fun o ↦ ?_
        rw [Table.get?_filter, Table.get?_filter]
        by_cases ho : w.Reaches o q
        · rw [h rfl o ho]
        · cases origins.get? o <;> cases origins'.get? o <;> simp [keep, ho]
      have hkeep : ∀ o x, keep o x = false → ¬ w.Reaches o q := fun _ _ ↦ of_decide_eq_false
      rw [if_pos rfl, if_pos rfl, ← get?_followUpRates_filter hw origins keep hkeep, hfilter,
        get?_followUpRates_filter hw origins' keep hkeep]
  rw [get?_plan_total, get?_plan_total, hcaused, Table.getD_eq, Table.getD_eq, hself]

/-- **Only the queues that feed a service have a say in its demand,** in any arithmetic. -/
theorem needs_plan_congr (hw : w.Acyclic)
    (h : ∀ q, w.Feeds followUp q s → depths.get? q = depths'.get? q) :
    w.needs s (w.plan followUp (w.originRates decrease depths)).total =
      w.needs s (w.plan followUp (w.originRates decrease depths')).total := by
  have horigin : ∀ q, w.Feeds followUp q s →
      (w.originRates decrease depths).get? q = (w.originRates decrease depths').get? q :=
    fun q hq ↦ by rw [get?_originRates, get?_originRates, h q hq]
  refine needs_congr fun q hq ↦ ?_
  refine get?_plan_total_congr hw (horigin q (feeds_of_input? hq)) ?_
  rintro rfl o ho
  exact horigin o (ho.feeds hq)

end Congruence

/-! ### Totals over the rationals -/

/-- The total rate of a queue: its own demand and, with follow-up, the demand of every origin times
the sum over the production paths from there. -/
theorem getD_plan_total {w : Wiring ℚ} (hw : w.Acyclic) (followUp : Bool) (origins : Table ℚ)
    (q : String) :
    (w.plan followUp origins).total.getD q 0 = origins.getD q 0 +
      if followUp then ∑ o ∈ origins.keys.toFinset, origins.getD o 0 * w.pathSum o q else 0 := by
  cases followUp with
  | false => exact (getD_addRates ..).trans (congrArg _ rfl)
  | true => exact getD_totalRates hw origins q

end QueueScaler.Wiring
