import Mathlib.Algebra.Order.Round
import Mathlib.Data.Rat.Floor
import QueueScaler.Pipeline.Plan
/-!
# Replica demand by service

The demand of a service is the most that any of its queues calls for, among the queues that have a
rate. Over the rationals a queue calls for nothing exactly when its rate stays below a quarter of
what one replica drains.

## Main definitions

* `Wiring.input?`: the binding of a queue that a given service drains.
* `Wiring.needs`: what each queue of a service calls for.

## Main results

* `Wiring.mem_services`: the services of a wiring.
* `Wiring.exists_demand`: the demand can always be told, and is the maximum of the needs.
* `Wiring.mem_demand`: the services that the demand names.
* `Wiring.needs_congr`: the rates of the queues of other services have no say in it.
* `replicasFor_eq_zero_iff`: when a rate calls for nothing.
-/

namespace QueueScaler

variable {R : Type}

namespace Wiring

/-! ### The queues of a service -/

/-- The binding of a queue, if it is an input of the given service. -/
def input? (w : Wiring R) (service queue : String) : Option (Binding R) :=
  (w.consumed.get? queue).filter fun b ↦ b.service = service

theorem get?_consumed (w : Wiring R) (q : String) :
    w.consumed.get? q = (w.get? q).filter Binding.hasConsumer :=
  Table.get?_filter ..

theorem input?_eq_some {w : Wiring R} {s q : String} {b : Binding R} :
    w.input? s q = some b ↔ w.get? q = some b ∧ b.hasConsumer = true ∧ b.service = s := by
  rw [input?, get?_consumed, Option.filter_eq_some_iff, Option.filter_eq_some_iff,
    decide_eq_true_iff, and_assoc]

theorem mem_of_mem_consumed {w : Wiring R} {q : String} (h : q ∈ w.consumed) : q ∈ w := by
  obtain ⟨b, hb⟩ := Table.mem_iff_get?.mp h
  rw [get?_consumed, Option.filter_eq_some_iff] at hb
  exact Table.mem_iff_get?.mpr ⟨b, hb.1⟩

theorem mem_consumed_of_input? {w : Wiring R} {s q : String} (h : (w.input? s q).isSome) :
    q ∈ w.consumed := by
  obtain ⟨b, hb⟩ := Option.isSome_iff_exists.mp h
  rw [input?, Option.filter_eq_some_iff] at hb
  exact Table.mem_iff_get?.mpr ⟨b, hb.1⟩

/-- A service drains a queue if it is named there and its name is not blank. -/
theorem isSome_input?_iff {w : Wiring R} {s q : String} :
    (w.input? s q).isSome ↔
      (w.get? q).map Binding.service = some s ∧ Text.isAllBlank s = false := by
  simp only [Option.isSome_iff_exists, input?_eq_some, Option.map_eq_some_iff, Binding.hasConsumer,
    Bool.not_eq_true']
  constructor
  · rintro ⟨b, hb, hnamed, rfl⟩
    exact ⟨⟨b, hb, rfl⟩, hnamed⟩
  · rintro ⟨⟨b, hb, rfl⟩, hnamed⟩
    exact ⟨b, hb, hnamed, rfl⟩

theorem mem_consumed_iff {w : Wiring R} {q : String} :
    q ∈ w.consumed ↔ ∃ s, (w.input? s q).isSome := by
  refine ⟨fun h ↦ ?_, fun ⟨_, h⟩ ↦ mem_consumed_of_input? h⟩
  obtain ⟨b, hb⟩ := Table.mem_iff_get?.mp h
  rw [get?_consumed, Option.filter_eq_some_iff] at hb
  exact ⟨b.service, Option.isSome_iff_exists.mpr ⟨b, input?_eq_some.mpr ⟨hb.1, hb.2, rfl⟩⟩⟩

/-- The services are those that drain some queue. -/
theorem mem_services {w : Wiring R} {s : String} :
    s ∈ w.services ↔ ∃ q, (w.input? s q).isSome := by
  rw [services, NameSet.ofNames, NameSet.mem_foldl_add, or_iff_left (Table.not_mem_empty s),
    List.mem_map]
  constructor
  · rintro ⟨b, hb, hs⟩
    obtain ⟨⟨q, _⟩, hq, rfl⟩ := List.mem_map.mp hb
    exact ⟨q, Option.isSome_iff_exists.mpr ⟨_, Option.filter_eq_some_iff.mpr
      ⟨Table.mem_entries_iff.mp hq, decide_eq_true hs⟩⟩⟩
  · rintro ⟨q, hq⟩
    obtain ⟨b, hb⟩ := Option.isSome_iff_exists.mp hq
    obtain ⟨hb, hs⟩ := Option.filter_eq_some_iff.mp hb
    exact ⟨b, List.mem_map.mpr ⟨(q, b), Table.mem_entries_iff.mpr hb, rfl⟩, of_decide_eq_true hs⟩

/-! ### The demand of a service -/

section Needs

variable [Rate R] {w : Wiring R} {s q : String} {b : Binding R} {rates rates' : Table R} {x : R}

/-- What the queues of a service call for, a number for each queue with a rate. -/
def needs (w : Wiring R) (service : String) (rates : Table R) : List Nat :=
  rates.entries.filterMap fun e ↦
    (w.input? service e.1).map fun b ↦ replicasFor b.consumptionRate e.2

theorem mem_needs_iff {n : Nat} : n ∈ w.needs s rates ↔
    ∃ q x b, rates.get? q = some x ∧ w.input? s q = some b ∧
      replicasFor b.consumptionRate x = n := by
  simp only [needs, List.mem_filterMap, Option.map_eq_some_iff, Prod.exists, Table.mem_entries_iff]
  grind

theorem mem_needs (hb : w.input? s q = some b) (hx : rates.get? q = some x) :
    replicasFor b.consumptionRate x ∈ w.needs s rates :=
  mem_needs_iff.mpr ⟨q, x, b, hx, hb, rfl⟩

/-- The queues of other services have no say in the needs. -/
theorem needs_filter (w : Wiring R) (s : String) (rates : Table R) :
    w.needs s (rates.filter fun q _ ↦ (w.input? s q).isSome) = w.needs s rates := by
  refine Eq.trans List.filterMap_filter (List.filterMap_congr fun e _ ↦ ?_)
  cases h : w.input? s e.1 <;> simp [h]

/-- The needs of a service depend on the rates of its own queues. -/
theorem needs_congr (h : ∀ q, (w.input? s q).isSome → rates.get? q = rates'.get? q) :
    w.needs s rates = w.needs s rates' := by
  have htable : (rates.filter fun q _ ↦ (w.input? s q).isSome) =
      rates'.filter fun q _ ↦ (w.input? s q).isSome := by
    refine Table.ext_get? fun q ↦ ?_
    rw [Table.get?_filter, Table.get?_filter]
    by_cases hq : (w.input? s q).isSome
    · rw [h q hq]
    · cases rates.get? q <;> cases rates'.get? q <;> simp [hq]
  rw [← needs_filter, htable, needs_filter]

/-- Taking the rate of one queue into account is a success, and touches only its service. -/
theorem exists_addDemand (w : Wiring R) (demand : Table Nat) (e : String × R) :
    ∃ demand', w.addDemand demand e = .ok demand' ∧ ∀ s, demand'.get? s =
      match w.input? s e.1 with
      | none => demand.get? s
      | some b => some (max ((demand.get? s).getD 0) (replicasFor b.consumptionRate e.2)) := by
  rw [addDemand]
  rcases hb : w.get? e.1 with _ | b
  · refine ⟨demand, rfl, fun s ↦ ?_⟩
    rw [input?, get?_consumed, hb]
    rfl
  · by_cases hc : b.hasConsumer = true
    · refine ⟨demand.alter b.service fun old ↦
        max (old.getD 0) (replicasFor b.consumptionRate e.2), ?_, fun s ↦ ?_⟩
      · simp [hc, required, consumptionRate, hb, Except.map]
      · rw [Table.get?_alter]
        by_cases hs : s = b.service
        · rw [if_pos hs, input?_eq_some.mpr ⟨hb, hc, hs.symm⟩, hs]
        · have hnone : w.input? s e.1 = none := Option.eq_none_iff_forall_ne_some.mpr fun b' hb' ↦ by
            obtain ⟨hb', -, hs'⟩ := input?_eq_some.mp hb'
            exact hs (by rw [← hs', Option.some.inj (hb.symm.trans hb')])
          rw [if_neg hs, hnone]
    · refine ⟨demand, by simp [hc], fun s ↦ ?_⟩
      have hnone : w.input? s e.1 = none := Option.eq_none_iff_forall_ne_some.mpr fun b' hb' ↦ by
        obtain ⟨hb', hc', -⟩ := input?_eq_some.mp hb'
        exact hc (by rw [Option.some.inj (hb.symm.trans hb'), hc'])
      rw [hnone]

/-- Taking the rates of several queues into account, one after the other. -/
theorem exists_foldlM_addDemand (w : Wiring R) (l : List (String × R)) (start : Table Nat) :
    ∃ demand, l.foldlM w.addDemand start = .ok demand ∧ ∀ s, demand.get? s =
      (l.filterMap fun e ↦
        (w.input? s e.1).map fun b ↦ replicasFor b.consumptionRate e.2).foldl
          (fun old n ↦ some (max (old.getD 0) n)) (start.get? s) := by
  induction l generalizing start with
  | nil => exact ⟨start, rfl, fun _ ↦ rfl⟩
  | cons e l ih =>
    obtain ⟨mid, hmid, hget⟩ := w.exists_addDemand start e
    obtain ⟨demand, hdemand, hall⟩ := ih mid
    refine ⟨demand, ?_, fun s ↦ ?_⟩
    · rw [List.foldlM_cons, hmid]
      exact hdemand
    · rw [hall s, hget s, List.filterMap_cons]
      cases w.input? s e.1 <;> rfl

theorem foldl_max_none (l : List Nat) :
    l.foldl (fun old n ↦ some (max (old.getD 0) n)) none = l.max? := by
  have hsome : ∀ (l : List Nat) (n : Nat),
      l.foldl (fun old n ↦ some (max (old.getD 0) n)) (some n) = some (l.foldl max n) := by
    intro l
    induction l with
    | nil => exact fun _ ↦ rfl
    | cons a l ih => exact fun n ↦ ih (max n a)
  cases l with
  | nil => rfl
  | cons n l => rw [List.foldl_cons, List.max?_cons', hsome, Option.getD_none, Nat.zero_max]

/-- **Demand can be told for all rates,** and the demand of a service is the most that any of its
queues calls for; a service none of whose queues has a rate has no entry. -/
theorem exists_demand (w : Wiring R) (rates : Table R) :
    ∃ demand, w.demand rates = .ok demand ∧ ∀ s, demand.get? s = (w.needs s rates).max? := by
  obtain ⟨demand, hdemand, hget⟩ := w.exists_foldlM_addDemand rates.entries ∅
  exact ⟨demand, hdemand, fun s ↦ (hget s).trans (foldl_max_none _)⟩

theorem get?_demand {demand : Table Nat} (h : w.demand rates = .ok demand) (s : String) :
    demand.get? s = (w.needs s rates).max? := by
  obtain ⟨_, h', hget⟩ := w.exists_demand rates
  obtain rfl := Except.ok.inj (h.symm.trans h')
  exact hget s

/-- The demand names the services one of whose queues has a rate. -/
theorem mem_demand {demand : Table Nat} (h : w.demand rates = .ok demand) :
    s ∈ demand ↔ ∃ q ∈ rates, (w.input? s q).isSome := by
  rw [Table.mem_iff_get?, get?_demand h]
  constructor
  · rintro ⟨n, hn⟩
    obtain ⟨q, x, b, hx, hb, -⟩ := mem_needs_iff.mp (List.max?_eq_some_iff.mp hn).1
    exact ⟨q, Table.mem_iff_get?.mpr ⟨x, hx⟩, Option.isSome_iff_exists.mpr ⟨b, hb⟩⟩
  · rintro ⟨q, hq, hs⟩
    obtain ⟨x, hx⟩ := Table.mem_iff_get?.mp hq
    obtain ⟨b, hb⟩ := Option.isSome_iff_exists.mp hs
    exact Option.isSome_iff_exists.mp (List.isSome_max?_of_mem (mem_needs hb hx))

end Needs

end Wiring

/-! ### Negligible rates -/

theorem effectiveCapacity_eq_max (capacity : ℚ) : effectiveCapacity capacity = max capacity 1 := by
  by_cases h : capacity < 1
  · rw [max_eq_right h.le]
    exact if_pos h
  · rw [max_eq_left (not_lt.mp h)]
    exact if_neg h

/-- The replicas that a rate calls for, in whole and in quarter shares of what a replica drains. -/
theorem replicasFor_eq (capacity rate : ℚ) :
    replicasFor capacity rate =
      if rate < max capacity 1 / 4 then 0
      else min (rate / max capacity 1).ceil.toNat Count.ceiling := by
  have hpos : (0 : ℚ) < max capacity 1 := lt_max_of_lt_right one_pos
  rw [← effectiveCapacity_eq_max] at hpos ⊢
  refine if_congr ((or_iff_right Bool.false_ne_true).trans ?_) rfl rfl
  have hquarter : (Rate.quarter : ℚ) = 1 / 4 := by decide +kernel
  rw [hquarter, show effectiveCapacity capacity / 4 = 1 / 4 * effectiveCapacity capacity by ring,
    ← div_lt_iff₀ hpos]

/-- A rate calls for nothing exactly when it is below a quarter of what one replica drains. -/
theorem replicasFor_eq_zero_iff {capacity rate : ℚ} :
    replicasFor capacity rate = 0 ↔ rate < max capacity 1 / 4 := by
  have hpos : (0 : ℚ) < max capacity 1 := lt_max_of_lt_right one_pos
  rw [replicasFor_eq]
  split
  · exact iff_of_true rfl ‹_›
  · rename_i h
    refine iff_of_false (fun hzero ↦ ?_) h
    have hrate : 0 < rate := lt_of_lt_of_le (by positivity) (not_lt.mp h)
    have hceil : 0 < (rate / max capacity 1).ceil := Rat.lt_ceil_iff.mpr (div_pos hrate hpos)
    have hceiling : 0 < Count.ceiling := by decide
    omega

end QueueScaler
