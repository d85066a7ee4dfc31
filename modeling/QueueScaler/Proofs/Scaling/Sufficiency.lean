import Mathlib.Order.Lattice.Nat
import Mathlib.Order.Bounds.Basic
import QueueScaler.Proofs.Scaling.Overload
/-!
# Sufficient replicas

Read over the rationals, a number of replicas is enough for a service if it covers the rate of every
queue of the service that is worth a quarter of a replica. The demand of a service is the least such
number, as far as a count goes, and telling it is never a fault.

## Main definitions

* `Wiring.Suffices`: whether a number of replicas is enough for a service.

## Main results

* `replicasFor_le_iff`, `Wiring.needs_le_iff`: the bounds of what rates call for.
* `Wiring.isLeast_suffices`: there is a least number that is enough.
* `Autoscaler.demand_tick`: a tick reports the demand of the rates that it reports.
* `Autoscaler.demand_least`: the demand is the least number that is enough.
-/

namespace QueueScaler

/-- A count bounds the replicas that a rate calls for if every count does, or if that many replicas
drain the rate, unless it is negligible. -/
theorem replicasFor_le_iff {capacity rate : ℚ} {m : ℕ} :
    replicasFor capacity rate ≤ m ↔
      Count.ceiling ≤ m ∨ (max capacity 1 / 4 ≤ rate → rate ≤ m * max capacity 1) := by
  have hpos : (0 : ℚ) < max capacity 1 := lt_max_of_lt_right one_pos
  rw [replicasFor_eq]
  split
  · rename_i hnegligible
    exact iff_of_true (Nat.zero_le m) (.inr fun h ↦ absurd hnegligible h.not_gt)
  · rename_i hrate
    rw [min_le_iff, or_comm, Int.toNat_le, Rat.ceil_le_iff, Int.cast_natCast, div_le_iff₀ hpos,
      imp_iff_right (not_lt.mp hrate)]

namespace Wiring

variable {w : Wiring ℚ} {s : String} {rates : Table ℚ} {m n : ℕ}

/-- Whether a number of replicas is enough for a service: they drain the rate of each of its queues,
leaving aside the rates below a quarter of what one replica drains. -/
def Suffices (w : Wiring ℚ) (service : String) (rates : Table ℚ) (replicas : ℕ) : Prop :=
  ∀ q b x, w.input? service q = some b → rates.get? q = some x →
    max b.consumptionRate 1 / 4 ≤ x → x ≤ replicas * max b.consumptionRate 1

/-- More replicas than enough are enough. -/
theorem Suffices.mono (h : w.Suffices s rates m) (hmn : m ≤ n) : w.Suffices s rates n := by
  intro q b x hb hx hrate
  have hpos : (0 : ℚ) ≤ max b.consumptionRate 1 := le_max_of_le_right zero_le_one
  calc
    x ≤ m * max b.consumptionRate 1 := h q b x hb hx hrate
    _ ≤ n * max b.consumptionRate 1 := by gcongr

/-- Some number of replicas is enough, however high the rates. -/
theorem exists_suffices (w : Wiring ℚ) (s : String) (rates : Table ℚ) :
    ∃ m, w.Suffices s rates m := by
  obtain ⟨bound, hbound⟩ := (List.finite_toSet rates.values).bddAbove
  obtain ⟨m, hm⟩ := exists_nat_ge bound
  refine ⟨m, fun q b x _ hx _ ↦ ?_⟩
  have hvalue : x ∈ rates.values :=
    List.mem_map.mpr ⟨(q, x), Table.mem_entries_iff.mpr hx, rfl⟩
  calc
    x ≤ m := (hbound hvalue).trans hm
    _ ≤ m * max b.consumptionRate 1 :=
      le_mul_of_one_le_right m.cast_nonneg (le_max_right ..)

/-- **There is a least number that is enough,** and just the numbers above it are. -/
theorem isLeast_suffices (w : Wiring ℚ) (s : String) (rates : Table ℚ) :
    ∃ m, IsLeast {m | w.Suffices s rates m} m ∧ ∀ n, m ≤ n ↔ w.Suffices s rates n := by
  have hleast : IsLeast {m | w.Suffices s rates m} (sInf {m | w.Suffices s rates m}) :=
    ⟨Nat.sInf_mem (w.exists_suffices s rates), fun _ h ↦ Nat.sInf_le h⟩
  exact ⟨_, hleast, fun n ↦ ⟨hleast.1.mono, fun h ↦ hleast.2 h⟩⟩

/-- A count bounds what the queues of a service call for if every count does, or if it is enough. -/
theorem needs_le_iff :
    (∀ need ∈ w.needs s rates, need ≤ m) ↔ Count.ceiling ≤ m ∨ w.Suffices s rates m := by
  constructor
  · intro h
    refine or_iff_not_imp_left.mpr fun hm q b x hb hx ↦ ?_
    exact (replicasFor_le_iff.mp (h _ (mem_needs hb hx))).resolve_left hm
  · intro h need hneed
    obtain ⟨q, x, b, hx, hb, rfl⟩ := mem_needs_iff.mp hneed
    exact replicasFor_le_iff.mpr (h.imp_right fun h ↦ h q b x hb hx)

/-- **The demand of a service is the least number that is enough,** as far as a count goes. -/
theorem exists_isLeast_demand {demand : Table ℕ} (h : w.demand rates = .ok demand)
    (hs : s ∈ demand) :
    ∃ m, IsLeast {m | w.Suffices s rates m} m ∧ demand.get? s = some (min Count.ceiling m) := by
  obtain ⟨need, hneed⟩ := Table.mem_iff_get?.mp hs
  have hmax : (w.needs s rates).max? = some need := (get?_demand h s).symm.trans hneed
  obtain ⟨m, hleast, hle⟩ := w.isLeast_suffices s rates
  refine ⟨m, hleast, hneed.trans (congrArg some (eq_of_forall_ge_iff fun n ↦ ?_))⟩
  calc
    need ≤ n ↔ ∀ k ∈ w.needs s rates, k ≤ n := List.max?_le_iff hmax
    _ ↔ Count.ceiling ≤ n ∨ w.Suffices s rates n := needs_le_iff
    _ ↔ min Count.ceiling m ≤ n := by rw [min_le_iff, hle]

end Wiring

namespace Autoscaler

variable {R : Type} [Rate R]

/-- **A tick reports the demand of the rates that it reports,** so it never ends before it has told
the demand. -/
theorem demand_tick (a : Autoscaler R) (m : Memory R) (e : Encounter) :
    a.pipeline.wiring.demand (a.tick m e).1.totalRates = .ok (a.tick m e).1.demand := by
  by_cases hon : a.strategy.scalingEnabled = true
  · obtain ⟨-, -, htotal⟩ := a.rates_tick hon m e
    obtain ⟨demand, hdemand, hget⟩ := a.pipeline.wiring.exists_demand (a.tick m e).1.totalRates
    rw [hdemand]
    refine congrArg Except.ok (Table.ext_get? fun s ↦ ?_)
    rw [hget, get?_demand_tick, if_pos hon, required?, htotal, (a.sample_tick m e).1]
  · obtain ⟨-, -, htotal⟩ := a.rates_tick_of_disabled hon m e
    have hnone : (a.tick m e).1.demand = ∅ := Table.ext_get? fun s ↦ by
      rw [get?_demand_tick, if_neg hon, Table.get?_empty]
    rw [htotal, hnone]
    rfl

/-- **The demand is the least number of replicas that is enough.** In a pipeline, and for any rates,
the demand can be told; it names the services one of whose queues has a rate, and gives each the
least number of replicas that is enough, as far as a count goes. In no arithmetic is telling it a
fault, so a tick always gets as far as the demand of its rates. -/
theorem demand_least :
    (∀ (p : Pipeline ℚ) (rates : Table ℚ), ∃ demand, p.wiring.demand rates = .ok demand ∧
      (∀ s, s ∈ demand ↔ ∃ q ∈ rates, (p.wiring.input? s q).isSome) ∧
      ∀ s ∈ demand, ∃ m, IsLeast {m | p.wiring.Suffices s rates m} m ∧
        demand.get? s = some (min (2 ^ 32 - 1) m)) ∧
    ∀ {R : Type} [Rate R] (a : Autoscaler R),
      (∀ rates fault, a.pipeline.wiring.demand rates ≠ .error fault) ∧
      ∀ m e, a.pipeline.wiring.demand (a.tick m e).1.totalRates = .ok (a.tick m e).1.demand := by
  refine ⟨fun p rates ↦ ?_, fun a ↦ ⟨fun rates fault hfault ↦ ?_, a.demand_tick⟩⟩
  · obtain ⟨demand, hdemand, -⟩ := p.wiring.exists_demand rates
    exact ⟨demand, hdemand, fun s ↦ Wiring.mem_demand hdemand,
      fun s hs ↦ Wiring.exists_isLeast_demand hdemand hs⟩
  · obtain ⟨demand, hdemand, -⟩ := a.pipeline.wiring.exists_demand rates
    cases hfault.symm.trans hdemand

/-- Rates for the relay: a burst for the reader, next to nothing for the writer, and a rate below
zero of a queue that nobody drains. -/
def burst : Table ℚ := .ofList [("in", 150), ("out", 7), ("elsewhere", -1)]

/-- The reader of the relay gets the least number of replicas that drain a burst. -/
theorem relay_demand_burst :
    ∃ demand, relay.pipeline.wiring.demand burst = .ok demand ∧ "reader" ∈ demand ∧
      ∃ m, IsLeast {m | relay.pipeline.wiring.Suffices "reader" burst m} m ∧
        demand.get? "reader" = some (min (2 ^ 32 - 1) m) := by
  obtain ⟨demand, hdemand, hmem, hleast⟩ := demand_least.1 relay.pipeline burst
  have hreader : "reader" ∈ demand := (hmem "reader").mpr ⟨"in", by cbv, by cbv⟩
  exact ⟨demand, hdemand, hreader, hleast "reader" hreader⟩

example :
    (relay.pipeline.wiring.demand (.ofList [("in", 150), ("out", 7), ("elsewhere", -1)])).toOption =
      some (.ofList [("reader", 3), ("writer", 0)]) := by
  cbv

end Autoscaler

end QueueScaler
