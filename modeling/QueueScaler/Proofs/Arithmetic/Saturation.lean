import QueueScaler.Proofs.Arithmetic.Unpacked
import QueueScaler.Proofs.Pipeline.Overload
/-!
# Replica counts in binary64 arithmetic

Binary64 arithmetic saturates: a rate that is too large becomes infinite, and only zero times
infinity makes no number out of rates. What one replica drains is positive and finite, so sharing a
rate among replicas makes no difference to whether it is a number. An infinite rate calls for the
largest replica count, and one that is no number for none at all.

## Main results

* `Rate.saturating_binary64`: binary64 arithmetic saturates.
* `isNaN_share_iff`: when a share is no number.
* `replicasFor_of_unbounded`, `replicasFor_of_isNaN`: what rates that are not finite call for.
-/

namespace QueueScaler

open Unpacked

/-! ### Rates in binary64 arithmetic -/

namespace Rate

variable {y : Float} {n : Nat}

/-- **Binary64 arithmetic saturates.** -/
instance saturating_binary64 : Rate.Saturating Float where
  zero_not_neg := not_lt_zero_iff.mpr (decoded_zero ▸ True.intro)
  isNaN_zero := by decide +kernel
  add {x y} hx hy := by
    have hsum := stored_add .binary64 (not_lt_zero_iff.mp hx) (not_lt_zero_iff.mp hy)
    refine ⟨not_lt_zero_iff.mpr hsum.1, ?_⟩
    rw [isNaN_iff_decoded, isNaN_iff_decoded, isNaN_iff_decoded]
    exact decoded_add ▸ hsum.2
  mul {r x} hr hx := by
    obtain ⟨hfinite, hr⟩ := hr
    have hproduct := stored_mul .binary64 (not_lt_zero_iff.mp hr) hfinite
      (not_lt_zero_iff.mp hx)
    have hzero := not_zero_lt_iff hr hfinite
    have hinfinite := not_isFinite_iff hx
    refine ⟨not_lt_zero_iff.mpr hproduct.1, ?_⟩
    rw [isNaN_iff_decoded, isNaN_iff_decoded, hinfinite]
    refine Iff.trans hproduct.2 ⟨?_, ?_⟩
    · rintro (hnone | ⟨hunbounded, hr0⟩)
      · exact .inl hnone
      · exact .inr ⟨hzero.mpr hr0, .inr hunbounded⟩
    · rintro (hnone | ⟨hr0, hnone | hunbounded⟩)
      · exact .inl hnone
      · exact .inl hnone
      · exact .inr ⟨hunbounded, hzero.mp hr0⟩

/-- A share of a sampled depth is a number and not negative. -/
theorem ofCount_mul (hn : n < 2 ^ 64) (hy : ¬ y < (0 : Float)) (hfinite : Rate.isFinite y = true) :
    ¬ Rate.ofCount n * y < (0 : Float) ∧ Rate.isNaN (Rate.ofCount n * y) = false := by
  obtain ⟨hcount, hcountFinite⟩ := decoded_ofNat hn
  obtain ⟨hpos, hNaN⟩ := stored_mul .binary64 hcount hcountFinite (not_lt_zero_iff.mp hy)
  refine ⟨not_lt_zero_iff.mpr hpos, ?_⟩
  rw [← Bool.not_eq_true, isNaN_iff_decoded]
  refine mt hNaN.mp ?_
  rw [isFinite_eq_decoded] at hfinite
  rintro (h | ⟨h, -⟩) <;> rw [h] at hfinite <;> cases hfinite

end Rate

/-! ### Shares of a replica -/

section Shares

variable {x capacity : Float}

/-- What one replica is taken to drain is a positive finite number. -/
theorem exists_decoded_effectiveCapacity (hfinite : Rate.isFinite capacity = true)
    (hpos : (0 : Float) < capacity) :
    ∃ m e h, decoded (effectiveCapacity capacity) = .finite .positive m e h := by
  rw [effectiveCapacity]
  split
  · exact ⟨2 ^ 52, -52, by decide, rfl⟩
  · exact exists_decoded_of_pos hpos hfinite

/-- A share of a replica is no number exactly if the rate is none. -/
theorem isNaN_share_iff (hfinite : Rate.isFinite capacity = true) (hpos : (0 : Float) < capacity)
    (hx : ¬ x < (0 : Float)) :
    Rate.isNaN (x / effectiveCapacity capacity) = true ↔ Rate.isNaN x = true := by
  obtain ⟨m, e, h, hcapacity⟩ := exists_decoded_effectiveCapacity hfinite hpos
  rw [isNaN_iff_decoded, isNaN_iff_decoded, decoded_div, hcapacity]
  exact stored_div_eq_notANumber (not_lt_zero_iff.mp hx)

/-- A rate that is no number calls for nothing. -/
theorem replicasFor_of_isNaN (hfinite : Rate.isFinite capacity = true)
    (hpos : (0 : Float) < capacity) (hx : ¬ x < (0 : Float)) (hnone : Rate.isNaN x = true) :
    replicasFor capacity x = 0 :=
  if_pos (.inl ((isNaN_share_iff hfinite hpos hx).mpr hnone))

/-- No rate calls for more than the largest replica count. -/
theorem replicasFor_le_ceiling (capacity x : Float) : replicasFor capacity x ≤ Count.ceiling := by
  rw [replicasFor]
  split
  · exact Nat.zero_le _
  · show Rate.binary64Ceil _ ≤ _
    rw [Rate.binary64Ceil]
    split
    · exact min_le_right _ _
    · exact Nat.le_of_lt_succ (UInt32.toNat_lt _)

/-- **An unbounded rate calls for the largest replica count.** -/
theorem replicasFor_of_unbounded (hfinite : Rate.isFinite capacity = true)
    (hpos : (0 : Float) < capacity) (hx : ¬ x < (0 : Float)) (hnum : Rate.isNaN x = false)
    (hunbounded : Rate.isFinite x = false) : replicasFor capacity x = Count.ceiling := by
  obtain ⟨m, e, h, hcapacity⟩ := exists_decoded_effectiveCapacity hfinite hpos
  have hdecoded : decoded x = .infinity .positive :=
    ((not_isFinite_iff hx).mp hunbounded).resolve_left fun hnone ↦
      Bool.false_ne_true (hnum.symm.trans (isNaN_iff_decoded.mpr hnone))
  have hshare : x / effectiveCapacity capacity = Float.ofBits 0x7FF0000000000000 := by
    refine decoded_injective ?_
    rw [decoded_div, hdecoded, hcapacity, stored_infinity_div]
    rfl
  have hdemanded : ¬ (Rate.isNaN (Float.ofBits 0x7FF0000000000000) = true ∨
      Float.ofBits 0x7FF0000000000000 < Rate.quarter) := by decide +kernel
  rw [replicasFor, hshare, if_neg hdemanded]
  decide +kernel

end Shares

end QueueScaler
