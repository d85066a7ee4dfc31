import Mathlib
import QueueScaler.Rate
/-!
# Sums, products and quotients of binary64 numbers that are not negative

The operations on binary64 numbers are computed on unpacked numbers and the result is stored again,
which rounds it and may overflow. What matters for message rates is which results are no number.
Among numbers that are not negative, a sum is none only if a term is, and a product of a finite
number with another is none only if the other is, or if zero meets infinity.

## Main definitions

* `Unpacked.stored`: what remains of a number when it is stored.
* `Unpacked.Signed`, `Unpacked.Bounded`, `Unpacked.Unsigned`: the sign and the size of a number.
* `Unpacked.decoded`: a stored binary64 number, unpacked.

## Main results

* `Unpacked.stored_mul`, `Unpacked.stored_add`, `Unpacked.stored_div_eq_notANumber`: the operations
  on numbers that are not negative.
* `Unpacked.decoded_ofNat`: a count of 64 bits is a finite number.
-/

namespace QueueScaler.Unpacked

open Float.Model (Format UnpackedFloat totalExponent)
open Float.Model.UnpackedFloat

variable {spec : Format} {s : Sign} {u v : UnpackedFloat}

/-! ### Storing a number -/

/-- What remains of a number when it is stored in a given format. -/
def stored (spec : Format) (u : UnpackedFloat) : UnpackedFloat :=
  UnpackedFloat.unpack spec (UnpackedFloat.pack spec u)

/-- Whether a number has a given sign. -/
def Signed (s : Sign) : UnpackedFloat → Prop
  | .notANumber => False
  | .zero t => t = s
  | .finite t .. => t = s
  | .infinity t => t = s

/-- Whether a number is finite, with a mantissa of at most so many bits and an exponent up to a
bound. -/
def Bounded (size : Nat) (bound : Int) : UnpackedFloat → Prop
  | .notANumber => False
  | .zero _ => True
  | .finite _ m e _ => m < 2 ^ size ∧ e ≤ bound
  | .infinity _ => False

theorem Bounded.mono {size : Nat} {bound bound' : Int} (h : Bounded size bound u)
    (hbound : bound ≤ bound') : Bounded size bound' u := by
  cases u with
  | finite t m e h' => exact ⟨h.1, h.2.trans hbound⟩
  | _ => exact h

@[simp] theorem stored_notANumber : stored spec .notANumber = .notANumber := unpack_packedNaN

@[simp] theorem stored_zero (s : Sign) : stored spec (.zero s) = .zero s := unpack_packedZero

@[simp] theorem stored_infinity (s : Sign) : stored spec (.infinity s) = .infinity s := by
  simp [stored, UnpackedFloat.pack, UnpackedFloat.unpack, packedInfinity]

/-- Only one exponent is kept for what is not finite. -/
theorem unpack_packComponents (s : Sign) {e : BitVec spec.exponentBits} (he : e ≠ -1#_)
    (m : BitVec spec.mantissaBitsWithoutImplicit) :
    Signed s (UnpackedFloat.unpack spec (packComponents spec s e m)) ∧
      Bounded spec.mantissaBits (max e.toNat 1 - (spec.exponentBias + spec.mantissaBitsWithoutImplicit))
        (UnpackedFloat.unpack spec (packComponents spec s e m)) := by
  simp only [UnpackedFloat.unpack, unpackExponent_packComponents, unpackMantissa_packComponents,
    unpackSign_packComponents, Sign.ofBitVec_toBitVec, if_neg he]
  split
  · rename_i hsubnormal
    split
    · exact ⟨rfl, True.intro⟩
    · refine ⟨rfl, m.isLt.trans ?_, ?_⟩
      · exact Nat.pow_lt_pow_right (by decide) (Nat.lt_add_of_pos_left Nat.one_pos)
      · rw [hsubnormal, BitVec.toNat_zero]
        omega
  · exact ⟨rfl, (1#1 ++ m).isLt, by omega⟩

/-- A biased exponent that is not too large is not the one kept for what is not finite. -/
theorem ofNat_ne_neg_one {n : Nat} (hn : n + 1 < 2 ^ spec.exponentBits) :
    BitVec.ofNat spec.exponentBits n ≠ -1#_ := fun heq ↦ by
  have hvalue := congrArg BitVec.toNat heq
  simp only [BitVec.toNat_ofNat, BitVec.neg_one_eq_allOnes, BitVec.toNat_allOnes] at hvalue
  rw [Nat.mod_eq_of_lt (by omega)] at hvalue
  omega

/-- Storing a finite number keeps its sign, whatever becomes of its size. -/
theorem signed_stored (hu : Signed s u) : Signed s (stored spec u) := by
  cases u with
  | notANumber => cases hu
  | zero t => rwa [stored_zero]
  | infinity t => rwa [stored_infinity]
  | finite t m e h =>
    obtain rfl : t = s := hu
    have hpow : 1 < 2 ^ spec.exponentBits := Nat.one_lt_two_pow spec.he.ne'
    simp only [stored, UnpackedFloat.pack]
    split
    · have hstored : UnpackedFloat.unpack spec (packedInfinity spec t) = .infinity t :=
        stored_infinity t
      rw [hstored]
      rfl
    · rename_i hfits
      split
      · exact (unpack_packComponents t (ofNat_ne_neg_one (Nat.lt_of_not_le hfits)) _).1
      · exact (unpack_packComponents t (ofNat_ne_neg_one (n := 0) (by omega)) _).1

/-- A number that is not too large stays finite when it is stored. -/
theorem bounded_stored {size : Nat} {bound : Int} (hu : Bounded size bound u) (hpos : 0 ≤ bound)
    (hfits : bound ≤ 971) : Bounded 53 bound (stored .binary64 u) := by
  cases u with
  | notANumber => cases hu
  | zero t => rwa [stored_zero]
  | infinity t => cases hu
  | finite t m e h =>
    obtain ⟨-, he⟩ := hu
    have hbias : Format.binary64.exponentBias = 1023 := rfl
    have hmantissa : Format.binary64.mantissaBitsWithoutImplicit = 52 := rfl
    have hfields : 2 ^ Format.binary64.exponentBits = 2048 := rfl
    have hfield (n : Nat) : (BitVec.ofNat Format.binary64.exponentBits n).toNat ≤ n :=
      (BitVec.toNat_ofNat ..).trans_le (Nat.mod_le ..)
    have hbiased := hfield (e + (1023 : Nat) + (52 : Nat)).toNat
    simp only [stored, UnpackedFloat.pack, hbias, hfields]
    rw [if_neg (by omega)]
    split
    · refine (unpack_packComponents t (ofNat_ne_neg_one (by omega)) _).2.mono ?_
      rw [hbias, hmantissa]
      omega
    · refine (unpack_packComponents t (ofNat_ne_neg_one (n := 0) (by decide)) _).2.mono ?_
      rw [hbias, hmantissa, BitVec.toNat_ofNat, Nat.zero_mod]
      omega

/-! ### Rounding -/

theorem mantissa_shiftRight_le (m : ExtendedMantissa) (n : Nat) :
    (m >>> n).mantissa ≤ m.mantissa := by
  show (n.repeat ExtendedMantissa.shiftRightOne m).mantissa ≤ _
  induction n with
  | zero => exact Nat.le_refl _
  | succ n ih => exact (Nat.div_le_self ..).trans ih

theorem roundedMantissa_le (m : ExtendedMantissa) : m.roundedMantissa ≤ m.mantissa + 1 := by
  rcases m with ⟨m, _ | _, _ | _⟩ <;>
    simp only [ExtendedMantissa.roundedMantissa, ExtendedMantissa.accuracy,
      Accuracy.roundToNearestEven] <;> omega

theorem mantissa_ofMantissaAndAccuracy (m : Nat) (accuracy : Accuracy) :
    (ExtendedMantissa.ofMantissaAndAccuracy m accuracy).mantissa = m := by
  rcases accuracy with _ | (_ | _ | _) <;> rfl

/-- Shifting a mantissa into place drops bits. -/
theorem mantissa_shiftToTargetExponent_le (spec : Format) (m : Nat) (e : Int) (accuracy : Accuracy) :
    (shiftToTargetExponent spec m e accuracy).1.mantissa ≤ m :=
  (mantissa_shiftRight_le ..).trans (mantissa_ofMantissaAndAccuracy ..).le

/-- Shifting a mantissa into place adds at most its bits to the exponent. -/
theorem exponent_shiftToTargetExponent_le {m size : Nat} {e bound : Int} (accuracy : Accuracy)
    (hm : m < 2 ^ size) (he : e ≤ bound) (hpos : 0 ≤ bound) :
    (shiftToTargetExponent .binary64 m e accuracy).2 ≤ bound + size := by
  have hlog : m.log2 ≤ size := by
    rcases Nat.eq_zero_or_pos m with rfl | hm0
    · simp
    · exact ((Nat.log2_lt hm0.ne').mpr hm).le
  have hmin : Format.binary64.minExponent = -1074 := by decide
  have hmantissa : Format.binary64.mantissaBits = 53 := rfl
  simp only [shiftToTargetExponent, shiftToExponent, Format.targetExponent, totalExponent, hmin,
    hmantissa]
  omega

/-- Rounding keeps the sign. -/
theorem signed_roundWithAccuracy (s : Sign) (m : Nat) (e : Int) (accuracy : Accuracy) :
    Signed s (roundWithAccuracy spec s m e accuracy) := by
  simp only [roundWithAccuracy]
  split <;> rfl

/-- Rounding gives a finite number, with an exponent that is not much larger. -/
theorem bounded_roundWithAccuracy {m size : Nat} {e bound : Int} (s : Sign) (accuracy : Accuracy)
    (hm : m < 2 ^ size) (he : e ≤ bound) (hpos : 0 ≤ bound) :
    ∃ size', Bounded size' (bound + size + (size + 1 : Nat))
      (roundWithAccuracy .binary64 s m e accuracy) := by
  have hrounded : (shiftToTargetExponent .binary64 m e accuracy).1.roundedMantissa <
      2 ^ (size + 1) := by
    have hshifted := mantissa_shiftToTargetExponent_le .binary64 m e accuracy
    have hup := roundedMantissa_le (shiftToTargetExponent .binary64 m e accuracy).1
    have hone := Nat.two_pow_pos size
    rw [Nat.pow_succ]
    omega
  have hfirst := exponent_shiftToTargetExponent_le accuracy hm he hpos
  have hsecond := exponent_shiftToTargetExponent_le .exact hrounded hfirst (by omega)
  simp only [roundWithAccuracy]
  split
  · exact ⟨0, True.intro⟩
  · exact ⟨_, Nat.lt_two_pow_self, hsecond⟩

theorem signed_normalize {m : Int} (hm : 0 < m) (e : Int) (zeroSign : Sign) :
    Signed .positive (normalize spec m e zeroSign) := by
  simp only [UnpackedFloat.normalize, compare_gt_iff_gt.mpr hm, UnpackedFloat.round]
  exact signed_roundWithAccuracy ..

/-! ### Numbers that are not negative -/

/-- Whether a number is zero or positive, or no number at all. -/
def Unsigned : UnpackedFloat → Prop
  | .notANumber => True
  | .zero _ => True
  | .finite s .. => s = .positive
  | .infinity s => s = .positive

theorem Signed.unsigned (h : Signed .positive u) : Unsigned u := by
  cases u with
  | notANumber => cases h
  | zero t => exact True.intro
  | finite t m e _ => exact h
  | infinity t => exact h

theorem Bounded.isFinite {size : Nat} {bound : Int} (h : Bounded size bound u) :
    u.isFinite = true := by
  cases u with
  | notANumber => cases h
  | infinity t => cases h
  | _ => rfl

theorem Signed.ne_notANumber (h : Signed s u) : u ≠ .notANumber := by
  rintro rfl
  exact h

/-- A product with a finite factor, neither being negative, is not negative. It is no number if the
other factor is none, or if it is infinite and the finite one is zero. -/
theorem stored_mul (spec : Format) (hu : Unsigned u) (hfinite : u.isFinite = true) (hv : Unsigned v) :
    Unsigned (stored spec (u.mul spec v)) ∧
      (stored spec (u.mul spec v) = .notANumber ↔
        v = .notANumber ∨ v = .infinity .positive ∧ ∃ t, u = .zero t) := by
  rcases u with s | _ | s | ⟨s, m, e, h⟩
  · cases hfinite
  · cases hfinite
  · rcases v with t | _ | t | ⟨t, m', e', h'⟩
    · obtain rfl : t = .positive := hv
      simp [UnpackedFloat.mul, Unsigned]
    all_goals simp [UnpackedFloat.mul, Unsigned]
  · obtain rfl : s = .positive := hu
    rcases v with t | _ | t | ⟨t, m', e', h'⟩
    · obtain rfl : t = .positive := hv
      simp [UnpackedFloat.mul, Unsigned, show (.positive * .positive : Sign) = .positive from rfl]
    · simp [UnpackedFloat.mul, Unsigned]
    · simp [UnpackedFloat.mul, Unsigned]
    · obtain rfl : t = .positive := hv
      have hsigned : Signed .positive (stored spec
          (roundWithAccuracy spec .positive (m * m') (e + e') .exact)) :=
        signed_stored (signed_roundWithAccuracy ..)
      exact ⟨hsigned.unsigned, iff_of_false hsigned.ne_notANumber (by simp)⟩

/-- A sum of numbers that are not negative is not negative. It is no number only if a term is
none. -/
theorem stored_add (spec : Format) (hu : Unsigned u) (hv : Unsigned v) :
    Unsigned (stored spec (u.add spec v)) ∧
      (stored spec (u.add spec v) = .notANumber ↔ u = .notANumber ∨ v = .notANumber) := by
  have hkept {m : Nat} {e : Int} {h : 0 < m} :
      Signed .positive (stored spec (.finite .positive m e h)) := signed_stored rfl
  rcases u with s | _ | s | ⟨s, m, e, h⟩
  · obtain rfl : s = .positive := hu
    rcases v with t | _ | t | ⟨t, m', e', h'⟩
    · obtain rfl : t = .positive := hv
      simp [UnpackedFloat.add, Unsigned]
    all_goals simp [UnpackedFloat.add, Unsigned]
  · simp [UnpackedFloat.add, Unsigned]
  · rcases v with t | _ | t | ⟨t, m', e', h'⟩
    · obtain rfl : t = .positive := hv
      simp [UnpackedFloat.add, Unsigned]
    · simp [UnpackedFloat.add, Unsigned]
    · simp only [UnpackedFloat.add]
      split <;> simp [Unsigned]
    · obtain rfl : t = .positive := hv
      exact ⟨hkept.unsigned, iff_of_false hkept.ne_notANumber (by simp)⟩
  · obtain rfl : s = .positive := hu
    rcases v with t | _ | t | ⟨t, m', e', h'⟩
    · obtain rfl : t = .positive := hv
      simp [UnpackedFloat.add, Unsigned]
    · simp [UnpackedFloat.add, Unsigned]
    · exact ⟨hkept.unsigned, iff_of_false hkept.ne_notANumber (by simp)⟩
    · obtain rfl : t = .positive := hv
      have hsigned : Signed .positive (stored spec
          (UnpackedFloat.add spec (.finite .positive m e h) (.finite .positive m' e' h'))) := by
        refine signed_stored (signed_normalize ?_ _ _)
        simp only [Sign.apply, Nat.shiftLeft_eq]
        positivity
      exact ⟨hsigned.unsigned, iff_of_false hsigned.ne_notANumber (by simp)⟩

/-- A quotient by a positive finite number is no number only if the dividend is none. -/
theorem stored_div_eq_notANumber {m : Nat} {e : Int} {h : 0 < m} (hu : Unsigned u) :
    stored spec (u.div spec (.finite .positive m e h)) = .notANumber ↔ u = .notANumber := by
  rcases u with s | _ | s | ⟨s, m', e', h'⟩
  · simp [UnpackedFloat.div]
  · simp [UnpackedFloat.div]
  · simp [UnpackedFloat.div]
  · exact iff_of_false (signed_stored (signed_roundWithAccuracy ..)).ne_notANumber (by simp)

/-- However it is shared, infinity stays infinite. -/
theorem stored_infinity_div {m : Nat} {e : Int} {h : 0 < m} :
    stored spec (UnpackedFloat.div spec (.infinity .positive) (.finite .positive m e h)) =
      .infinity .positive := stored_infinity _

/-! ### Binary64 arithmetic -/

/-- A binary64 number, decoded. -/
def decoded (x : Float) : UnpackedFloat := x.toModel.unpack

variable {x y : Float}

theorem decoded_add : decoded (x + y) = stored .binary64 ((decoded x).add .binary64 (decoded y)) :=
  rfl

theorem decoded_mul : decoded (x * y) = stored .binary64 ((decoded x).mul .binary64 (decoded y)) :=
  rfl

theorem decoded_div : decoded (x / y) = stored .binary64 ((decoded x).div .binary64 (decoded y)) :=
  rfl

theorem isNaN_iff_decoded : Rate.isNaN x = true ↔ decoded x = .notANumber :=
  Float.Model.UnpackedFloat.isNaN_iff

theorem isFinite_eq_decoded : Rate.isFinite x = (decoded x).isFinite := rfl

theorem decoded_zero : decoded (0 : Float) = .zero .positive := rfl

/-- What is not below zero is zero, positive or no number at all. -/
theorem not_lt_zero_iff : ¬ x < (0 : Float) ↔ Unsigned (decoded x) := by
  have hlt : x < (0 : Float) ↔ UnpackedFloat.lt (decoded x) (.zero .positive) = true := by
    exact decide_eq_true_iff
  rw [hlt]
  rcases decoded x with (_ | _) | _ | _ | ⟨_ | _, m, e, h⟩ <;>
    simp [UnpackedFloat.lt, UnpackedFloat.compare, Unsigned]

theorem zero_lt_iff : (0 : Float) < x ↔ UnpackedFloat.lt (.zero .positive) (decoded x) = true := by
  exact decide_eq_true_iff

theorem not_zero_lt_iff (hx : ¬ x < (0 : Float)) (hfinite : Rate.isFinite x = true) :
    ¬ (0 : Float) < x ↔ ∃ t, decoded x = .zero t := by
  rw [not_lt_zero_iff] at hx
  rw [isFinite_eq_decoded] at hfinite
  rw [zero_lt_iff]
  revert hx hfinite
  rcases decoded x with (_ | _) | _ | _ | ⟨_ | _, m, e, h⟩ <;>
    simp [UnpackedFloat.lt, UnpackedFloat.compare, Unsigned, UnpackedFloat.isFinite]

/-- A positive finite number has a positive mantissa. -/
theorem exists_decoded_of_pos (hx : (0 : Float) < x) (hfinite : Rate.isFinite x = true) :
    ∃ m e h, decoded x = .finite .positive m e h := by
  rw [zero_lt_iff] at hx
  rw [isFinite_eq_decoded] at hfinite
  revert hx hfinite
  rcases decoded x with (_ | _) | _ | _ | ⟨_ | _, m, e, h⟩ <;>
    simp [UnpackedFloat.lt, UnpackedFloat.compare, UnpackedFloat.isFinite, *]

theorem not_isFinite_iff (hx : ¬ x < (0 : Float)) :
    Rate.isFinite x = false ↔ decoded x = .notANumber ∨ decoded x = .infinity .positive := by
  rw [not_lt_zero_iff] at hx
  rw [isFinite_eq_decoded]
  revert hx
  rcases decoded x with (_ | _) | _ | _ | ⟨_ | _, m, e, h⟩ <;>
    simp [Unsigned, UnpackedFloat.isFinite]

theorem decoded_injective (h : decoded x = decoded y) : x = y := by
  have hbits := (unpack_inj_of_valid x.toModel.valid y.toModel.valid).mp h
  exact Float.toBits_inj.mp (UInt64.toBitVec_inj.mp hbits)

/-! ### Counts -/

theorem decoded_ofNat_of_lt {n : Nat} (hn : n < 2 ^ 53) :
    decoded (Float.ofNat n) = stored .binary64
      ((stored .binary64 (UnpackedFloat.ofNat .binary64 n)).mul .binary64
        (.finite .positive (2 ^ 52) (-52) (by decide))) := by
  have hword : n.toUInt64.toNat = n := Nat.mod_eq_of_lt (by omega)
  have hone : decoded 1.0 = .finite .positive (2 ^ 52) (-52) (by decide) := rfl
  have hcount : decoded n.toUInt64.toFloat =
      stored .binary64 (UnpackedFloat.ofNat .binary64 n.toUInt64.toNat) := rfl
  have hproduct : Float.ofNat n = n.toUInt64.toFloat * 1.0 := dif_pos ⟨hn, by decide⟩
  rw [hproduct, decoded_mul, hone, hcount, hword]

theorem decoded_ofNat_of_le {n : Nat} (hn : 2 ^ 53 ≤ n) :
    decoded (Float.ofNat n) = stored .binary64 (UnpackedFloat.ofScientific .binary64 n 0) := by
  have hlarge : Float.ofNat n = ⟨Float.Model.ofScientific n 0⟩ := dif_neg (by omega)
  rw [hlarge]
  rfl

/-- A count of 53 bits is a finite number before it is stored. -/
theorem bounded_ofNat {n : Nat} (hn : n < 2 ^ 53) :
    ∃ size, Bounded size 211 (UnpackedFloat.ofNat .binary64 n) := by
  rcases Nat.eq_zero_or_pos n with rfl | hpos
  · exact ⟨0, True.intro⟩
  · have hmin : Format.binary64.minExponent = -1074 := by decide
    have hmantissa : Format.binary64.mantissaBits = 53 := rfl
    have hlog : n.log2 < 53 := (Nat.log2_lt hpos.ne').mpr hn
    have hpositive : (0 : Int) < n := Int.natCast_pos.mpr hpos
    simp only [UnpackedFloat.ofNat, ofInt, UnpackedFloat.normalize,
      compare_gt_iff_gt.mpr hpositive, UnpackedFloat.round, decreaseExponent,
      Format.targetExponent, totalExponent, hmin, hmantissa, Int.toNat_natCast]
    generalize hshift : (0 - max ((n.log2 : Int) + 1 + 0 - (53 : Nat)) (-1074)).toNat = shift
    have hsmall : n <<< shift < 2 ^ 105 := by
      rw [Nat.shiftLeft_eq]
      calc n * 2 ^ shift < 2 ^ 53 * 2 ^ shift := by gcongr
        _ ≤ 2 ^ 53 * 2 ^ 52 := by gcongr <;> omega
        _ = 2 ^ 105 := by norm_num
    exact bounded_roundWithAccuracy .positive .exact hsmall (show _ ≤ (0 : Int) by omega) le_rfl

theorem unsigned_ofNat (n : Nat) : Unsigned (stored spec (UnpackedFloat.ofNat spec n)) := by
  rcases Nat.eq_zero_or_pos n with rfl | hpos
  · show Unsigned (stored spec (.zero .positive))
    rw [stored_zero]
    exact True.intro
  · exact (signed_stored (signed_normalize (Int.natCast_pos.mpr hpos) 0 .positive)).unsigned

theorem ofScientific_of_pos {n : Nat} (hn : 0 < n) :
    UnpackedFloat.ofScientific .binary64 n 0 =
      roundWithAccuracy .binary64 .positive (n <<< 53) (-53) .exact := by
  have hlarge : ¬ (0 : Int) > 2 ^ Format.binary64.exponentBits := by decide
  have hsmall : ¬ (0 : Int) < -(2 ^ Format.binary64.exponentBits + n.log2) := by
    have hpow : (0 : Int) < 2 ^ Format.binary64.exponentBits := by decide
    omega
  rw [UnpackedFloat.ofScientific, dif_neg hn.ne', if_neg hlarge, if_neg hsmall, if_pos le_rfl]
  show roundWithAccuracy .binary64 .positive ((n <<< 53) * 1) (-53 + 0) .exact = _
  rw [Nat.mul_one, Int.add_zero]

/-- **A count of 64 bits is a finite number,** and not below zero. -/
theorem decoded_ofNat {n : Nat} (hn : n < 2 ^ 64) :
    Unsigned (decoded (Float.ofNat n)) ∧ (decoded (Float.ofNat n)).isFinite = true := by
  by_cases hsmall : n < 2 ^ 53
  · obtain ⟨_, hbounded⟩ := bounded_ofNat hsmall
    have hstored := bounded_stored hbounded (by omega) (by omega)
    have hone : Unsigned (.finite .positive (2 ^ 52) (-52) (by decide)) := rfl
    rw [decoded_ofNat_of_lt hsmall]
    refine ⟨(stored_mul .binary64 (unsigned_ofNat n) hstored.isFinite hone).1, ?_⟩
    revert hstored
    rcases stored .binary64 (UnpackedFloat.ofNat .binary64 n) with t | _ | t | ⟨t, m, e, h⟩
    · exact False.elim
    · exact False.elim
    · intro _
      rw [UnpackedFloat.mul, stored_zero]
      rfl
    · rintro ⟨hm, he⟩
      have hproduct : m * 2 ^ 52 < 2 ^ 105 := by omega
      obtain ⟨_, hrounded⟩ := bounded_roundWithAccuracy (t * .positive) .exact
        hproduct (show e + -52 ≤ 211 by omega) (by omega)
      exact (bounded_stored hrounded (by omega) (by omega)).isFinite
  · have hsize : n <<< 53 < 2 ^ 117 := by
      rw [Nat.shiftLeft_eq]
      omega
    rw [decoded_ofNat_of_le (Nat.le_of_not_lt hsmall), ofScientific_of_pos (by omega)]
    generalize n <<< 53 = m at hsize ⊢
    obtain ⟨_, hrounded⟩ := bounded_roundWithAccuracy .positive .exact hsize
      (show (-53 : Int) ≤ 0 by omega) le_rfl
    refine ⟨(signed_stored (signed_roundWithAccuracy ..)).unsigned, ?_⟩
    have hbounded := hrounded.mono (show _ ≤ (235 : Int) by omega)
    exact (bounded_stored hbounded (by omega) (by omega)).isFinite

end QueueScaler.Unpacked
