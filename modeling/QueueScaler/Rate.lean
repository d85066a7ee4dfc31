/-!
# The arithmetic of message rates

Every plan of the scaler is computed from message rates: sums and products along production edges,
a quotient by a consumption rate, and a rounding up to whole replicas. The computation is written
once, over any type with these operations, so that it can run in binary64 arithmetic and be studied
in exact arithmetic. No law is assumed of the operations.

## Main definitions

* `Rate`: the operations on rates that a plan uses.
* `Count.ceiling`: the largest replica count.
* `Rate.binary64`: binary64 arithmetic, in which plans run.
* `Rate.exact`: rational arithmetic.
-/

namespace QueueScaler

/-- The largest replica count: a count fits in 32 bits. -/
def Count.ceiling : Nat := 4294967295

/-- The operations on message rates that a plan uses. -/
class Rate (R : Type) extends Add R, Mul R, Div R, LT R where
  /-- No messages. -/
  zero : R
  /-- One message per minute. -/
  one : R
  /-- Comparison is decidable. -/
  decidableLT : DecidableLT R
  /-- A quarter, the smallest share of a replica that counts as demand. -/
  quarter : R
  /-- Whether a value is no number at all. -/
  isNaN : R → Bool
  /-- Whether a value is an ordinary finite number. -/
  isFinite : R → Bool
  /-- A number of messages as a rate. -/
  ofCount : Nat → R
  /-- The least whole number not below a rate, between zero and `Count.ceiling`. -/
  ceilCount : R → Nat

attribute [reducible, instance] Rate.decidableLT

-- Of low priority: a number type that has a zero and a one of its own keeps them.
instance (priority := low) {R : Type} [Rate R] : Zero R := ⟨Rate.zero⟩

instance (priority := low) {R : Type} [Rate R] : One R := ⟨Rate.one⟩

namespace Rate

/-- The ceiling of a binary64 number: truncation to 32 bits stops at both ends of the range, and
every value it returns is a binary64 number again. -/
def binary64Ceil (x : Float) : Nat :=
  let whole := x.toUInt32
  if whole.toFloat < x then min (whole.toNat + 1) Count.ceiling else whole.toNat

/-- Rates in binary64 arithmetic. -/
instance binary64 : Rate Float where
  zero := Float.ofNat 0
  one := Float.ofNat 1
  add := Float.add
  mul := Float.mul
  div := Float.div
  lt := fun x y ↦ Float.lt x y = true
  decidableLT := fun x y ↦ inferInstanceAs (Decidable (Float.lt x y = true))
  quarter := Float.ofScientific 25 true 2
  isNaN := Float.isNaN
  isFinite := Float.isFinite
  ofCount := Float.ofNat
  ceilCount := binary64Ceil

/-- Rates as exact rational numbers. -/
instance exact : Rate Rat where
  zero := ⟨0, 1, by decide, by decide⟩
  one := ⟨1, 1, by decide, by decide⟩
  add := Rat.add
  mul := Rat.mul
  div := Rat.div
  lt := fun x y ↦ Rat.blt x y = true
  decidableLT := fun x y ↦ inferInstanceAs (Decidable (Rat.blt x y = true))
  quarter := ⟨1, 4, by decide, by decide⟩
  isNaN := fun _ ↦ false
  isFinite := fun _ ↦ true
  ofCount := fun n ↦ ⟨n, 1, by decide, by simp [Int.natAbs_natCast]⟩
  ceilCount := fun x ↦ min x.ceil.toNat Count.ceiling

end Rate

end QueueScaler
