import QueueScaler.Decimal.Shortest
/-!
# The binary64 number nearest to a decimal

## Main definitions

* `Decimal.magnitude`: the power of ten just above a decimal.
* `Decimal.nearest`: the binary64 number that a decimal rounds to, ties to the even significand.
-/

namespace QueueScaler.Decimal

/-- The least power of ten above a positive decimal. -/
def magnitude (d : Decimal) : Int := length d.digits + d.exponent

/-- The binary64 number nearest to a decimal with a sign. Decimals of `10 ^ 310` and above are
beyond every finite number, and those below `10 ^ -330` round to zero, so no larger power of ten is
ever formed. -/
def nearest (negative : Bool) (d : Decimal) : Float :=
  let size :=
    if d.digits = 0 ∨ d.magnitude < -330 then Float.ofNat 0
    else if 310 < d.magnitude then Float.ofBits 0x7ff0000000000000
    else Float.ofScientific d.digits (d.exponent < 0) d.exponent.natAbs
  if negative then -size else size

end QueueScaler.Decimal
