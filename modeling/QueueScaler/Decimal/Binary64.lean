/-!
# The value of a binary64 number

A finite binary64 number is a whole significand times a power of two. This module reads the parts
off the 64 bits, together with the interval of reals that round to the number.

## Main definitions

* `Binary64`: not a number, an infinity, or a signed significand and exponent.
* `Binary64.ofFloat`: the parts of a number.
* `Binary64.lowerGap`: the distance to the lower end of the rounding interval.
-/

namespace QueueScaler

/-- A binary64 number by its parts. -/
inductive Binary64 where
  /-- Not a number. -/
  | nan
  /-- An infinity. -/
  | infinite (negative : Bool)
  /-- The number `significand * 2 ^ exponent`, with its sign. -/
  | finite (negative : Bool) (significand : Nat) (exponent : Int)
  deriving Repr, DecidableEq

namespace Binary64

/-- The parts of the number with the given bits: one bit of sign, eleven of exponent, and 52 of
fraction, in front of which a normal number has a hidden one. -/
def ofBits (bits : Nat) : Binary64 :=
  let negative := bits / Nat.pow 2 63 % 2 = 1
  let scale : Nat := bits / Nat.pow 2 52 % 2048
  let fraction : Nat := bits % Nat.pow 2 52
  if scale = 2047 then
    if fraction = 0 then .infinite negative else .nan
  else if scale = 0 then .finite negative fraction (-1074)
  else .finite negative (Nat.pow 2 52 + fraction) ((scale : Int) - 1075)

/-- The parts of a number. -/
def ofFloat (x : Float) : Binary64 := ofBits x.toBits.toNat

/-- The distance from a number to the lower end of the interval that rounds to it, in quarters of
the unit of its significand. It is half a unit, but only a quarter where the number below has a
smaller unit, which is at the powers of two. -/
def lowerGap (significand : Nat) (exponent : Int) : Nat :=
  if significand = Nat.pow 2 52 ∧ -1074 < exponent then 1 else 2

end Binary64

end QueueScaler
