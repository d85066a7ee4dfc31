import QueueScaler.Decimal.Binary64
/-!
# The fewest decimal digits that read back

A binary64 number is written with as few significant decimal digits as still round to it, and of
those decimals with the one nearest to it. All comparisons are between whole numbers, so the choice
is exact.

## Main definitions

* `Decimal`: a whole number of digits times a power of ten.
* `Decimal.shortest`: the decimal with the fewest digits that rounds to a binary64 number.
* `Decimal.positional`: digits and point, without an exponent.
* `Decimal.ofFloat`: the text of a binary64 number.
-/

namespace QueueScaler

/-- The number `digits * 10 ^ exponent`. -/
structure Decimal where
  /-- The significant digits, as a whole number. -/
  digits : Nat
  /-- The power of ten of the last digit. -/
  exponent : Int
  deriving Repr, DecidableEq

namespace Decimal

/-- The number of decimal digits of a positive number; zero has none. -/
def length (n : Nat) : Nat := if n = 0 then 0 else (Nat.toDigits 10 n).length

/-- The power of ten of the first digit of `num / den`. -/
def leadingExponent (num den : Nat) : Int :=
  if den ≤ num then (length (num / den) : Int) - 1 else -(length ((den - 1) / num) : Int)

/-- A positive number between the ends of the interval that rounds to it, all three over one
denominator. -/
structure Rounding where
  /-- The lower end. -/
  low : Nat
  /-- The number. -/
  value : Nat
  /-- The upper end. -/
  high : Nat
  /-- The common denominator. -/
  den : Nat
  /-- Whether the ends belong to the interval. -/
  closed : Bool

/-- The rounding interval of a positive binary64 number: half a unit on either side, the ends
included when the significand is even. -/
def Rounding.ofParts (significand : Nat) (exponent : Int) : Rounding where
  low := (4 * significand - Binary64.lowerGap significand exponent) * Nat.pow 2 exponent.toNat
  value := 4 * significand * Nat.pow 2 exponent.toNat
  high := (4 * significand + 2) * Nat.pow 2 exponent.toNat
  den := 4 * Nat.pow 2 (-exponent).toNat
  closed := significand % 2 = 0

/-- Whether a decimal lies in a rounding interval. -/
def Rounding.admits (r : Rounding) (d : Decimal) : Bool :=
  let num := d.digits * Nat.pow 10 d.exponent.toNat * r.den
  let unit := Nat.pow 10 (-d.exponent).toNat
  if r.closed then r.low * unit ≤ num ∧ num ≤ r.high * unit
  else r.low * unit < num ∧ num < r.high * unit

/-- The decimal with its last digit at `10 ^ exponent` that rounds to the number and is nearest to
it. Only the two neighbours of the number on that grid can be; halfway between them the larger is
taken. -/
def Rounding.onGrid? (r : Rounding) (exponent : Int) : Option Decimal :=
  let num := r.value * Nat.pow 10 (-exponent).toNat
  let den := r.den * Nat.pow 10 exponent.toNat
  let below : Decimal := ⟨num / den, exponent⟩
  let above : Decimal := ⟨num / den + 1, exponent⟩
  match r.admits below, r.admits above with
  | true, true => if 2 * (num % den) < den then some below else some above
  | true, false => some below
  | false, true => some above
  | false, false => none

/-- The first grid with a decimal that rounds to the number, from the coarsest to the finest;
seventeen digits always suffice. -/
def Rounding.shortest (r : Rounding) (lead : Int) : Decimal :=
  ((List.range 17).findSome? fun (n : Nat) ↦ r.onGrid? (lead - n)).getD
    ⟨r.value * Nat.pow 10 (16 - lead).toNat / (r.den * Nat.pow 10 (lead - 16).toNat), lead - 16⟩

/-- The decimal with the fewest digits that rounds to `significand * 2 ^ exponent`. -/
def shortest (significand : Nat) (exponent : Int) : Decimal :=
  if significand = 0 then ⟨0, 0⟩
  else
    let r := Rounding.ofParts significand exponent
    r.shortest (leadingExponent r.value r.den)

/-- Drops the zeros at the end. -/
def trimZeros (cs : List Char) : List Char := (cs.reverse.dropWhile (· = '0')).reverse

/-- Digits and point, without an exponent: a whole number has no point, a fraction no zeros at its
end. -/
def positional (d : Decimal) : String :=
  if 0 ≤ d.exponent then toString (d.digits * Nat.pow 10 d.exponent.toNat)
  else
    let unit := Nat.pow 10 (-d.exponent).toNat
    let fraction := (toString (d.digits % unit)).toList
    let padded := List.replicate ((-d.exponent).toNat - fraction.length) '0' ++ fraction
    match trimZeros padded with
    | [] => toString (d.digits / unit)
    | kept => toString (d.digits / unit) ++ "." ++ String.ofList kept

/-- The text of a binary64 number: its shortest decimal, written positionally. -/
def ofFloat (x : Float) : String :=
  match Binary64.ofFloat x with
  | .nan => "NaN"
  | .infinite negative => if negative then "-inf" else "inf"
  | .finite negative significand exponent =>
    (if negative then "-" else "") ++ (shortest significand exponent).positional

end Decimal

end QueueScaler
