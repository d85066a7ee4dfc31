import QueueScaler.Decimal.Nearest
import QueueScaler.Toml.Line
import QueueScaler.Toml.Value
/-!
# Numbers of TOML

Whole numbers of 64 bits in four bases, and binary64 numbers. An underscore may stand between two
digits. A whole number has no zeros in front, and only a decimal one has a sign.

## Main definitions

* `Toml.digits?`: digits with underscores between them.
* `Toml.float?`, `Toml.integer?`: the two kinds of numbers.
-/

namespace QueueScaler.Toml

/-- The digits at the front that go on after another digit, underscores dropped. An underscore
without a digit after it is refused. -/
def moreDigits? (isDigit : Char → Bool) : Scanner Char (List Char)
  | [] => some ([], [])
  | c :: rest =>
    if isDigit c then (moreDigits? isDigit rest).map fun (ds, r) ↦ (c :: ds, r)
    else if c = '_' then
      match rest with
      | d :: rest =>
        if isDigit d then (moreDigits? isDigit rest).map fun (ds, r) ↦ (d :: ds, r) else none
      | [] => none
    else some ([], c :: rest)

/-- One or more digits, underscores dropped. -/
def digits? (isDigit : Char → Bool) : Scanner Char (List Char)
  | c :: rest =>
    if isDigit c then (moreDigits? isDigit rest).map fun (ds, r) ↦ (c :: ds, r) else none
  | [] => none

/-- An optional sign, and whether it is a minus. -/
def sign : List Char → Option Bool × List Char
  | '+' :: rest => (some false, rest)
  | '-' :: rest => (some true, rest)
  | cs => (none, cs)

/-- The digits of a decimal whole number: a zero stands alone. -/
def decimalDigits? : Scanner Char (List Char)
  | '0' :: rest => some (['0'], rest)
  | cs => digits? Char.isDigit cs

/-- The exponent at the front, if there is one. -/
def exponent? : List Char → Option (Int × List Char)
  | c :: rest =>
    if c = 'e' ∨ c = 'E' then
      let (minus, rest) := sign rest
      (digits? Char.isDigit rest).map fun (ds, r) ↦
        let size : Int := Digits.value 10 ds
        (if minus = some true then -size else size, r)
    else none
  | [] => none

/-- Whether an exponent begins here. -/
def startsExponent (cs : List Char) : Bool := cs.head?.any fun c ↦ c = 'e' || c = 'E'

/-- Infinity or not a number, by name. -/
def namedFloat? (cs : List Char) : Option (Float × List Char) :=
  let (minus, rest) := sign cs
  match rest with
  | 'i' :: 'n' :: 'f' :: rest =>
    some (Float.ofBits (if minus = some true then 0xfff0000000000000 else 0x7ff0000000000000), rest)
  | 'n' :: 'a' :: 'n' :: rest => some (Float.ofBits 0x7ff8000000000000, rest)
  | _ => none

/-- A number with a fraction, an exponent or both. One that rounds to positive infinity is
refused. -/
def fractional? (cs : List Char) : Option (Float × List Char) := do
  let (minus, rest) := sign cs
  let (whole, rest) ← decimalDigits? rest
  let (fraction, rest) ← match rest with
    | '.' :: rest => digits? Char.isDigit rest
    | rest => if startsExponent rest then some ([], rest) else none
  let (power, rest) ← if startsExponent rest then exponent? rest else some (0, rest)
  let x := Decimal.nearest (minus = some true)
    ⟨Digits.value 10 (whole ++ fraction), power - fraction.length⟩
  if x.toBits = 0x7ff0000000000000 then none else some (x, rest)

/-- A binary64 number. -/
def float? (cs : List Char) : Option (Float × List Char) :=
  match fractional? cs with
  | some found => some found
  | none => namedFloat? cs

/-- The whole numbers of 64 bits. -/
def inRange (n : Int) : Bool := -9223372036854775808 ≤ n ∧ n ≤ 9223372036854775807

/-- A whole number. -/
def integer? (cs : List Char) : Option (Int × List Char) := do
  let (n, rest) ← match cs with
    | '0' :: 'x' :: rest =>
      (digits? Digits.isHex rest).map fun (ds, r) ↦ ((Digits.value 16 ds : Int), r)
    | '0' :: 'o' :: rest =>
      (digits? (fun c ↦ '0' ≤ c ∧ c ≤ '7') rest).map fun (ds, r) ↦ ((Digits.value 8 ds : Int), r)
    | '0' :: 'b' :: rest =>
      (digits? (fun c ↦ c = '0' || c = '1') rest).map fun (ds, r) ↦
        ((Digits.value 2 ds : Int), r)
    | cs =>
      let (minus, rest) := sign cs
      (decimalDigits? rest).map fun (ds, r) ↦
        let size : Int := Digits.value 10 ds
        (if minus = some true then -size else size, r)
  if inRange n then some (n, rest) else none

end QueueScaler.Toml
