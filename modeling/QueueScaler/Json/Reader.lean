import QueueScaler.Decimal.Nearest
import QueueScaler.Json.Basic
import QueueScaler.Text.Scanner
import QueueScaler.Text.Utf8
/-!
# Reading JSON

The text of a JSON value, given as bytes. The reader settles the structure of a document and leaves
its numbers and texts as they were written: a text that is never looked at need not be well-formed
UTF-8, and a number that is never looked at may have any size.

## Main definitions

* `Json.Number`, `Json.Piece`: numbers and texts as written.
* `Json.Source`: a value as read; `Json.parse?` reads one.
* `Json.Number.toNat?`, `Json.Number.toFloat`, `Json.decodeText?`: what they denote.
-/

namespace QueueScaler.Json

/-- A number as written: `mantissa * 10 ^ exponent` with a sign. -/
structure Number where
  /-- Whether a minus sign stands in front. -/
  negative : Bool
  /-- All digits, without the point. -/
  mantissa : Nat
  /-- The power of ten of the last digit. -/
  exponent : Int
  /-- Whether the number has neither a fraction nor an exponent. -/
  whole : Bool

/-- The natural number that is written; a sign, a fraction or an exponent is refused. -/
def Number.toNat? (n : Number) : Option Nat :=
  if n.whole ∧ ¬ n.negative then some n.mantissa else none

/-- The integer that is written; a fraction or an exponent is refused. -/
def Number.toInt? (n : Number) : Option Int :=
  if n.whole then some (if n.negative then -(n.mantissa : Int) else n.mantissa) else none

/-- The binary64 number nearest to what is written. -/
def Number.toFloat (n : Number) : Float := Decimal.nearest n.negative ⟨n.mantissa, n.exponent⟩

/-- A part of a text as written. -/
inductive Piece where
  /-- A byte that stands for itself. -/
  | byte (b : UInt8)
  /-- A code unit given by its number. -/
  | unit (code : Nat)

/-- A value as read, with numbers and texts as they were written. -/
abbrev Source := Json Number (List Piece)

/-! ### Texts -/

/-- The bytes of a code point in UTF-8. -/
def encodePoint (code : Nat) : List UInt8 := (String.singleton (Char.ofNat code)).toByteArray.toList

/-- The bytes of a text, its numbered code units resolved. A code unit of the surrogate range is
only good as part of a pair. -/
def resolve? : List Piece → Option (List UInt8)
  | [] => some []
  | .byte b :: rest => (resolve? rest).map (b :: ·)
  | .unit code :: rest =>
    if 0xd800 ≤ code ∧ code ≤ 0xdbff then
      match rest with
      | .unit low :: rest =>
        if 0xdc00 ≤ low ∧ low ≤ 0xdfff then
          (resolve? rest).map
            (encodePoint (0x10000 + (code - 0xd800) * 0x400 + (low - 0xdc00)) ++ ·)
        else none
      | _ => none
    else if 0xdc00 ≤ code ∧ code ≤ 0xdfff then none
    else (resolve? rest).map (encodePoint code ++ ·)

/-- The text that is written, if it is Unicode. -/
def decodeText? (pieces : List Piece) : Option String := (resolve? pieces).bind Text.decode?

/-- The byte that a letter after a backslash stands for. -/
def escaped? (b : UInt8) : Option UInt8 :=
  let c := Char.ofNat b.toNat
  if c = '"' ∨ c = '\\' ∨ c = '/' then some b
  else if c = 'b' then some 0x08
  else if c = 'f' then some 0x0c
  else if c = 'n' then some 0x0a
  else if c = 'r' then some 0x0d
  else if c = 't' then some 0x09
  else none

/-- The character of an ASCII byte; other bytes give characters that no rule of the grammar asks
for. -/
def ascii (b : UInt8) : Char := Char.ofNat b.toNat

/-- The rest of a text after its opening quote. -/
def scanText : Scanner UInt8 (List Piece)
  | [] => none
  | b :: rest =>
    if ascii b = '"' then some ([], rest)
    else if ascii b = '\\' then
      match rest with
      | [] => none
      | e :: rest =>
        if ascii e = 'u' then
          match rest with
          | h₁ :: h₂ :: h₃ :: h₄ :: rest =>
            let digits := [h₁, h₂, h₃, h₄].map ascii
            if digits.all Digits.isHex then
              (scanText rest).map fun (ps, r) ↦ (.unit (Digits.value 16 digits) :: ps, r)
            else none
          | _ => none
        else
          match escaped? e with
          | some b => (scanText rest).map fun (ps, r) ↦ (.byte b :: ps, r)
          | none => none
    else if b < 0x20 then none
    else (scanText rest).map fun (ps, r) ↦ (.byte b :: ps, r)

/-! ### Numbers -/

/-- The digits at the front, and the rest. -/
def scanDigits (input : List UInt8) : List Char × List UInt8 :=
  ((input.takeWhile fun b ↦ (ascii b).isDigit).map ascii,
    input.dropWhile fun b ↦ (ascii b).isDigit)

/-- The fraction at the front, with its point; no digits if there is none. -/
def scanFraction (input : List UInt8) : Option (List Char × List UInt8) :=
  match input with
  | b :: rest =>
    if ascii b = '.' then
      match scanDigits rest with
      | ([], _) => none
      | found => some found
    else some ([], input)
  | [] => some ([], [])

/-- The exponent at the front; `none` inside if there is none. -/
def scanExponent (input : List UInt8) : Option (Option Int × List UInt8) :=
  match input with
  | b :: rest =>
    if ascii b = 'e' ∨ ascii b = 'E' then
      let (negative, rest) :=
        match rest with
        | s :: after =>
          if ascii s = '-' then (true, after) else if ascii s = '+' then (false, after)
          else (false, rest)
        | [] => (false, rest)
      match scanDigits rest with
      | ([], _) => none
      | (ds, rest) =>
        let size : Int := Digits.value 10 ds
        some (some (if negative then -size else size), rest)
    else some (none, input)
  | [] => some (none, [])

/-- A number: no zeros in front, and at least one digit on each side of a point. -/
def scanNumber (input : List UInt8) : Option (Number × List UInt8) := do
  let (negative, input) :=
    match input with
    | b :: rest => if ascii b = '-' then (true, rest) else (false, input)
    | [] => (false, input)
  let (whole, rest) ← match scanDigits input with
    | ([], _) => none
    | ('0' :: _ :: _, _) => none
    | found => some found
  let (part, rest) ← scanFraction rest
  let (power, rest) ← scanExponent rest
  some (⟨negative, Digits.value 10 (whole ++ part), power.getD 0 - part.length,
    part.isEmpty ∧ power.isNone⟩, rest)

/-! ### Values -/

/-- Drops the blanks at the front. -/
def skipBlanks (input : List UInt8) : List UInt8 :=
  input.dropWhile fun b ↦ ascii b = ' ' ∨ ascii b = '\n' ∨ ascii b = '\t' ∨ ascii b = '\r'

/-- The rest after one character. -/
def after? (c : Char) (input : List UInt8) : Option (List UInt8) :=
  match input with
  | b :: rest => if ascii b = c then some rest else none
  | [] => none

/-- A comma, with blanks on either side. -/
def comma? (input : List UInt8) : Option (List UInt8) :=
  (after? ',' (skipBlanks input)).map skipBlanks

/-- A member of an object: a name, a colon and a value. -/
def scanMember (item : Scanner UInt8 Source) : Scanner UInt8 (List Piece × Source) := fun input ↦ do
  let (name, rest) ← scanText (← after? '"' input)
  let (v, rest) ← item (skipBlanks (← after? ':' (skipBlanks rest)))
  some ((name, v), rest)

/-- A value without blanks in front, with at most `bound` values inside one another. -/
def scanValue : Nat → Scanner UInt8 Source
  | 0 => fun _ ↦ none
  | bound + 1 => fun input ↦
    match input with
    | [] => none
    | b :: rest =>
      match ascii b with
      | 'n' => (Scanner.literal? "null".toUTF8.toList input).map fun rest ↦ (.null, rest)
      | 't' => (Scanner.literal? "true".toUTF8.toList input).map fun rest ↦ (.bool true, rest)
      | 'f' => (Scanner.literal? "false".toUTF8.toList input).map fun rest ↦ (.bool false, rest)
      | '"' => (scanText rest).map fun (ps, rest) ↦ (.text ps, rest)
      | '[' =>
        let (vs, rest) := Scanner.separated₀ (scanValue bound) comma? (skipBlanks rest)
        (after? ']' (skipBlanks rest)).map fun rest ↦ (.array vs, rest)
      | '\x7b' =>
        let (ms, rest) := Scanner.separated₀ (scanMember (scanValue bound)) comma? (skipBlanks rest)
        (after? '\x7d' (skipBlanks rest)).map fun rest ↦ (.object ms, rest)
      | _ => (scanNumber input).map fun (n, rest) ↦ (.number n, rest)

/-- The value of a document: one value, with nothing but blanks around it. -/
def parse? (input : List UInt8) : Option Source :=
  match scanValue (input.length + 1) (skipBlanks input) with
  | some (v, rest) => if (skipBlanks rest).isEmpty then some v else none
  | none => none

end QueueScaler.Json
