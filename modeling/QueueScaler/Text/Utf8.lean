/-!
# Reading UTF-8

Bytes as text. A strict reader refuses what is not UTF-8; a lenient one puts a replacement
character in place of every maximal ill-formed part, as Unicode recommends.

## Main definitions

* `Text.leadRanges?`: what may follow a first byte.
* `Text.decodeLossy`: the lenient reader.
* `Text.decode?`: the strict reader.
-/

namespace QueueScaler.Text

/-- For the first byte of a sequence of two to four bytes: the bits it contributes, and the range of
each byte to follow. Overlong forms, surrogates and numbers beyond `U+10FFFF` are excluded by the
range of the second byte. -/
def leadRanges? (b : UInt8) : Option (Nat × List (UInt8 × UInt8)) :=
  if 0xc2 ≤ b ∧ b ≤ 0xdf then some (b.toNat - 0xc0, [(0x80, 0xbf)])
  else if b = 0xe0 then some (0x0, [(0xa0, 0xbf), (0x80, 0xbf)])
  else if b = 0xed then some (0xd, [(0x80, 0x9f), (0x80, 0xbf)])
  else if 0xe1 ≤ b ∧ b ≤ 0xef then some (b.toNat - 0xe0, [(0x80, 0xbf), (0x80, 0xbf)])
  else if b = 0xf0 then some (0, [(0x90, 0xbf), (0x80, 0xbf), (0x80, 0xbf)])
  else if 0xf1 ≤ b ∧ b ≤ 0xf3 then
    some (b.toNat - 0xf0, [(0x80, 0xbf), (0x80, 0xbf), (0x80, 0xbf)])
  else if b = 0xf4 then some (4, [(0x80, 0x8f), (0x80, 0xbf), (0x80, 0xbf)])
  else none

/-- Takes the bytes that continue a sequence as long as they lie in their ranges. The first
component is the code point if none was missing. -/
def takeContinuation (code : Nat) :
    List (UInt8 × UInt8) → List UInt8 → Option Nat × List UInt8
  | [], rest => (some code, rest)
  | _ :: _, [] => (none, [])
  | (low, high) :: ranges, b :: rest =>
    if low ≤ b ∧ b ≤ high then takeContinuation (code * 64 + (b.toNat - 0x80)) ranges rest
    else (none, b :: rest)

theorem length_takeContinuation_le (code : Nat) (ranges : List (UInt8 × UInt8))
    (bytes : List UInt8) : (takeContinuation code ranges bytes).2.length ≤ bytes.length := by
  induction ranges generalizing code bytes with
  | nil => exact Nat.le_refl _
  | cons r ranges ih =>
    cases bytes with
    | nil => exact Nat.le_refl _
    | cons b rest =>
      simp only [takeContinuation]
      split
      · exact Nat.le_succ_of_le (ih _ rest)
      · exact Nat.le_refl _

/-- The next character of a text in UTF-8, with the bytes after it; no character where the bytes up
to there are ill-formed. -/
def nextChar (b : UInt8) (rest : List UInt8) : Option Char × List UInt8 :=
  if b < 0x80 then (some (Char.ofNat b.toNat), rest)
  else
    match leadRanges? b with
    | none => (none, rest)
    | some (bits, ranges) =>
      let (code, rest) := takeContinuation bits ranges rest
      (code.map Char.ofNat, rest)

theorem length_nextChar_le (b : UInt8) (rest : List UInt8) :
    (nextChar b rest).2.length ≤ rest.length := by
  unfold nextChar
  split
  · exact Nat.le_refl _
  · split
    · exact Nat.le_refl _
    · exact length_takeContinuation_le ..

/-- The characters of a text in UTF-8, each with whether it was well-formed; an ill-formed part
reads as `U+FFFD`. -/
def decodeMarked : List UInt8 → List (Option Char)
  | [] => []
  | b :: rest =>
    (nextChar b rest).1 :: decodeMarked (nextChar b rest).2
  termination_by bytes => bytes.length
  decreasing_by exact Nat.lt_succ_of_le (length_nextChar_le b rest)

/-- The text of some bytes, with `U+FFFD` for every ill-formed part. -/
def decodeLossy (bytes : List UInt8) : String :=
  String.ofList ((decodeMarked bytes).map fun c ↦ c.getD '\ufffd')

/-- The text of some bytes, if they are UTF-8. -/
def decode? (bytes : List UInt8) : Option String :=
  ((decodeMarked bytes).mapM id).map String.ofList

end QueueScaler.Text
