/-!
# Scanners

A scanner reads something off the front of a list of symbols and leaves the rest. The loops of a
grammar are bounded by a number that the caller takes from the length of its input.

## Main definitions

* `Scanner`: a partial function to a result and the rest of the input.
* `Scanner.literal?`: reads a fixed list of symbols.
* `Scanner.separated`: one or more items with separators between them.
* `Digits.value`: the number that some digits denote.
* `Digits.count?`: a whole number below a bound, as written by hand.

## Main results

* `Scanner.separated_last`, `Scanner.separated_cons`: how items with separators are read.
-/

namespace QueueScaler

/-- Reads a result off the front of a list of symbols, or refuses it. -/
abbrev Scanner (σ α : Type) := List σ → Option (α × List σ)

namespace Scanner

variable {σ α : Type}

/-- The rest of the input after a fixed list of symbols. -/
def literal? [DecidableEq σ] : List σ → List σ → Option (List σ)
  | [], rest => some rest
  | _ :: _, [] => none
  | expected :: more, found :: rest =>
    if expected = found then literal? more rest else none

theorem eq_append_of_literal? [DecidableEq σ] {expected input rest : List σ}
    (h : literal? expected input = some rest) : input = expected ++ rest := by
  induction expected generalizing input with
  | nil => exact Option.some.inj h
  | cons a expected ih =>
    cases input with
    | nil => exact absurd h (by simp [literal?])
    | cons b input =>
      simp only [literal?] at h
      split at h
      · rename_i hab
        rw [hab, ih h]
        rfl
      · exact absurd h (by simp)

/-- At most `bound` items with a separator between each two. A separator without an item after it is
left in the input. -/
def separated (item : Scanner σ α) (separator : List σ → Option (List σ)) :
    Nat → Scanner σ (List α)
  | 0 => fun _ ↦ none
  | bound + 1 => fun input ↦
    match item input with
    | none => none
    | some (x, rest) =>
      match (separator rest).bind (separated item separator bound) with
      | none => some ([x], rest)
      | some (xs, rest) => some (x :: xs, rest)

section Separated

variable {item : Scanner σ α} {separator : List σ → Option (List σ)} {bound : Nat}
  {input rest more : List σ} {x : α}

/-- An item without a separator behind it is the last. -/
theorem separated_last (hitem : item input = some (x, rest)) (hlast : separator rest = none) :
    separated item separator (bound + 1) input = some ([x], rest) := by
  simp only [separated, hitem, hlast, Option.bind_none]

/-- An item with a separator behind it is followed by more. -/
theorem separated_cons {xs : List α} {last : List σ} (hitem : item input = some (x, rest))
    (hseparator : separator rest = some more)
    (hmore : separated item separator bound more = some (xs, last)) :
    separated item separator (bound + 1) input = some (x :: xs, last) := by
  simp only [separated, hitem, hseparator, Option.bind_some, hmore]

end Separated

/-- Zero or more items with a separator between each two. -/
def separated₀ (item : Scanner σ α) (separator : List σ → Option (List σ)) (input : List σ) :
    List α × List σ :=
  (separated item separator (input.length + 1) input).getD ([], input)

end Scanner

namespace Digits

/-- The value of a digit, letters standing for ten and above. -/
def digitValue (c : Char) : Nat :=
  if '0' ≤ c ∧ c ≤ '9' then c.toNat - '0'.toNat
  else if 'a' ≤ c ∧ c ≤ 'f' then c.toNat - 'a'.toNat + 10
  else c.toNat - 'A'.toNat + 10

/-- The number that some digits denote, the most significant digit first. -/
def value (base : Nat) (cs : List Char) : Nat :=
  cs.foldl (fun n c ↦ n * base + digitValue c) 0

/-- The number that some digits denote, if there are any and it lies below a bound. A plus sign may
stand in front, and so may zeros. -/
def count? (bound : Nat) (cs : List Char) : Option Nat :=
  let digits := match cs with
    | '+' :: rest => rest
    | _ => cs
  if ¬ digits.isEmpty ∧ digits.all Char.isDigit ∧ value 10 digits < bound then
    some (value 10 digits)
  else none

/-- Whether a character is a hexadecimal digit, in either case. -/
def isHex (c : Char) : Bool :=
  c.isDigit || ('a' ≤ c ∧ c ≤ 'f') || ('A' ≤ c ∧ c ≤ 'F')

end Digits

end QueueScaler
