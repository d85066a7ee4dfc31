import Mathlib.Data.List.Induction
import Mathlib.Data.Nat.Digits.Defs
import QueueScaler.Text.Scanner
/-!
# Numbers as they are written

A number is written with at least one decimal digit, perhaps after a plus sign. The reader of
numbers takes exactly what is written so, as long as the number lies below its bound, and nothing
wraps around.

## Main definitions

* `Digits.Denotes`: whether decimal digits denote a number.
* `Digits.Writes`: the same with an optional plus sign in front.

## Main results

* `Digits.count?_eq_some_iff`: what the reader of numbers takes.
* `Digits.count?_eq_none_of_mem`: a character that has no place in a number.
-/

namespace QueueScaler.Digits

variable {digits text : List Char} {bound n : ℕ} {c : Char}

/-- Decimal digits, the most significant first, denote a number. -/
structure Denotes (digits : List Char) (n : ℕ) : Prop where
  /-- There is at least one digit. -/
  nonempty : digits ≠ []
  /-- There are only digits. -/
  isDigit : ∀ c ∈ digits, c.isDigit = true
  /-- The number has these digits. -/
  value : Nat.ofDigits 10 (digits.reverse.map fun c ↦ c.toNat - '0'.toNat) = n

/-- A text writes a number: its digits, perhaps after a plus sign. -/
def Writes (text : List Char) (n : ℕ) : Prop :=
  Denotes text n ∨ ∃ digits, text = '+' :: digits ∧ Denotes digits n

theorem digitValue_of_isDigit (h : c.isDigit = true) : digitValue c = c.toNat - '0'.toNat := by
  rw [Char.isDigit, Bool.and_eq_true, decide_eq_true_eq, decide_eq_true_eq] at h
  exact if_pos h

/-- The value of decimal digits is the number that has them. -/
theorem value_eq_ofDigits (h : ∀ c ∈ digits, c.isDigit = true) :
    value 10 digits = Nat.ofDigits 10 (digits.reverse.map fun c ↦ c.toNat - '0'.toNat) := by
  induction digits using List.reverseRecOn with
  | nil => rfl
  | append_singleton digits c ih =>
    obtain ⟨hdigits, hc⟩ := List.forall_mem_append.mp h
    rw [List.reverse_append, List.reverse_singleton, List.singleton_append, List.map_cons,
      Nat.ofDigits_cons, ← ih hdigits, ← digitValue_of_isDigit (hc c List.mem_cons_self), value,
      value, List.foldl_append, List.foldl_cons, List.foldl_nil]
    exact (Nat.add_comm ..).trans (by rw [Nat.mul_comm])

/-- The check of the digits, and their value. -/
theorem denotes_iff :
    (¬ digits.isEmpty ∧ digits.all Char.isDigit) ∧ value 10 digits = n ↔ Denotes digits n := by
  rw [List.isEmpty_iff, List.all_eq_true]
  constructor
  · rintro ⟨⟨hne, hall⟩, rfl⟩
    exact ⟨hne, hall, (value_eq_ofDigits hall).symm⟩
  · rintro ⟨hne, hall, rfl⟩
    exact ⟨⟨hne, hall⟩, value_eq_ofDigits hall⟩

theorem writes_plus_iff : Writes ('+' :: digits) n ↔ Denotes digits n := by
  constructor
  · rintro (h | ⟨rest, hrest, h⟩)
    · exact absurd (h.isDigit '+' List.mem_cons_self) (by decide)
    · exact (List.cons.inj hrest).2 ▸ h
  · exact fun h ↦ .inr ⟨digits, rfl, h⟩

theorem writes_iff_denotes (h : ∀ digits, text ≠ '+' :: digits) :
    Writes text n ↔ Denotes text n :=
  or_iff_left fun ⟨digits, heq, _⟩ ↦ h digits heq

/-- **The reader of numbers takes what writes a number below its bound,** and gives that number. -/
theorem count?_eq_some_iff : count? bound text = some n ↔ Writes text n ∧ n < bound := by
  have hread (digits : List Char) :
      (if ¬ digits.isEmpty ∧ digits.all Char.isDigit ∧ value 10 digits < bound then
        some (value 10 digits) else none) = some n ↔ Denotes digits n ∧ n < bound := by
    rw [Option.ite_none_right_eq_some, Option.some.injEq, ← denotes_iff]
    constructor
    · rintro ⟨⟨hne, hall, hlt⟩, rfl⟩
      exact ⟨⟨⟨hne, hall⟩, rfl⟩, hlt⟩
    · rintro ⟨⟨⟨hne, hall⟩, rfl⟩, hlt⟩
      exact ⟨⟨hne, hall, hlt⟩, rfl⟩
  by_cases hplus : ∃ digits, text = '+' :: digits
  · obtain ⟨digits, rfl⟩ := hplus
    rw [writes_plus_iff]
    exact hread digits
  · have hplus (digits : List Char) : text ≠ '+' :: digits := fun h ↦ hplus ⟨digits, h⟩
    rw [writes_iff_denotes hplus, ← hread, count?]
    exact hplus

/-- A text with a character that is neither a digit nor a plus sign is no number. -/
theorem count?_eq_none_of_mem (hc : c ∈ text) (hdigit : c.isDigit = false) (hplus : c ≠ '+') :
    count? bound text = none := by
  refine Option.eq_none_iff_forall_not_mem.mpr fun n hn ↦ ?_
  rcases (count?_eq_some_iff.mp hn).1 with h | ⟨digits, rfl, h⟩
  · exact Bool.false_ne_true (hdigit.symm.trans (h.isDigit c hc))
  · have hc := (List.mem_cons.mp hc).resolve_left hplus
    exact Bool.false_ne_true (hdigit.symm.trans (h.isDigit c hc))

end QueueScaler.Digits
