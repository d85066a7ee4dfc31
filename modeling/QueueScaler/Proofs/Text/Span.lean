import Mathlib.Data.List.TakeDrop
import Mathlib.Data.List.TakeWhile
/-!
# Runs at the front of a text

A reader often takes the characters of one kind at the front of a text and goes on with the rest.

## Main results

* `span_append`: a run that ends where the rest begins is taken as a whole.
* `takeWhile_ne_append_of_mem`, `takeWhile_ne_append_of_notMem`: the text up to a character.
-/

namespace QueueScaler

variable {α : Type} {p : α → Bool} {word rest : List α}

theorem takeWhile_append (hword : ∀ c ∈ word, p c = true) (hrest : ∀ c ∈ rest.head?, p c = false) :
    (word ++ rest).takeWhile p = word := by
  rw [List.takeWhile_append_of_pos hword]
  cases rest with
  | nil => simp
  | cons c rest => simp [hrest c rfl]

theorem dropWhile_append (hword : ∀ c ∈ word, p c = true) (hrest : ∀ c ∈ rest.head?, p c = false) :
    (word ++ rest).dropWhile p = rest := by
  rw [List.dropWhile_append_of_pos hword]
  cases rest with
  | nil => rfl
  | cons c rest => simp [hrest c rfl]

/-- **A run that ends where the rest begins** is taken as a whole. -/
theorem span_append (hword : ∀ c ∈ word, p c = true) (hrest : ∀ c ∈ rest.head?, p c = false) :
    (word ++ rest).span p = (word, rest) := by
  rw [List.span_eq_takeWhile_dropWhile, takeWhile_append hword hrest,
    dropWhile_append hword hrest]

/-- What stands behind a run does not go on with it. -/
theorem eq_false_of_mem_head?_dropWhile {l : List α} {c : α} (h : c ∈ (l.dropWhile p).head?) :
    p c = false := by
  have hstop := List.head?_dropWhile_not p l
  rwa [Option.mem_def.mp h] at hstop

section UpTo

variable [DecidableEq α] {c : α} {l m : List α}

/-- A text without some character is followed by more of the text up to that character. -/
theorem takeWhile_ne_append_of_notMem (h : c ∉ l) :
    (l ++ m).takeWhile (· ≠ c) = l ++ m.takeWhile (· ≠ c) :=
  List.takeWhile_append_of_pos fun _ hd ↦ decide_eq_true fun hdc ↦ h (hdc ▸ hd)

theorem takeWhile_ne_of_notMem (h : c ∉ l) : l.takeWhile (· ≠ c) = l := by
  simpa using takeWhile_ne_append_of_notMem (m := []) h

/-- What stands behind some character does not count for the text up to it. -/
theorem takeWhile_ne_append_of_mem (h : c ∈ l) :
    (l ++ m).takeWhile (· ≠ c) = l.takeWhile (· ≠ c) := by
  induction l with
  | nil => exact absurd h List.not_mem_nil
  | cons d l ih =>
    by_cases hd : d = c
    · simp [hd]
    · simpa [hd] using ih ((List.mem_cons.mp h).resolve_left (Ne.symm hd))

end UpTo

end QueueScaler
