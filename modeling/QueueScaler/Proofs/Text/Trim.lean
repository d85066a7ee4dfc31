import Mathlib.Data.List.DropRight
import QueueScaler.Text.Blank
/-!
# Texts without white space at their ends

Trimming takes nothing but white space from the ends of a text, and all of it. So a trimmed text is
the one text without white space at its ends that the original is made of, and two texts that differ
in nothing but the white space around them are trimmed to the same.

## Main definitions

* `Text.Trimmed`: whether there is no white space at either end.
* `Text.Surrounds`: whether a text is another one with white space around it.

## Main results

* `Text.trim_eq_iff`: the trimmed text.
* `Text.Surrounds.trim_eq`: white space around a text makes no difference.
* `Text.trim_eq_empty_iff`: nothing is left of a text exactly if it was all blank.
-/

namespace QueueScaler.Text

/-- Whether there is no white space at either end of a text. -/
def Trimmed (s : String) : Prop :=
  (∀ c ∈ s.toList.head?, isBlank c = false) ∧ ∀ c ∈ s.toList.getLast?, isBlank c = false

/-- Whether a text is another one with nothing but white space around it. -/
def Surrounds (s core : String) : Prop :=
  ∃ before after : List Char, s.toList = before ++ core.toList ++ after ∧
    (∀ c ∈ before, isBlank c = true) ∧ ∀ c ∈ after, isBlank c = true

/-! ### Lists of characters -/

theorem trimChars_eq (cs : List Char) : trimChars cs = (cs.dropWhile isBlank).rdropWhile isBlank :=
  rfl

theorem exists_trimChars (cs : List Char) :
    ∃ before after, cs = before ++ trimChars cs ++ after ∧
      (∀ c ∈ before, isBlank c = true) ∧ ∀ c ∈ after, isBlank c = true := by
  refine ⟨cs.takeWhile isBlank, (cs.dropWhile isBlank).rtakeWhile isBlank, ?_,
    fun c ↦ List.mem_takeWhile_imp, fun c ↦ List.mem_rtakeWhile_imp⟩
  rw [trimChars_eq, List.append_assoc, List.rdropWhile_append_rtakeWhile,
    List.takeWhile_append_dropWhile]

theorem trimChars_append {before after : List Char} (core : List Char)
    (hbefore : ∀ c ∈ before, isBlank c = true) (hafter : ∀ c ∈ after, isBlank c = true) :
    trimChars (before ++ core ++ after) = trimChars core := by
  rw [trimChars_eq, trimChars_eq, List.append_assoc, List.dropWhile_append_of_pos hbefore,
    List.dropWhile_append]
  split
  · rename_i hcore
    rw [List.dropWhile_eq_nil_iff.mpr hafter, List.isEmpty_iff.mp hcore]
  · rw [List.rdropWhile, List.reverse_append,
      List.dropWhile_append_of_pos fun c hc ↦ hafter c (List.mem_reverse.mp hc)]
    rfl

theorem isBlank_head?_trimChars {cs : List Char} :
    ∀ c ∈ (trimChars cs).head?, isBlank c = false := by
  intro c hc
  obtain ⟨rest, hrest⟩ := List.rdropWhile_prefix isBlank (cs.dropWhile isBlank)
  have hhead := List.head?_dropWhile_not isBlank cs
  rwa [← hrest, List.head?_append, ← trimChars_eq, hc, Option.some_or] at hhead

theorem isBlank_getLast?_trimChars {cs : List Char} :
    ∀ c ∈ (trimChars cs).getLast?, isBlank c = false := by
  intro c hc
  obtain ⟨hne, rfl⟩ := List.mem_getLast?_eq_getLast hc
  exact (Bool.not_eq_true _).mp (List.rdropWhile_last_not isBlank _ hne)

theorem trimChars_eq_self {cs : List Char} (hhead : ∀ c ∈ cs.head?, isBlank c = false)
    (hlast : ∀ c ∈ cs.getLast?, isBlank c = false) : trimChars cs = cs := by
  have hdrop : cs.dropWhile isBlank = cs := by
    cases cs with
    | nil => rfl
    | cons c cs => exact List.dropWhile_cons_of_neg (by simp [hhead c rfl])
  rw [trimChars_eq, hdrop, List.rdropWhile_eq_self_iff]
  intro hne
  simp [hlast _ (List.getLast?_eq_some_getLast hne)]

/-! ### Texts -/

variable {s t : String}

theorem toList_trim (s : String) : (trim s).toList = trimChars s.toList := String.toList_ofList

theorem trimmed_trim (s : String) : Trimmed (trim s) := by
  rw [Trimmed, toList_trim]
  exact ⟨isBlank_head?_trimChars, isBlank_getLast?_trimChars⟩

/-- White space around a text makes no difference. -/
theorem Surrounds.trim_eq (h : Surrounds s t) : trim s = trim t := by
  obtain ⟨before, after, hs, hbefore, hafter⟩ := h
  rw [trim, hs, trimChars_append _ hbefore hafter, trim]

/-- **The trimmed text** is the one without white space at its ends that has nothing but white
space around it. -/
theorem trim_eq_iff : trim s = t ↔ Trimmed t ∧ Surrounds s t := by
  constructor
  · rintro rfl
    obtain ⟨before, after, hs, hblank⟩ := exists_trimChars s.toList
    exact ⟨trimmed_trim s, before, after, by rwa [toList_trim], hblank⟩
  · rintro ⟨⟨hhead, hlast⟩, hs⟩
    rw [hs.trim_eq, trim, trimChars_eq_self hhead hlast, String.ofList_toList]

/-- Nothing is left of a text exactly if it was all blank. -/
theorem trim_eq_empty_iff : trim s = "" ↔ isAllBlank s = true := by
  rw [trim_eq_iff, isAllBlank, List.all_eq_true]
  constructor
  · rintro ⟨-, before, after, hs, hbefore, hafter⟩ c hc
    rw [hs, String.toList_empty, List.append_nil, List.mem_append] at hc
    exact hc.elim (hbefore c) (hafter c)
  · intro h
    exact ⟨⟨by simp, by simp⟩, s.toList, [], by simp, h, by simp⟩

end QueueScaler.Text
