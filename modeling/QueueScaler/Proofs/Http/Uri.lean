import QueueScaler.Proofs.Http.Authority
/-!
# What an absolute URI is made of

A URI with a scheme is its scheme, a colon and two slashes, an authority, and a tail that begins
with the path, the query or the fragment. Its authority has no place for a slash, a question mark or
a hash sign, so it ends where the tail begins; the scheme has none for the colon. Reading a URI
finds exactly these parts.

## Main definitions

* `Http.Uri.Absolute`: the parts of an absolute URI.
* `Http.Uri.orRoot`: what is asked for, a slash in place of an empty path.

## Main results

* `Http.Uri.parse?_eq_absolute_iff`: reading finds the parts.
* `Http.Uri.Absolute.of_append`: the parts, when more is written behind.
* `Http.Uri.target?_append`: what is asked for, when more is written behind a path.
-/

namespace QueueScaler.Http

namespace Uri

/-! ### The parts of an absolute URI -/

/-- The parts of an absolute URI. -/
structure Absolute (s : String) (scheme authority tail : List Char) : Prop where
  /-- How they are put together. -/
  text : s.toList = scheme ++ "://".toList ++ authority ++ tail
  /-- The text is not too long. -/
  size_le : s.utf8ByteSize ≤ maxLength
  /-- The scheme has only characters of schemes. -/
  schemeChars : ∀ c ∈ scheme, isSchemeChar c = true
  /-- The scheme is not too long. -/
  length_le : scheme.length ≤ maxSchemeLength
  /-- The authority is not empty. -/
  nonempty : authority ≠ []
  /-- The authority is one. -/
  isValid : Authority.isValid authority = true
  /-- The tail begins where the authority cannot go on. -/
  boundary : ∀ c ∈ tail.head?, inAuthority c = false

/-- What is asked for: a slash if the path is empty. -/
def orRoot (target : List Char) : List Char := if target.isEmpty then ['/'] else target

variable {s : String} {scheme authority tail target : List Char}

theorem orRoot_of_ne_nil (h : target ≠ []) : orRoot target = target :=
  if_neg fun hempty ↦ h (List.isEmpty_iff.mp hempty)

theorem literal?_append {l m : List Char} : Scanner.literal? l (l ++ m) = some m := by
  induction l with
  | nil => rfl
  | cons c l ih => rw [List.cons_append, Scanner.literal?, if_pos rfl, ih]

theorem splitScheme?_eq_some_iff {cs rest : List Char} :
    splitScheme? cs = some (scheme, rest) ↔
      cs = scheme ++ "://".toList ++ rest ∧ ∀ c ∈ scheme, isSchemeChar c = true := by
  have hcolon : ∀ c ∈ ("://".toList ++ rest).head?, isSchemeChar c = false := by
    intro c hc
    obtain rfl : ':' = c := Option.some.inj hc
    decide
  constructor
  · intro h
    obtain ⟨rest', hrest, heq⟩ := Option.map_eq_some_iff.mp h
    obtain ⟨rfl, rfl⟩ := Prod.mk.inj heq
    have hbehind := Scanner.eq_append_of_literal? hrest
    refine ⟨?_, fun c ↦ List.mem_takeWhile_imp⟩
    rw [List.append_assoc, ← hbehind, List.takeWhile_append_dropWhile]
  · rintro ⟨rfl, hscheme⟩
    rw [splitScheme?, List.append_assoc, takeWhile_append hscheme hcolon,
      dropWhile_append hscheme hcolon, literal?_append, Option.map_some]

/-- What follows the scheme of a URI, taken apart. -/
theorem absolute?_eq_some_iff {rest : List Char} {uri : Uri} :
    absolute? scheme rest = some uri ↔
      ∃ authority tail target, rest = authority ++ tail ∧ scheme.length ≤ maxSchemeLength ∧
        authority ≠ [] ∧ Authority.isValid authority = true ∧
        (∀ c ∈ tail.head?, inAuthority c = false) ∧ target? tail = some target ∧
        uri = .absolute (canonicalScheme scheme) authority (orRoot target) := by
  constructor
  · intro h
    rw [absolute?, Option.ite_none_right_eq_some] at h
    obtain ⟨⟨hlength, hne, hvalid⟩, h⟩ := h
    obtain ⟨target, htarget, rfl⟩ := Option.map_eq_some_iff.mp h
    refine ⟨_, _, target, List.takeWhile_append_dropWhile.symm, hlength, ?_, hvalid, ?_, htarget,
      rfl⟩
    · exact fun h ↦ hne (List.isEmpty_iff.mpr h)
    · exact fun c ↦ eq_false_of_mem_head?_dropWhile
  · rintro ⟨authority, tail, target, rfl, hlength, hne, hvalid, hboundary, htarget, rfl⟩
    have hinside := Authority.inAuthority_of_isValid hvalid
    simp only [absolute?, takeWhile_append hinside hboundary, dropWhile_append hinside hboundary]
    rw [if_pos ⟨hlength, fun h ↦ hne (List.isEmpty_iff.mp h), hvalid⟩, htarget, Option.map_some]
    rfl

theorem Absolute.three_le_length (h : Absolute s scheme authority tail) :
    3 ≤ s.toList.length := by
  have hmark : "://".toList.length = 3 := rfl
  simp only [h.text, List.length_append, hmark]
  omega

/-- An absolute URI begins with a character of its scheme or with the colon. -/
theorem Absolute.head_ne (h : Absolute s scheme authority tail) :
    ∀ c ∈ s.toList.head?, c ≠ '/' := by
  intro c hc
  rw [h.text] at hc
  rcases scheme with _ | ⟨d, scheme⟩
  · obtain rfl : ':' = c := Option.some.inj hc
    decide
  · obtain rfl : d = c := Option.some.inj hc
    rintro rfl
    exact absurd (h.schemeChars '/' List.mem_cons_self) (by decide)

/-- A scheme has no place for some characters, nor has an authority. -/
theorem Absolute.notMem {c : Char} (h : Absolute s scheme authority tail)
    (hscheme : isSchemeChar c = false) (hauthority : inAuthority c = false) :
    c ∉ scheme ∧ c ∉ authority := by
  refine ⟨fun hc ↦ ?_, fun hc ↦ ?_⟩
  · exact Bool.false_ne_true (hscheme.symm.trans (h.schemeChars c hc))
  · exact Bool.false_ne_true
      (hauthority.symm.trans (Authority.inAuthority_of_isValid h.isValid c hc))

/-- **The parts of an absolute URI behind which more is written** are its own, with more behind the
tail. A third slash says that the tail has begun. -/
theorem Absolute.of_append {more : String} (h : Absolute (s ++ more) scheme authority tail)
    (hslashes : 2 < s.toList.count '/') :
    ∃ path, Absolute s scheme authority path ∧ tail = path ++ more.toList ∧ path ≠ [] ∧
      ('#' ∈ path ↔ '#' ∈ s.toList) := by
  obtain ⟨hscheme, hauthority⟩ := h.notMem (c := '/') (by decide) (by decide)
  obtain ⟨hschemeHash, hauthorityHash⟩ := h.notMem (c := '#') (by decide) (by decide)
  have hcount : (scheme ++ "://".toList ++ authority).count '/' = 2 := by
    rw [List.count_append, List.count_append, List.count_eq_zero.mpr hscheme,
      List.count_eq_zero.mpr hauthority]
    decide
  have htext := h.text
  rw [String.toList_append] at htext
  -- Up to the end of the authority there are two slashes, so a third one is in the tail.
  obtain ⟨path, hs, rfl⟩ : ∃ path, s.toList = scheme ++ "://".toList ++ authority ++ path ∧
      tail = path ++ more.toList := by
    rcases List.append_eq_append_iff.mp htext with ⟨rest, hfront, -⟩ | ⟨path, hs, htail⟩
    · rw [hfront, List.count_append] at hcount
      omega
    · exact ⟨path, hs, htail⟩
  have hne : path ≠ [] := by
    rintro rfl
    rw [hs, List.append_nil, hcount] at hslashes
    exact absurd hslashes (lt_irrefl 2)
  refine ⟨path, ⟨hs, ?_, h.schemeChars, h.length_le, h.nonempty, h.isValid, ?_⟩, rfl, hne, ?_⟩
  · exact le_trans (by rw [String.utf8ByteSize_append]; exact Nat.le_add_right _ _) h.size_le
  · intro c hc
    refine h.boundary c ?_
    rw [List.head?_append, Option.mem_def.mp hc, Option.some_or]
    rfl
  · have hmark : '#' ∉ "://".toList := by decide
    simp only [hs, List.mem_append, hschemeHash, hauthorityHash, hmark, false_or]

/-- **Reading a URI finds the parts of an absolute one.** -/
theorem parse?_eq_absolute_iff {scheme' : List Char} :
    parse? s = some (.absolute scheme' authority target) ↔
      ∃ scheme tail, Absolute s scheme authority tail ∧ scheme' = canonicalScheme scheme ∧
        (target? tail).map orRoot = some target := by
  constructor
  · intro h
    rw [parse?, Option.ite_none_left_eq_some] at h
    obtain ⟨hsize, h⟩ := h
    split at h
    · cases h
    · cases h
    · simp at h
    · split at h
      · rename_i scheme rest hsplit
        obtain ⟨hs, hscheme⟩ := splitScheme?_eq_some_iff.mp hsplit
        obtain ⟨_, tail, target, rfl, hlength, hne, hvalid, hboundary, htarget, huri⟩ :=
          absolute?_eq_some_iff.mp h
        obtain ⟨rfl, rfl, rfl⟩ := Uri.absolute.inj huri
        refine ⟨scheme, tail, ⟨?_, not_lt.mp hsize, hscheme, hlength, hne, hvalid, hboundary⟩, rfl,
          by rw [htarget, Option.map_some]⟩
        rw [hs, List.append_assoc _ authority]
      · simp at h
  · rintro ⟨scheme, tail, h, rfl, htarget⟩
    obtain ⟨asked, hasked, rfl⟩ := Option.map_eq_some_iff.mp htarget
    have htext := h.text
    have hsplit : splitScheme? s.toList = some (scheme, authority ++ tail) :=
      splitScheme?_eq_some_iff.mpr ⟨by rw [htext, List.append_assoc _ authority], h.schemeChars⟩
    have habsolute := absolute?_eq_some_iff.mpr ⟨authority, tail, asked, rfl, h.length_le,
      h.nonempty, h.isValid, h.boundary, hasked, rfl⟩
    rw [parse?, if_neg (not_lt.mpr h.size_le)]
    split
    · rename_i hnil
      exact absurd h.three_le_length (by simp [hnil])
    · rename_i hstar
      exact absurd h.three_le_length (by simp [hstar])
    · rename_i rest hslash
      exact absurd rfl (h.head_ne '/' (by rw [hslash, List.head?_cons]; rfl))
    · rw [hsplit]
      exact habsolute

/-! ### What is asked for -/

section Target

variable {cs more l m : List Char}

/-- A path and its query are as good as what is written before more of them. -/
theorem fits_of_append
    (h : ((l ++ m).takeWhile (· ≠ '?')).all isPathChar = true ∧
      (((l ++ m).dropWhile (· ≠ '?')).drop 1).all isQueryChar = true) :
    (l.takeWhile (· ≠ '?')).all isPathChar = true ∧
      ((l.dropWhile (· ≠ '?')).drop 1).all isQueryChar = true := by
  by_cases hquery : '?' ∈ l
  · rw [takeWhile_ne_append_of_mem hquery, List.dropWhile_append] at h
    rcases hdrop : l.dropWhile (· ≠ '?') with _ | ⟨d, query⟩
    · exact absurd (List.dropWhile_eq_nil_iff.mp hdrop '?' hquery) (by decide)
    · rw [hdrop] at h
      have hall : (query ++ m).all isQueryChar = true := h.2
      rw [List.all_append, Bool.and_eq_true] at hall
      exact ⟨h.1, hall.1⟩
  · rw [takeWhile_ne_append_of_notMem hquery, List.all_append, Bool.and_eq_true] at h
    have hdrop : l.dropWhile (· ≠ '?') = [] :=
      List.dropWhile_eq_nil_iff.mpr fun c hc ↦ decide_eq_true fun heq ↦ hquery (heq ▸ hc)
    rw [takeWhile_ne_of_notMem hquery, hdrop]
    exact ⟨h.1.1, rfl⟩

theorem eq_takeWhile_of_target? (h : target? cs = some target) :
    target = cs.takeWhile (· ≠ '#') := by
  rw [target?, Option.ite_none_right_eq_some] at h
  exact (Option.some.inj h.2).symm

/-- **More behind a path** goes into what is asked for, up to a hash sign; behind a hash sign
nothing does. -/
theorem target?_append (h : target? (cs ++ more) = some target) :
    target? cs = some (cs.takeWhile (· ≠ '#')) ∧
      target = if '#' ∈ cs then cs.takeWhile (· ≠ '#') else cs ++ more.takeWhile (· ≠ '#') := by
  have htarget := eq_takeWhile_of_target? h
  rw [target?, Option.ite_none_right_eq_some] at h
  by_cases hhash : '#' ∈ cs
  · rw [takeWhile_ne_append_of_mem hhash] at h htarget
    rw [if_pos hhash]
    exact ⟨if_pos h.1, htarget⟩
  · rw [takeWhile_ne_append_of_notMem hhash] at h htarget
    rw [if_neg hhash, takeWhile_ne_of_notMem hhash, target?, takeWhile_ne_of_notMem hhash]
    exact ⟨if_pos (fits_of_append h.1), htarget⟩

end Target

end Uri

end QueueScaler.Http
