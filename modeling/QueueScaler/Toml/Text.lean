import QueueScaler.Toml.Line
/-!
# Strings of TOML

A string is basic, with escapes, or literal; and it stays on one line or may go over several. A
string over several lines ends at three quotes, up to two more of which belong to its text.

## Main definitions

* `Toml.escape?`: the character after a backslash.
* `Toml.basicText`, `Toml.literalText`: strings on one line, after the opening quote.
* `Toml.longBasicText`, `Toml.longLiteralText`: strings over several lines, after the opening
  quotes.
* `Toml.string?`: a string of any kind.
-/

namespace QueueScaler.Toml

/-- The character with a number of the given count of hexadecimal digits; surrogates are no
characters. -/
def numbered? (count : Nat) (cs : List Char) : Option (Char × List Char) :=
  let digits := cs.take count
  let code := Digits.value 16 digits
  if digits.length = count ∧ digits.all Digits.isHex ∧ code.isValidChar then
    some (Char.ofNat code, cs.drop count)
  else none

/-- The character that an escape stands for, after its backslash. -/
def escape? : List Char → Option (Char × List Char)
  | 'b' :: rest => some ('\x08', rest)
  | 't' :: rest => some ('\t', rest)
  | 'n' :: rest => some ('\n', rest)
  | 'f' :: rest => some ('\x0c', rest)
  | 'r' :: rest => some ('\r', rest)
  | '"' :: rest => some ('"', rest)
  | '\\' :: rest => some ('\\', rest)
  | 'u' :: rest => numbered? 4 rest
  | 'U' :: rest => numbered? 8 rest
  | _ => none

theorem length_numbered? {count : Nat} {cs rest : List Char} {c : Char}
    (h : numbered? count cs = some (c, rest)) : rest.length ≤ cs.length := by
  unfold numbered? at h
  simp only at h
  split at h
  · rw [← (Prod.mk.inj (Option.some.inj h)).2, List.length_drop]
    exact Nat.sub_le ..
  · exact absurd h (by simp)

theorem length_escape? {cs rest : List Char} {c : Char} (h : escape? cs = some (c, rest)) :
    rest.length < cs.length := by
  unfold escape? at h
  split at h
  case h_10 => exact absurd h (by simp)
  case h_8 => exact Nat.lt_succ_of_le (length_numbered? h)
  case h_9 => exact Nat.lt_succ_of_le (length_numbered? h)
  all_goals
    rw [← (Prod.mk.inj (Option.some.inj h)).2]
    exact Nat.lt_succ_self _

/-- A basic string on one line, after its opening quote. -/
def basicText : Scanner Char (List Char)
  | [] => none
  | c :: rest =>
    if c = '"' then some ([], rest)
    else if c = '\\' then
      match _h : escape? rest with
      | none => none
      | some (d, rest) => (basicText rest).map fun (ds, r) ↦ (d :: ds, r)
    else if isPlain c then (basicText rest).map fun (cs, r) ↦ (c :: cs, r)
    else none
  termination_by cs => cs.length
  decreasing_by
    · exact Nat.lt_succ_of_lt (length_escape? _h)
    · exact Nat.lt_succ_self _

/-- A literal string on one line, after its opening quote. -/
def literalText (cs : List Char) : Option (List Char × List Char) :=
  let inside : Char → Bool := fun c ↦ c ≠ '\'' && isPlain c
  (after? '\'' (cs.dropWhile inside)).map fun rest ↦ (cs.takeWhile inside, rest)

/-- The quotes that end a long string, and those before them that belong to its text. -/
def closing? (quote : Char) (cs : List Char) : Option (List Char × List Char) :=
  let run := (cs.takeWhile (· = quote)).length
  if run < 3 then none
  else some (List.replicate (min run 5 - 3) quote, cs.drop (min run 5))

/-- Drops blanks and line breaks. -/
def skipLines : List Char → List Char
  | [] => []
  | c :: rest =>
    if isSpace c ∨ c = '\n' then skipLines rest
    else if c = '\r' then
      match rest with
      | '\n' :: rest => skipLines rest
      | _ => c :: rest
    else c :: rest

theorem length_skipLines_le (cs : List Char) : (skipLines cs).length ≤ cs.length := by
  fun_induction skipLines cs <;> simp only [List.length_cons, List.length_nil] at * <;> omega

/-- The text after a backslash at the end of a line, which hides the line break and all the blanks
after it. -/
def joined? (cs : List Char) : Option (List Char) :=
  if (newline? (skipBlanks cs)).isSome then some (skipLines cs) else none

theorem length_joined?_le {cs rest : List Char} (h : joined? cs = some rest) :
    rest.length ≤ cs.length := by
  unfold joined? at h
  split at h
  · rw [← Option.some.inj h]
    exact length_skipLines_le cs
  · exact absurd h (by simp)

/-- A basic string over several lines, after its opening quotes. A line break counts as a line
feed. -/
def longBasicText : Scanner Char (List Char)
  | [] => none
  | c :: rest =>
    match closing? '"' (c :: rest) with
    | some found => some found
    | none =>
      if c = '\\' then
        match _hj : joined? rest with
        | some rest => longBasicText rest
        | none =>
          match _he : escape? rest with
          | none => none
          | some (d, rest) => (longBasicText rest).map fun (ds, r) ↦ (d :: ds, r)
      else if c = '\r' then
        match rest with
        | '\n' :: rest => (longBasicText rest).map fun (cs, r) ↦ ('\n' :: cs, r)
        | _ => none
      else if c = '\n' ∨ isPlain c then (longBasicText rest).map fun (cs, r) ↦ (c :: cs, r)
      else none
  termination_by cs => cs.length
  decreasing_by
    · exact Nat.lt_succ_of_le (length_joined?_le _hj)
    · exact Nat.lt_succ_of_lt (length_escape? _he)
    · simp only [List.length_cons]; omega
    · exact Nat.lt_succ_self _

/-- A literal string over several lines, after its opening quotes. A line break counts as a line
feed. -/
def longLiteralText : Scanner Char (List Char)
  | [] => none
  | c :: rest =>
    match closing? '\'' (c :: rest) with
    | some found => some found
    | none =>
      if c = '\r' then
        match rest with
        | '\n' :: rest => (longLiteralText rest).map fun (cs, r) ↦ ('\n' :: cs, r)
        | _ => none
      else if c = '\n' ∨ isPlain c then (longLiteralText rest).map fun (cs, r) ↦ (c :: cs, r)
      else none

/-- Drops a line break right after opening quotes. -/
def skipNewline (cs : List Char) : List Char := (newline? cs).getD cs

/-- A string of any kind, with its quotes. -/
def string? : List Char → Option (String × List Char)
  | '"' :: '"' :: '"' :: rest =>
    (longBasicText (skipNewline rest)).map fun (cs, r) ↦ (String.ofList cs, r)
  | '"' :: rest => (basicText rest).map fun (cs, r) ↦ (String.ofList cs, r)
  | '\'' :: '\'' :: '\'' :: rest =>
    (longLiteralText (skipNewline rest)).map fun (cs, r) ↦ (String.ofList cs, r)
  | '\'' :: rest => (literalText rest).map fun (cs, r) ↦ (String.ofList cs, r)
  | _ => none

end QueueScaler.Toml
