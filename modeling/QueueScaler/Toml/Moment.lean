import QueueScaler.Toml.Line
/-!
# Dates and times of TOML

## Main definitions

* `Toml.date?`, `Toml.time?`, `Toml.offset?`: the parts of a moment.
* `Toml.moment?`: a date, a time of day, or a date with a time and possibly an offset from universal
  time.
-/

namespace QueueScaler.Toml

/-- A number of two digits within bounds. -/
def pair? (least most : Nat) : List Char → Option (Nat × List Char)
  | a :: b :: rest =>
    let n := Digits.value 10 [a, b]
    if a.isDigit ∧ b.isDigit ∧ least ≤ n ∧ n ≤ most then some (n, rest) else none
  | _ => none

/-- The number of days of a month. -/
def daysOf (year month : Nat) : Nat :=
  if month = 2 then
    if year % 4 = 0 ∧ (year % 100 ≠ 0 ∨ year % 400 = 0) then 29 else 28
  else if month = 4 ∨ month = 6 ∨ month = 9 ∨ month = 11 then 30
  else 31

/-- The rest after a date: four digits of year, two of month and two of day. -/
def date? (cs : List Char) : Option (List Char) := do
  let year := cs.take 4
  if year.length = 4 ∧ year.all Char.isDigit then
    let (month, rest) ← pair? 1 12 (← after? '-' (cs.drop 4))
    let (_, rest) ← pair? 1 (daysOf (Digits.value 10 year) month) (← after? '-' rest)
    some rest
  else none

/-- The rest after a time of day: hours, minutes and seconds, the seconds with an optional
fraction. -/
def time? (cs : List Char) : Option (List Char) := do
  let (_, rest) ← pair? 0 23 cs
  let (_, rest) ← pair? 0 59 (← after? ':' rest)
  let (_, rest) ← pair? 0 60 (← after? ':' rest)
  match rest with
  | '.' :: d :: rest => if d.isDigit then some (rest.dropWhile Char.isDigit) else none
  | '.' :: [] => none
  | rest => some rest

/-- The rest after an offset from universal time, if there is one. -/
def offset? : List Char → Option (List Char)
  | c :: rest =>
    if c = 'Z' ∨ c = 'z' then some rest
    else if c = '+' ∨ c = '-' then do
      let (_, rest) ← pair? 0 23 rest
      let (_, rest) ← pair? 0 59 (← after? ':' rest)
      some rest
    else some (c :: rest)
  | [] => some []

/-- The rest after a time of day and an offset, which a letter or a blank sets off from a date. -/
def timeOfDate? : List Char → Option (List Char)
  | c :: rest => if c = 'T' ∨ c = 't' ∨ c = ' ' then (time? rest).bind offset? else none
  | [] => none

/-- The rest after a moment. -/
def moment? (cs : List Char) : Option (List Char) :=
  match date? cs with
  | some rest => some ((timeOfDate? rest).getD rest)
  | none => time? cs

end QueueScaler.Toml
