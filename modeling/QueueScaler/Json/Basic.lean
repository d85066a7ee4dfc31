/-!
# JSON values and their text

A JSON value over a type of numbers and a type of texts. What is read keeps numbers and texts as
they were written, what is written has numbers and texts of the program, so both are parameters.

## Main definitions

* `Json`: the values.
* `Json.render`: the compact text of a value.
* `Json.Figure`: the numbers of a document that the program writes.
-/

namespace QueueScaler

/-- A JSON value, with numbers from `ν` and texts from `τ`. The members of an object stay in the
order given, repetitions included. -/
inductive Json (ν τ : Type) where
  /-- No value. -/
  | null
  /-- A truth value. -/
  | bool (value : Bool)
  /-- A number. -/
  | number (value : ν)
  /-- A text. -/
  | text (value : τ)
  /-- A list of values. -/
  | array (elements : List (Json ν τ))
  /-- Named values. -/
  | object (members : List (τ × Json ν τ))

namespace Json

variable {ν τ : Type}

/-- A character inside the quotes of a text. Quote, backslash and controls are escaped, everything
else stands for itself. -/
def escapeChar (c : Char) : List Char :=
  if c = '"' then ['\\', '"']
  else if c = '\\' then ['\\', '\\']
  else if c = '\n' then ['\\', 'n']
  else if c = '\r' then ['\\', 'r']
  else if c = '\t' then ['\\', 't']
  else if c = '\x08' then ['\\', 'b']
  else if c = '\x0c' then ['\\', 'f']
  else if c.toNat < 0x20 then
    let digits := Nat.toDigits 16 c.toNat
    ['\\', 'u'] ++ List.replicate (4 - digits.length) '0' ++ digits
  else [c]

/-- A text in quotes. -/
def quote (s : String) : String := String.ofList ('"' :: s.toList.flatMap escapeChar ++ ['"'])

mutual

/-- The compact text of a value, with the given text of its numbers. -/
def render (figure : ν → String) : Json ν String → String
  | .null => "null"
  | .bool value => if value then "true" else "false"
  | .number value => figure value
  | .text value => quote value
  | .array elements => "[" ++ String.intercalate "," (renderElements figure elements) ++ "]"
  | .object members => "\x7b" ++ String.intercalate "," (renderMembers figure members) ++ "\x7d"

/-- The texts of the elements of an array. -/
def renderElements (figure : ν → String) : List (Json ν String) → List String
  | [] => []
  | element :: rest => render figure element :: renderElements figure rest

/-- The texts of the members of an object. -/
def renderMembers (figure : ν → String) : List (String × Json ν String) → List String
  | [] => []
  | (name, value) :: rest =>
    (quote name ++ ":" ++ render figure value) :: renderMembers figure rest

end

/-- A number of a document that the program writes. -/
inductive Figure where
  /-- A whole number. -/
  | count (value : Int)
  /-- A rate. -/
  | rate (value : Float)

end Json

end QueueScaler
