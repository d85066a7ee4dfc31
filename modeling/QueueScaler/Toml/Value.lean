/-!
# TOML values

## Main definitions

* `Toml.Value`: the values of a document.
* `Toml.Value.member?`: the value of a key in a table.
-/

namespace QueueScaler.Toml

/-- A value of a document. -/
inductive Value where
  /-- A string. -/
  | text (value : String)
  /-- A whole number of 64 bits. -/
  | integer (value : Int)
  /-- A binary64 number. -/
  | float (value : Float)
  /-- A truth value. -/
  | boolean (value : Bool)
  /-- A date, a time of day, or both, as written. -/
  | moment (written : String)
  /-- A list of values. -/
  | array (elements : List Value)
  /-- Values by key; no key occurs twice. -/
  | table (members : List (String × Value))

/-- The value of a key in a list of members. -/
def member? {α : Type} (members : List (String × α)) (key : String) : Option α :=
  (members.find? (·.1 = key)).map Prod.snd

end QueueScaler.Toml
