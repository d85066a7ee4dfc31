import QueueScaler.Json.Reader
import QueueScaler.Table
/-!
# Records in JSON

A record is an object with known members, or an array of their values in a fixed order. An object
may have further members, which are passed over without a look at their values, and their order does
not matter; an array may leave out members at its end, but has none to spare.

## Main definitions

* `Json.record?`: the members of a record.
* `Json.textTable?`: an object whose values are texts.
-/

namespace QueueScaler.Json

/-- The members of an object with their names read; refused if a name is not Unicode. -/
def namedMembers? : Source → Option (List (String × Source))
  | .object members =>
    members.mapM fun (name, value) ↦ (decodeText? name).map (·, value)
  | _ => none

/-- The value of a member that may occur once; the outer `none` if it occurs more often. -/
def member? (members : List (String × Source)) (name : String) : Option (Option Source) :=
  match members.filter fun m ↦ m.1 = name with
  | [] => some none
  | [(_, value)] => some (some value)
  | _ => none

/-- The values of the named members of a record, `none` for those that are not there. An array has
to hold at least the first `needed` of them. -/
def record? (names : List String) (needed : Nat) : Source → Option (List (Option Source))
  | .array values =>
    if needed ≤ values.length ∧ values.length ≤ names.length then
      some (values.map some ++ List.replicate (names.length - values.length) none)
    else none
  | value => (namedMembers? value).bind fun members ↦ names.mapM (member? members)

/-- A text. -/
def text? : Source → Option String
  | .text pieces => decodeText? pieces
  | _ => none

/-- An object whose values are texts. Of values under the same name the last counts. -/
def textTable? (value : Source) : Option (Table String) := do
  let members ← namedMembers? value
  let entries ← members.mapM fun (name, value) ↦ (text? value).map (name, ·)
  some (Table.ofList entries)

end QueueScaler.Json
