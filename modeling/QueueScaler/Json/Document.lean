import QueueScaler.Json.Basic
import QueueScaler.Table
/-!
# Documents of the program

The JSON values that the program writes: whole numbers, rates, texts, and tables in name order.

## Main definitions

* `Document`: a value with whole numbers and rates.
* `Json.count`, `Json.rate`, `Json.ofTable`: the documents of a number, a rate and a table.
-/

namespace QueueScaler

/-- A document of the program. -/
abbrev Document := Json Json.Figure String

namespace Json

/-- A whole number. -/
def count (n : Int) : Document := .number (.count n)

/-- A rate; a document has no word for one that is not finite. -/
def rate (x : Float) : Document := if x.isFinite then .number (.rate x) else .null

/-- A table, its names in order. -/
def ofTable {α : Type} (value : α → Document) (t : Table α) : Document :=
  .object (t.entries.map fun (name, x) ↦ (name, value x))

end Json

end QueueScaler
