import QueueScaler.Toml.Statement
/-!
# TOML documents

## Main definitions

* `Toml.Statement.apply?`: the effect of a statement on the tree of tables.
* `Toml.parse?`: the members of the root table of a document.
-/

namespace QueueScaler.Toml

/-- A document as far as it is read. -/
structure Draft where
  /-- The path of the table that entries go to. -/
  current : List String
  /-- The members of the root table. -/
  root : Members

/-- Takes one statement into account. -/
def Statement.apply? (d : Draft) : Statement → Option Draft
  | .table path key =>
    (within? (openTable? key) path d.root).map fun root ↦ ⟨path ++ [key], root⟩
  | .element path key =>
    (within? (openElement? key) path d.root).map fun root ↦ ⟨path ++ [key], root⟩
  | .entry e =>
    (within? (assign? e.key e.value e.path) d.current d.root).map fun root ↦ { d with root }

/-- The members of the root table of a document. -/
def parse? (s : String) : Option (List (String × Value)) := do
  let d ← (← statements? s.toList).foldlM (fun d s ↦ s.apply? d) ⟨[], []⟩
  some (membersToValues d.root)

end QueueScaler.Toml
