import QueueScaler.Toml.Value
/-!
# Growing a tree of tables

A document names its tables piecemeal: by headers, by dotted keys, and by the tables these imply on
the way. A table may be named by one header only, a table that dotted keys have made may get no
header, and no key may be given twice. The tree remembers of each table how it came about.

## Main definitions

* `Toml.Node`: a value, a table with its origin, or an array of tables.
* `Toml.assign?`: gives a dotted key a value.
* `Toml.within?`: works on the table at a path.
* `Toml.openTable?`, `Toml.openElement?`: what a header does to the table it lies in.
* `Toml.Node.toValue`: the tree as a value.
-/

namespace QueueScaler.Toml

/-- How a table came about. -/
inductive Origin where
  /-- A header names it. -/
  | header
  /-- A header below it implies it. -/
  | implied
  /-- A dotted key goes through it. -/
  | dotted
  deriving DecidableEq

/-- A part of the tree. -/
inductive Node where
  /-- A value in itself. -/
  | leaf (value : Value)
  /-- A table under construction. -/
  | table (origin : Origin) (members : List (String × Node))
  /-- An array of tables under construction, the latest first. -/
  | tables (elements : List (List (String × Node)))

/-- The members of a table under construction. -/
abbrev Members := List (String × Node)

/-- Puts a node in the place of another, or at the end. -/
def setMember (members : Members) (key : String) (node : Node) : Members :=
  if members.any (·.1 = key) then members.map fun m ↦ if m.1 = key then (key, node) else m
  else members ++ [(key, node)]

/-- Gives the last key of a dotted key a value. The tables on the way are made if they are missing;
a table that has a header cannot be entered, and the last one must be made by dotted keys alone. -/
def assign? (key : String) (value : Value) : List String → Members → Option Members
  | [], members =>
    match member? members key with
    | some _ => none
    | none => some (setMember members key (.leaf value))
  | step :: path, members =>
    match member? members step with
    | none =>
      (assign? key value path []).map fun inner ↦
        setMember members step (.table .dotted inner)
    | some (.leaf _) => none
    | some (.table origin inner) =>
      if origin = .header ∨ (path.isEmpty ∧ origin ≠ .dotted) then none
      else (assign? key value path inner).map fun inner ↦
        setMember members step (.table origin inner)
    | some (.tables []) => none
    | some (.tables (latest :: before)) =>
      if path.isEmpty then none
      else (assign? key value path latest).map fun latest ↦
        setMember members step (.tables (latest :: before))

/-- Works on the table at a path, the latest of an array of tables at each step. The tables on the
way are implied if they are missing. -/
def within? (change : Members → Option Members) : List String → Members → Option Members
  | [], members => change members
  | step :: path, members =>
    match member? members step with
    | none =>
      (within? change path []).map fun inner ↦ setMember members step (.table .implied inner)
    | some (.leaf _) => none
    | some (.table origin inner) =>
      (within? change path inner).map fun inner ↦ setMember members step (.table origin inner)
    | some (.tables []) => none
    | some (.tables (latest :: before)) =>
      (within? change path latest).map fun latest ↦
        setMember members step (.tables (latest :: before))

/-- Names a table by a header; it must be new or only implied so far. -/
def openTable? (key : String) (members : Members) : Option Members :=
  match member? members key with
  | none => some (setMember members key (.table .header []))
  | some (.table .implied inner) => some (setMember members key (.table .header inner))
  | some _ => none

/-- Adds a table to an array of tables. -/
def openElement? (key : String) (members : Members) : Option Members :=
  match member? members key with
  | none => some (setMember members key (.tables [[]]))
  | some (.tables elements) => some (setMember members key (.tables ([] :: elements)))
  | some _ => none

mutual

/-- The value of a part of the tree. -/
def Node.toValue : Node → Value
  | .leaf value => value
  | .table _ members => .table (membersToValues members)
  | .tables elements => .array (elementsToValues elements).reverse

/-- The values of the members of a table. -/
def membersToValues : List (String × Node) → List (String × Value)
  | [] => []
  | (key, node) :: rest => (key, node.toValue) :: membersToValues rest

/-- The values of the tables of an array. -/
def elementsToValues : List (List (String × Node)) → List Value
  | [] => []
  | members :: rest => .table (membersToValues members) :: elementsToValues rest

end

end QueueScaler.Toml
