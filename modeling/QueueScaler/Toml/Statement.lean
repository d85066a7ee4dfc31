import QueueScaler.Toml.Moment
import QueueScaler.Toml.Number
import QueueScaler.Toml.Text
import QueueScaler.Toml.Tree
/-!
# Statements of TOML

A document is a sequence of lines: headers of tables, headers of arrays of tables, and keys with
their values.

## Main definitions

* `Toml.keyPath?`: a dotted key.
* `Toml.value?`: a value.
* `Toml.Statement`, `Toml.statement?`: a line that says something.
* `Toml.statements?`: all of them.
-/

namespace QueueScaler.Toml

/-! ### Keys -/

/-- The characters of a key without quotes. -/
def isBare (c : Char) : Bool := c.isAlphanum || c = '_' || c = '-'

/-- One part of a key: bare, or a string on one line. -/
def simpleKey? : List Char → Option (String × List Char)
  | '"' :: rest => (basicText rest).map fun (cs, r) ↦ (String.ofList cs, r)
  | '\'' :: rest => (literalText rest).map fun (cs, r) ↦ (String.ofList cs, r)
  | cs =>
    match cs.takeWhile isBare with
    | [] => none
    | bare => some (String.ofList bare, cs.dropWhile isBare)

/-- The greatest number of tables or arrays inside one another; a key has fewer parts than one more
than this. -/
def maxDepth : Nat := 79

/-- A dotted key, with blanks around each part. -/
def keyPath? (cs : List Char) : Option (List String × List Char) := do
  let part : Scanner Char String := fun cs ↦
    (simpleKey? (skipBlanks cs)).map fun (k, r) ↦ (k, skipBlanks r)
  let (path, rest) ← Scanner.separated part (after? '.') cs.length cs
  if path.length ≤ maxDepth then some (path, rest) else none

/-- A key with its value: the tables on the way to the key, the key, and the value. -/
structure Entry where
  /-- The tables on the way. -/
  path : List String
  /-- The last part of the key. -/
  key : String
  /-- The value. -/
  value : Value

/-- A key, an equals sign and a value. -/
def keyValue? (value : Scanner Char Value) : Scanner Char Entry := fun cs ↦ do
  let (path, rest) ← keyPath? cs
  let key ← path.getLast?
  let (v, rest) ← value (skipBlanks (← after? '=' rest))
  some (⟨path.dropLast, key, v⟩, rest)

/-! ### Values -/

/-- A moment or a number, told from one another by what follows the first digits. -/
def numeric? (cs : List Char) : Option (Value × List Char) :=
  match moment? cs with
  | some rest => some (.moment (String.ofList (cs.take (cs.length - rest.length))), rest)
  | none =>
    match float? cs with
    | some (x, rest) => some (.float x, rest)
    | none => (integer? cs).map fun (n, rest) ↦ (.integer n, rest)

/-- The members that the entries of an inline table come to. -/
def inlineMembers? (entries : List Entry) : Option Members :=
  entries.foldlM (fun members e ↦ assign? e.key e.value e.path members) []

/-- A value, with at most `depth` arrays and inline tables inside one another. -/
def value? (depth : Nat) : Scanner Char Value := fun cs ↦
  match cs with
  | [] => none
  | c :: rest =>
    if c = '"' ∨ c = '\'' then (string? cs).map fun (s, r) ↦ (.text s, r)
    else if c = '[' then
      match depth with
      | 0 => none
      | depth + 1 =>
        let element : Scanner Char Value := fun cs ↦
          (value? depth (skipGaps false cs)).map fun (v, r) ↦ (v, skipGaps false r)
        let (vs, rest) := Scanner.separated₀ element (after? ',') rest
        let rest := if vs.isEmpty then rest else (after? ',' rest).getD rest
        (after? ']' (skipGaps false rest)).map fun r ↦ (.array vs, r)
    else if c = '\x7b' then
      match depth with
      | 0 => none
      | depth + 1 =>
        let member : Scanner Char Entry := fun cs ↦
          (keyValue? (value? depth) cs).map fun (e, r) ↦ (e, skipBlanks r)
        let (es, rest) := Scanner.separated₀ member (after? ',') rest
        (inlineMembers? es).bind fun members ↦
          (after? '\x7d' (skipBlanks rest)).map fun r ↦ (.table (membersToValues members), r)
    else if c = 't' then (Scanner.literal? "true".toList cs).map fun r ↦ (.boolean true, r)
    else if c = 'f' then (Scanner.literal? "false".toList cs).map fun r ↦ (.boolean false, r)
    else if c = 'i' ∨ c = 'n' then (namedFloat? cs).map fun (x, r) ↦ (.float x, r)
    else if c = '+' ∨ c = '-' ∨ c.isDigit then numeric? cs
    else none

/-! ### Lines -/

/-- What a line of a document says. -/
inductive Statement where
  /-- The entries below belong to this table. -/
  | table (path : List String) (key : String)
  /-- The entries below belong to a new element of this array of tables. -/
  | element (path : List String) (key : String)
  /-- A key has a value. -/
  | entry (entry : Entry)

/-- A line that says something, up to its end. -/
def statement? : Scanner Char Statement
  | '[' :: '[' :: rest => do
    let (path, rest) ← keyPath? rest
    let key ← path.getLast?
    let rest ← lineEnd? (← after? ']' (← after? ']' rest))
    some (.element path.dropLast key, rest)
  | '[' :: rest => do
    let (path, rest) ← keyPath? rest
    let key ← path.getLast?
    let rest ← lineEnd? (← after? ']' rest)
    some (.table path.dropLast key, rest)
  | cs => do
    let (e, rest) ← keyValue? (value? maxDepth) cs
    some (.entry e, ← lineEnd? rest)

/-- The statements of at most `bound` lines that say something. -/
def statementsUpTo? : Nat → List Char → Option (List Statement)
  | 0 => fun _ ↦ none
  | bound + 1 => fun cs ↦
    match skipGaps false cs with
    | [] => some []
    | cs => do
      let (s, rest) ← statement? cs
      (statementsUpTo? bound rest).map (s :: ·)

/-- The statements of a text, after an optional byte order mark. -/
def statements? (cs : List Char) : Option (List Statement) :=
  match cs with
  | '\ufeff' :: rest => statementsUpTo? (rest.length + 1) rest
  | cs => statementsUpTo? (cs.length + 1) cs

end QueueScaler.Toml
