import QueueScaler.Config.Basic
import QueueScaler.Text.Utf8
import QueueScaler.Toml.Document
/-!
# Reading a configuration

A configuration is written in TOML. A section is a table, whose keys must all be known, or a list of
its fields in their order; what a list holds beyond them is passed over.

## Main definitions

* `Config.Record`: a section with its fields.
* `Config.Written.ofToml?`: the configuration that a document writes.
* `Config.ofString`, `Config.ofBytes`: the configuration of a text and of a file's bytes.
-/

namespace QueueScaler.Config

open Toml (Value)

/-! ### Fields of a section -/

/-- Where the fields of a section are found. -/
inductive Layout where
  /-- By their names. -/
  | named (members : List (String × Value))
  /-- By their order. -/
  | listed (elements : List Value)

/-- A section with the names of its fields in order. -/
structure Record where
  /-- The names of the fields. -/
  fields : List String
  /-- Where their values are. -/
  layout : Layout

/-- The section that a value writes, if it is a table of known keys or a list. -/
def Record.of? (fields : List String) : Value → Option Record
  | .table members =>
    if members.all fun m ↦ fields.contains m.1 then some ⟨fields, .named members⟩ else none
  | .array elements => some ⟨fields, .listed elements⟩
  | _ => none

namespace Record

variable {α : Type} (r : Record)

/-- The value of a field, if it is there. -/
def value? (field : String) : Option Value :=
  match r.layout with
  | .named members => Toml.member? members field
  | .listed elements => elements[r.fields.idxOf field]?

/-- A field that must be there. -/
def required (field : String) (read : Value → Option α) : Option α := (r.value? field).bind read

/-- A field with a default. -/
def withDefault (field : String) (read : Value → Option α) (default : α) : Option α :=
  match r.value? field with
  | some v => read v
  | none => some default

/-- A field that may be missing from a table; a list must hold it. -/
def optional (field : String) (read : Value → Option α) : Option (Option α) :=
  match r.value? field, r.layout with
  | some v, _ => (read v).map some
  | none, .named _ => some none
  | none, .listed _ => none

end Record

/-! ### Values -/

/-- A string. -/
def text? : Value → Option String
  | .text s => some s
  | _ => none

/-- A truth value. -/
def truth? : Value → Option Bool
  | .boolean b => some b
  | _ => none

/-- A number; a whole one stands for the binary64 number nearest to it. -/
def rate? : Value → Option Float
  | .float x => some x
  | .integer n => some (Decimal.nearest (n < 0) ⟨n.natAbs, 0⟩)
  | _ => none

/-- A whole number from zero to below a bound. -/
def count? (bound : Nat) : Value → Option Nat
  | .integer n => if 0 ≤ n ∧ n < bound then some n.toNat else none
  | _ => none

/-- A whole number that fits in 64 bits. -/
def seconds? : Value → Option Nat := count? (Nat.pow 2 64)

/-- A table of values of one kind. -/
def table? {α : Type} (read : Value → Option α) : Value → Option (Table α)
  | .table members =>
    (members.mapM fun m ↦ (read m.2).map (m.1, ·)).map Table.ofList
  | _ => none

/-! ### Sections -/

/-- The strategy that a section writes. -/
def strategy? (v : Value) : Option (Strategy Float) := do
  let r ← Record.of? ["export_metrics", "scaling_enabled", "follow_up_scaling_enabled",
    "queue_decrease_per_minute", "down_scale_stabilization_seconds", "max_number_of_pods"] v
  some {
    exportMetrics := ← r.withDefault "export_metrics" truth? true
    scalingEnabled := ← r.required "scaling_enabled" truth?
    followUpEnabled := ← r.required "follow_up_scaling_enabled" truth?
    decreasePerMinute := ← r.required "queue_decrease_per_minute" rate?
    stabilizationSeconds := ← r.required "down_scale_stabilization_seconds" seconds?
    maxReplicas := ← r.required "max_number_of_pods" (count? (Nat.pow 2 32)) }

/-- The timing that a section writes. -/
def controlLoop? (v : Value) : Option ControlLoop := do
  let r ← Record.of? ["interval_secs", "call_timeout_secs"] v
  some ⟨← r.withDefault "interval_secs" seconds? 1,
    ← r.withDefault "call_timeout_secs" seconds? 5⟩

/-- The deployments that a section writes. -/
def deployments? (v : Value) : Option DeploymentAccess := do
  let r ← Record.of? ["api_url", "namespace"] v
  some ⟨← r.withDefault "api_url" text? defaultApiUrl, ← r.required "namespace" text?⟩

/-- The broker that a section writes. -/
def broker? (v : Value) : Option QueueAccess := do
  let r ← Record.of? ["queue_url_prefix"] v
  some ⟨← r.required "queue_url_prefix" text?⟩

/-- The queue that a section writes. -/
def queue? (v : Value) : Option (WrittenQueue Float) := do
  let r ← Record.of? ["service", "consumption_rate", "produces"] v
  some ⟨← r.withDefault "service" text? "", ← r.optional "consumption_rate" rate?,
    ← r.withDefault "produces" (table? rate?) ∅⟩

/-- The configuration that a document writes, given the members of its root table. -/
def Written.ofToml? (members : List (String × Value)) : Option (Written Float) := do
  let r ← Record.of? ["application", "strategy", "control_loop", "kubernetes", "sqs", "queues"]
    (.table members)
  some {
    application := ← r.withDefault "application" text? defaultApplication
    strategy := ← r.required "strategy" strategy?
    controlLoop := ← r.withDefault "control_loop" controlLoop? {}
    deployments := ← r.optional "kubernetes" deployments?
    broker := ← r.optional "sqs" broker?
    queues := ← r.withDefault "queues" (table? queue?) ∅ }

/-! ### Documents -/

/-- The configuration of a text, or its first fault. -/
def ofString (s : String) : Except (ConfigFault Float) (Config Float) :=
  match (Toml.parse? s).bind Written.ofToml? with
  | none => .error .malformed
  | some written => written.check

/-- The configuration of a file, given its bytes if it is there. -/
def ofBytes (bytes : Option (List UInt8)) : Except (ConfigFault Float) (Config Float) :=
  match bytes.bind Text.decode? with
  | none => .error .unreadable
  | some s => ofString s

end QueueScaler.Config
