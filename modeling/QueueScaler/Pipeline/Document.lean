import QueueScaler.Json.Document
import QueueScaler.Pipeline.Wiring
/-!
# Wirings as documents

## Main definitions

* `Binding.document`, `Wiring.document`: a binding and a wiring as documents.
-/

namespace QueueScaler

/-- A binding as a document. -/
def Binding.document (b : Binding Float) : Document :=
  .object [("service", .text b.service), ("consumption_rate", .rate b.consumptionRate),
    ("produces", .ofTable .rate b.produces)]

/-- A wiring as a document: its bindings by queue. -/
def Wiring.document (w : Wiring Float) : Document :=
  .object [("queues", .ofTable Binding.document w)]

end QueueScaler
