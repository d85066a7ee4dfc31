import QueueScaler.Http.Uri
import QueueScaler.Json.Document
import QueueScaler.Metrics.Exposition
import QueueScaler.Scaling.Tick
/-!
# The status interface

Three routes that show what the autoscaler is doing: whether it lives, its last report, and its
gauges. Only reading is allowed.

## Main definitions

* `Report.members`: the members of a report as a document.
* `Status.Response`: a response.
* `Status.route?`, `Status.respond`: the routes, and the response to a request.
-/

namespace QueueScaler

/-- A decision as a document. -/
def Decision.document : Decision → Document
  | .scaleUp current target =>
    .object [("action", .text "scale_up"), ("from", .count current), ("to", .count target)]
  | .scaleDown current target =>
    .object [("action", .text "scale_down"), ("from", .count current), ("to", .count target)]
  | .stabilizing current remainingSeconds =>
    .object [("action", .text "stabilizing"), ("current", .count current),
      ("remaining_secs", .count remainingSeconds)]
  | .noChange => .object [("action", .text "no_change")]

/-- The members of a report as a document, without the moment when the tick started; `rate` says how
a rate is written. -/
def Report.members {R : Type} (rate : R → Document) (r : Report R) : List (String × Document) :=
  [("scaling_enabled", .bool r.scalingEnabled),
    ("depths", .ofTable (fun (n : Nat) ↦ .count n) r.depths),
    ("failed_queues", .ofTable (.text ·.message) r.failedQueues),
    ("origin_rates", .ofTable rate r.originRates),
    ("follow_up_rates", .ofTable rate r.followUpRates),
    ("total_rates", .ofTable rate r.totalRates),
    ("replica_demand", .ofTable (fun (n : Nat) ↦ .count n) r.demand),
    ("current_replicas", .ofTable (fun (n : Nat) ↦ .count n) r.currentReplicas),
    ("decisions", .ofTable Decision.document r.decisions),
    ("skipped_services", .ofTable (.text ·.message) r.skipped),
    ("applied", .ofTable (fun (n : Nat) ↦ .count n) r.applied),
    ("failed_commands", .ofTable (.text ·.message) r.failedCommands)]

namespace Status

/-- The body of a response. -/
inductive Body where
  /-- Nothing. -/
  | empty
  /-- Plain text. -/
  | text (content : String)
  /-- A document. -/
  | document (content : Document)

/-- A response. -/
structure Response where
  /-- The status code. -/
  code : Nat
  /-- The type of the content, if there is any. -/
  contentType : Option String
  /-- The content. -/
  body : Body

/-- The document of the status route. -/
def overview (m : Memory Float) : Document :=
  .object [("success", .bool true),
    ("data", .object [
      ("application", .text m.gauges.application),
      ("last_scale_up", .ofTable (fun (n : Nat) ↦ .count n) m.history.epochSeconds),
      ("queues", .array (m.gauges.values.entries.map fun (queue, gauge) ↦
        .object [("queue", .text queue), ("value", .count gauge.value),
          ("updated_at", .count gauge.sampledAt.epochSeconds)])),
      ("last_tick",
        match m.lastReport with
        | none => .null
        | some r =>
          .object (("started_at", .count r.startedAt.epochSeconds) ::
            r.members Json.rate))])]

/-- What a route shows. The metrics have a route only if they are exported. -/
def route? (m : Memory Float) (exportMetrics : Bool) (path : String) : Option Response :=
  if path = "/healthz" then some ⟨200, some "text/plain; charset=utf-8", .text "ok"⟩
  else if path = "/status" then some ⟨200, some "application/json", .document (overview m)⟩
  else if path = "/metrics" ∧ exportMetrics then
    some ⟨200, some "text/plain; version=0.0.4; charset=utf-8", .text m.gauges.render⟩
  else none

/-- The path of a request target, without its query. A target that names nothing but a host has an
empty path. -/
def pathOf (target : String) : String :=
  match Http.Uri.parse? target with
  | some (.path target) => String.ofList (target.takeWhile (· ≠ '?'))
  | some (.absolute _ _ target) => String.ofList (target.takeWhile (· ≠ '?'))
  | _ => ""

/-- The response to a request. A request for the head of a route gets everything but the body. -/
def respond (m : Memory Float) (exportMetrics : Bool) (method target : String) : Response :=
  match route? m exportMetrics (pathOf target) with
  | none => ⟨404, none, .empty⟩
  | some response =>
    if method = "GET" then response
    else if method = "HEAD" then { response with body := .empty }
    else ⟨405, none, .empty⟩

end Status

end QueueScaler
