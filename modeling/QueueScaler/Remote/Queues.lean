import QueueScaler.Config.Basic
import QueueScaler.Http.Exchange
import QueueScaler.Json.Record
import QueueScaler.Text.Quoted
/-!
# Depths of queues at a broker

The depth of a queue is the number of its messages that the broker reports. The question goes to the
root of the host in the queue's URL; the URL itself is part of the question. An answer that does not
give a number is a fault, never an empty queue.

## Main definitions

* `QueueAccess.queueUrl`: the URL of a queue.
* `DepthReply.read`: the number of messages in the content of an answer.
* `DepthFault`: why a depth is not known, with its text.
* `QueueAccess.depth`: the depth of a queue.
-/

namespace QueueScaler

/-- The attribute that holds the number of messages. -/
def depthAttribute : String := "ApproximateNumberOfMessages"

/-! ### Answers -/

namespace DepthReply

/-- Why an answer does not give a number. -/
inductive Fault where
  /-- It is no list of attributes. -/
  | unreadable
  /-- The number of messages is not among the attributes. -/
  | absent
  /-- The number of messages is none. -/
  | notACount (value : String)
  deriving DecidableEq

/-- The text of a fault. -/
def Fault.message : Fault → String
  | .unreadable => "parse GetQueueAttributes response"
  | .absent => s!"response lacks {depthAttribute}"
  | .notACount value => s!"invalid {depthAttribute} {Text.quote value}"

/-- The attributes in the content of an answer; none if they are left out. -/
def attributes? (body : List UInt8) : Option (Table String) :=
  match (Json.parse? body).bind (Json.record? ["Attributes"] 0) with
  | some [none] => some ∅
  | some [some attributes] => Json.textTable? attributes
  | _ => none

/-- A number of messages as written: digits, perhaps after a plus sign, that fit into 64 bits. -/
def count? (value : String) : Option Nat := Digits.count? (Nat.pow 2 64) value.toList

/-- The number of messages in the content of an answer. -/
def read (body : List UInt8) : Except Fault Nat :=
  match attributes? body with
  | none => .error .unreadable
  | some attributes =>
    match attributes.get? depthAttribute with
    | none => .error .absent
    | some value =>
      match count? value with
      | none => .error (.notACount value)
      | some n => .ok n

end DepthReply

/-! ### Questions -/

/-- Why a depth is not known. -/
inductive DepthFault where
  /-- The URL of the queue is no URI. -/
  | invalidUrl (url : String)
  /-- The URL of the queue names no host. -/
  | noHost (url : String)
  /-- The exchange with the broker failed. -/
  | exchange (fault : Http.Fault)
  /-- The answer does not give a number. -/
  | reply (queue : String) (fault : DepthReply.Fault)
  deriving DecidableEq

/-- The text of a fault. -/
def DepthFault.message : DepthFault → String
  | .invalidUrl url => s!"invalid queue url {url}"
  | .noHost url => s!"queue url {url} has no host"
  | .exchange fault => fault.message
  | .reply queue fault => s!"depth of queue {queue}: {fault.message}"

namespace QueueAccess

/-- The URL of a queue. -/
def queueUrl (a : QueueAccess) (queue : String) : String := a.urlPrefix ++ queue

/-- The root of the host that a queue's URL names; the scheme is `http` if there is none. -/
def endpoint (url : String) : Except DepthFault String :=
  match Http.Uri.parse? url with
  | none => .error (.invalidUrl url)
  | some uri =>
    match uri.authority? with
    | none => .error (.noHost url)
    | some authority =>
      let scheme := uri.scheme?.getD "http".toList
      .ok (String.ofList scheme ++ "://" ++ String.ofList authority ++ "/")

/-- The content of a question. -/
def question (url : String) : Json Nat String :=
  .object [("AttributeNames", .array [.text depthAttribute]), ("QueueUrl", .text url)]

/-- The depth of a queue as the broker reports it; the limit is in milliseconds. -/
def depth (a : QueueAccess) (network : Http.Network) (limit : Nat) (queue : String) :
    Except DepthFault Nat := do
  let url := a.queueUrl queue
  let endpoint ← endpoint url
  let response ← (Http.send network limit "POST" endpoint
    [("content-type", "application/x-amz-json-1.0"),
      ("x-amz-target", "AmazonSQS.GetQueueAttributes")]
    ((question url).render toString).toUTF8.toList).mapError .exchange
  let response ← (response.expectSuccess s!"GetQueueAttributes for {queue}").mapError .exchange
  (DepthReply.read response.body).mapError (.reply queue)

end QueueAccess

end QueueScaler
