import QueueScaler.Http.StatusCode
import QueueScaler.Http.Uri
import QueueScaler.Text.Utf8
/-!
# Exchanges

One request over one connection, and its response. Only plain connections are made: the scheme has
to be `http`. Without a port that is a number the connection goes to port 80.

## Main definitions

* `Http.Request`, `Http.Response`: what goes over the connection.
* `Http.Network`: what the other side does.
* `Http.Fault`: why an exchange fails, with its text.
* `Http.Destination.ofUrl`: where a URL leads.
* `Http.send`: a whole exchange.
* `Http.Response.expectSuccess`: a response that does not report success is a fault.
-/

namespace QueueScaler.Http

/-! ### What goes over a connection -/

/-- A request. -/
structure Request where
  /-- The method. -/
  method : String
  /-- What is asked for. -/
  target : String
  /-- The headers, their names in lower case. -/
  headers : List (String × String)
  /-- The content. -/
  body : List UInt8
  deriving DecidableEq

/-- A response, received in full. -/
structure Response where
  /-- The status code. -/
  status : Nat
  /-- The content. -/
  body : List UInt8
  deriving DecidableEq

/-- The content of a response as text. -/
def Response.text (r : Response) : String := Text.decodeLossy r.body

/-- Where a connection goes. -/
structure Address where
  /-- The host. -/
  host : String
  /-- The port. -/
  port : Nat
  deriving DecidableEq

/-- The text of an address. -/
def Address.text (a : Address) : String := s!"{a.host}:{a.port}"

/-- What becomes of a request. -/
inductive Reception where
  /-- It is answered. -/
  | answered (response : Response)
  /-- The connection ends without a response. -/
  | dropped
  /-- The connection ends within the response. -/
  | truncated
  /-- Nothing comes in time. -/
  | stalled

/-- The other side: whether an address accepts connections, and what it makes of a request. -/
abbrev Network := Address → Option (Request → Reception)

/-! ### Faults -/

/-- Why an exchange fails. -/
inductive Fault where
  /-- The URL is no URI. -/
  | invalidUrl (url : String)
  /-- The URL does not have the scheme `http`. -/
  | unsupportedUrl (url : String)
  /-- No connection can be made. -/
  | unreachable (address : Address)
  /-- The request cannot be written down. -/
  | invalidRequest
  /-- There was no response. -/
  | unanswered (url : String)
  /-- The response was cut short. -/
  | truncated (url : String)
  /-- The response did not come in time; the limit is in milliseconds. -/
  | timedOut (url : String) (limit : Nat)
  /-- The response does not report success. -/
  | unsuccessful (operation : String) (response : Response)
  deriving DecidableEq

/-- The most characters of a response's content that a fault shows. -/
def maxDetail : Nat := 512

/-- The text of a fault. -/
def Fault.message : Fault → String
  | .invalidUrl url => s!"invalid url {url}"
  | .unsupportedUrl url => s!"unsupported url {url}: only http is supported"
  | .unreachable address => s!"connect to {address.text}"
  | .invalidRequest => "build http request"
  | .unanswered url => s!"request to {url}"
  | .truncated url => s!"read response from {url}"
  | .timedOut url limit => s!"request to {url} timed out after {limit}ms"
  | .unsuccessful operation response =>
    operation ++ " failed with status " ++ StatusCode.text response.status ++ ": " ++
      String.ofList (response.text.toList.take maxDetail)

/-- The response itself if it reports success. -/
def Response.expectSuccess (r : Response) (operation : String) : Except Fault Response :=
  if StatusCode.isSuccess r.status then .ok r else .error (.unsuccessful operation r)

/-! ### Sending -/

/-- Where a URL leads. -/
structure Destination where
  /-- Where the connection goes. -/
  address : Address
  /-- The authority as written. -/
  authority : String
  /-- What is asked for. -/
  target : String
  deriving DecidableEq

/-- The port of a URL that does not give one. -/
def defaultPort : Nat := 80

/-- Where a URL leads, if it has the scheme `http`. -/
def Destination.ofUrl (url : String) : Except Fault Destination :=
  match Uri.parse? url with
  | none => .error (.invalidUrl url)
  | some (.absolute scheme authority target) =>
    if scheme = "http".toList then
      .ok {
        address :=
          ⟨String.ofList (Authority.host authority), (Authority.port? authority).getD defaultPort⟩
        authority := String.ofList authority
        target := String.ofList target }
    else .error (.unsupportedUrl url)
  | some _ => .error (.unsupportedUrl url)

/-- Whether a text can be the name of a header. -/
def isHeaderName (name : String) : Bool :=
  !name.isEmpty &&
    name.toList.all fun c ↦ c.isAlphanum || "!#$%&'*+-.^_\x60|~".toList.contains c

/-- Whether a text can be the value of a header: no controls but the tabulator. -/
def isHeaderValue (value : String) : Bool :=
  value.toList.all fun c ↦ (' ' ≤ c && c ≠ '\x7f') || c = '\t'

/-- Whether a target can stand in the first line of a request: as a URI it is a path. -/
def isRequestTarget (target : String) : Bool :=
  match Uri.parse? target with
  | some (.path _) => true
  | _ => false

/-- What the client calls itself. -/
def userAgent : String := "cascade/0.1"

/-- The request to a destination, if it can be written down. Host and client come first. -/
def Request.build? (d : Destination) (method : String) (headers : List (String × String))
    (body : List UInt8) : Option Request :=
  if isRequestTarget d.target ∧
      headers.all (fun (name, value) ↦ isHeaderName name && isHeaderValue value) then
    some {
      method
      target := d.target
      headers := ("host", d.authority) :: ("user-agent", userAgent) ::
        headers.map fun (name, value) ↦ (String.ofList (name.toList.map Char.toLower), value)
      body }
  else none

/-- What comes of a request that has been sent. -/
def Reception.result (url : String) (limit : Nat) : Reception → Except Fault Response
  | .answered response => .ok response
  | .dropped => .error (.unanswered url)
  | .truncated => .error (.truncated url)
  | .stalled => .error (.timedOut url limit)

/-- Sends a request and waits for the whole response, up to a limit in milliseconds. The connection
is made before the request is written down. -/
def send (network : Network) (limit : Nat) (method url : String)
    (headers : List (String × String)) (body : List UInt8) : Except Fault Response :=
  match Destination.ofUrl url with
  | .error fault => .error fault
  | .ok destination =>
    match network destination.address with
    | none => .error (.unreachable destination.address)
    | some receive =>
      match Request.build? destination method headers body with
      | none => .error .invalidRequest
      | some request => (receive request).result url limit

end QueueScaler.Http
