import QueueScaler.Config.Basic
import QueueScaler.Http.Exchange
import QueueScaler.Json.Record
/-!
# Deployments of a cluster

The services are deployments of the same names in one namespace of a cluster. Their replicas are
listed all at once, and a deployment is scaled by replacing its replica count.

## Main definitions

* `DeploymentListing.read?`: the replicas in the content of a listing.
* `DeploymentFault`: why a call fails, with its text.
* `DeploymentAccess.listing`: the replicas of all deployments.
* `DeploymentAccess.scale`: gives a deployment a number of replicas.
-/

namespace QueueScaler

namespace DeploymentListing

/-- The replicas of a deployment that does not say how many it has. -/
def defaultReplicas : Nat := 1

/-- The replica count of a specification. -/
def replicas? (spec : Json.Source) : Option Nat :=
  match Json.record? ["replicas"] 1 spec with
  | some [none] => some defaultReplicas
  | some [some .null] => some defaultReplicas
  | some [some (.number n)] => n.toNat?.filter (· < Nat.pow 2 32)
  | _ => none

/-- The name among the metadata of a deployment. -/
def name? (metadata : Json.Source) : Option String :=
  match Json.record? ["name"] 1 metadata with
  | some [some name] => Json.text? name
  | _ => none

/-- The name of a deployment and its replicas. -/
def deployment? (item : Json.Source) : Option (String × Nat) :=
  match Json.record? ["metadata", "spec"] 1 item with
  | some [some metadata, none] => (name? metadata).map (·, defaultReplicas)
  | some [some metadata, some spec] =>
    match name? metadata, replicas? spec with
    | some name, some replicas => some (name, replicas)
    | _, _ => none
  | _ => none

/-- The replicas in the content of a listing. Of deployments of the same name the last counts. -/
def read? (body : List UInt8) : Option (Table Nat) :=
  match (Json.parse? body).bind (Json.record? ["items"] 1) with
  | some [some (.array items)] => (items.mapM deployment?).map Table.ofList
  | _ => none

end DeploymentListing

/-- Why a call to the cluster fails. -/
inductive DeploymentFault where
  /-- The exchange failed. -/
  | exchange (fault : Http.Fault)
  /-- The answer is no listing. -/
  | unreadable
  deriving DecidableEq

/-- The text of a fault. -/
def DeploymentFault.message : DeploymentFault → String
  | .exchange fault => fault.message
  | .unreadable => "parse deployment list"

namespace DeploymentAccess

/-- The URL of all deployments. Slashes at the end of the interface's address do not count. -/
def deploymentsUrl (a : DeploymentAccess) : String :=
  String.ofList (a.apiUrl.toList.reverse.dropWhile (· = '/')).reverse ++
    "/apis/apps/v1/namespaces/" ++ a.nameSpace ++ "/deployments"

/-- The URL of a deployment. -/
def deploymentUrl (a : DeploymentAccess) (name : String) : String :=
  a.deploymentsUrl ++ "/" ++ name

/-- The change that replaces a replica count. -/
def replacement (replicas : Nat) : Json Nat String :=
  .array [.object [("op", .text "replace"), ("path", .text "/spec/replicas"),
    ("value", .number replicas)]]

/-- The replicas of all deployments; the limit is in milliseconds. -/
def listing (a : DeploymentAccess) (network : Http.Network) (limit : Nat) :
    Except DeploymentFault (Table Nat) := do
  let response ← (Http.send network limit "GET" a.deploymentsUrl [("accept", "application/json")]
    []).mapError .exchange
  let response ← (response.expectSuccess "list deployments").mapError .exchange
  match DeploymentListing.read? response.body with
  | some replicas => .ok replicas
  | none => .error .unreadable

/-- Gives a deployment a number of replicas; the limit is in milliseconds. -/
def scale (a : DeploymentAccess) (network : Http.Network) (limit : Nat) (name : String)
    (replicas : Nat) : Except DeploymentFault Unit := do
  let response ← (Http.send network limit "PATCH" (a.deploymentUrl name)
    [("content-type", "application/json-patch+json"), ("accept", "application/json")]
    ((replacement replicas).render toString).toUTF8.toList).mapError .exchange
  let _ ← (response.expectSuccess s!"scale deployment {name}").mapError .exchange
  .ok ()

end DeploymentAccess

end QueueScaler
