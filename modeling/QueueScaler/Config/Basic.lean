import QueueScaler.Pipeline.Basic
/-!
# Configurations

A configuration as it is written, and a configuration that has passed every check. The checks have a
fixed order, and the first that fails is reported.

## Main definitions

* `Strategy`, `ControlLoop`, `DeploymentAccess`, `QueueAccess`: the sections of a configuration.
* `Config.Written`: a configuration as written.
* `Config`: a configuration whose queues form a pipeline.
* `ConfigFault`: why a configuration is refused, with its text.
* `Config.Written.check`: the checks, in their order.
-/

namespace QueueScaler

variable {R : Type}

/-- How aggressively to scale. -/
structure Strategy (R : Type) where
  /-- Whether queue depths are exported as metrics. -/
  exportMetrics : Bool
  /-- Whether anything is scaled at all. -/
  scalingEnabled : Bool
  /-- Whether demand is forecast downstream. -/
  followUpEnabled : Bool
  /-- The share of a queue's depth to be drained per minute. -/
  decreasePerMinute : R
  /-- How many seconds after its last scale-up a service may be scaled down. -/
  stabilizationSeconds : Nat
  /-- The most replicas that any service gets. -/
  maxReplicas : Nat
  deriving DecidableEq

/-- The timing of the control loop. -/
structure ControlLoop where
  /-- The seconds between two ticks. -/
  intervalSeconds : Nat := 1
  /-- The seconds after which an external call is given up. -/
  callTimeoutSeconds : Nat := 5
  deriving DecidableEq

/-- Where the deployments are. -/
structure DeploymentAccess where
  /-- The address of the interface. -/
  apiUrl : String
  /-- The namespace of the deployments. -/
  nameSpace : String
  deriving DecidableEq

/-- Where the queues are. -/
structure QueueAccess where
  /-- What stands before a queue's name in its address. -/
  urlPrefix : String
  deriving DecidableEq

/-- The application label of a configuration that does not name one. -/
def Config.defaultApplication : String := "cascade"

/-- The address of the deployments of a configuration that does not give one. -/
def Config.defaultApiUrl : String := "http://127.0.0.1:8001"

/-- A queue as written. -/
structure Config.WrittenQueue (R : Type) where
  /-- The service that drains the queue. -/
  service : String
  /-- The messages per minute that one replica consumes, if given. -/
  consumptionRate : Option R
  /-- For each downstream queue, the messages emitted per consumed message. -/
  produces : Table R

/-- A configuration as written. -/
structure Config.Written (R : Type) where
  /-- The label of the application. -/
  application : String
  /-- How to scale. -/
  strategy : Strategy R
  /-- The timing of the loop. -/
  controlLoop : ControlLoop
  /-- Where the deployments are, if given. -/
  deployments : Option DeploymentAccess
  /-- Where the queues are, if given. -/
  broker : Option QueueAccess
  /-- The queues by name. -/
  queues : Table (WrittenQueue R)

/-- A configuration that has passed every check. -/
structure Config (R : Type) [Rate R] where
  /-- The label of the application, without blanks around it. -/
  application : String
  /-- How to scale. -/
  strategy : Strategy R
  /-- The timing of the loop. -/
  controlLoop : ControlLoop
  /-- Where the deployments are, if given. -/
  deployments : Option DeploymentAccess
  /-- Where the queues are, if given. -/
  broker : Option QueueAccess
  /-- The queues and their consumers. -/
  pipeline : Pipeline R

/-- Why a configuration is refused. -/
inductive ConfigFault (R : Type) where
  /-- The file cannot be read as text. -/
  | unreadable
  /-- The text is not a configuration. -/
  | malformed
  /-- The share to be drained is negative or not finite. -/
  | decrease (rate : R)
  /-- No replica is allowed. -/
  | noReplicas
  /-- There is no time between two ticks. -/
  | noInterval
  /-- There is no time for an external call. -/
  | noCallTimeout
  /-- The application label is blank. -/
  | blankApplication
  /-- A consumed queue has no consumption rate. -/
  | missingRate (queue : String)
  /-- The queues form no pipeline. -/
  | wiring (fault : WiringFault R)
  deriving DecidableEq

/-- The text of a fault. For a file that cannot be read, or a text that is no configuration, it is
the first part of the text; the rest is the reader's own. -/
def ConfigFault.message : ConfigFault Float → String
  | .unreadable => "failed to read config file"
  | .malformed => "failed to parse config"
  | .decrease rate =>
    "invalid value for strategy.queue_decrease_per_minute: must be a non-negative number, got " ++
      Decimal.ofFloat rate
  | .noReplicas => "invalid value for strategy.max_number_of_pods: must be at least 1"
  | .noInterval => "invalid value for control_loop.interval_secs: must be at least 1"
  | .noCallTimeout => "invalid value for control_loop.call_timeout_secs: must be at least 1"
  | .blankApplication => "invalid value for application: must not be empty"
  | .missingRate queue => s!"queue {queue}: missing required field `consumption_rate`"
  | .wiring fault => fault.message

variable [Rate R]

/-- The first fault of a strategy. -/
def Strategy.fault? (s : Strategy R) : Option (ConfigFault R) :=
  if ¬ Rate.isFinite s.decreasePerMinute ∨ s.decreasePerMinute < 0 then
    some (.decrease s.decreasePerMinute)
  else if s.maxReplicas = 0 then some .noReplicas
  else none

/-- The first fault of the timing. -/
def ControlLoop.fault? (c : ControlLoop) : Option (ConfigFault R) :=
  if c.intervalSeconds = 0 then some .noInterval
  else if c.callTimeoutSeconds = 0 then some .noCallTimeout
  else none

namespace Config

/-- Whether a queue as written has a consumer but no consumption rate. -/
def WrittenQueue.lacksRate (q : WrittenQueue R) : Bool :=
  q.consumptionRate.isNone && !Text.isAllBlank q.service

/-- The binding of a queue as written. The service loses the blanks around it, and the rate of a
queue without a consumer is zero if it is not given. -/
def WrittenQueue.binding (q : WrittenQueue R) : Binding R :=
  ⟨Text.trim q.service, q.consumptionRate.getD 0, q.produces⟩

/-- The bindings of the queues as written. -/
def Written.wiring (d : Written R) : Wiring R := d.queues.map fun _ q ↦ q.binding

/-- The first fault that can be told without looking at the queues' rates and edges: strategy,
timing, application, and then missing rates in name order of the queues. -/
def Written.fault? (d : Written R) : Option (ConfigFault R) :=
  match d.strategy.fault? with
  | some fault => some fault
  | none =>
    match d.controlLoop.fault? with
    | some fault => some fault
    | none =>
      if Text.isAllBlank d.application then some .blankApplication
      else
        d.queues.entries.findSome? fun (name, q) ↦
          if q.lacksRate then some (.missingRate name) else none

/-- The configuration that is written, or its first fault. -/
def Written.check (d : Written R) : Except (ConfigFault R) (Config R) :=
  match d.fault? with
  | some fault => .error fault
  | none =>
    match Pipeline.ofWiring d.wiring with
    | .error fault => .error (.wiring fault)
    | .ok pipeline =>
      .ok ⟨Text.trim d.application, d.strategy, d.controlLoop, d.deployments, d.broker, pipeline⟩

end Config

end QueueScaler
