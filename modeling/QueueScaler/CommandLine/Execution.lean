import QueueScaler.CommandLine.Arguments
import QueueScaler.Config.Reader
/-!
# Carrying out commands

What each command says and how it ends. Checking a configuration sums it up; running the daemon
needs to know where queues and deployments are before it opens its port.

## Main definitions

* `CommandLine.Failure`: why a command fails, with its text.
* `CommandLine.summary`: a configuration, summed up.
* `CommandLine.Outcome`, `CommandLine.execute`: how a command ends.
-/

namespace QueueScaler.CommandLine

/-! ### Failures -/

/-- Why a command fails. -/
inductive Failure where
  /-- The configuration is refused. -/
  | config (path : String) (fault : ConfigFault Float)
  /-- The configuration does not say where the queues are. -/
  | noBroker
  /-- The configuration does not say where the deployments are. -/
  | noDeployments
  /-- The port cannot be opened. -/
  | binding (port : Nat)
  deriving DecidableEq

namespace Failure

/-- What failed. -/
def heading : Failure → String
  | .config path _ => s!"loading config {path}"
  | .noBroker => "config has no [sqs] section; queue depths cannot be read"
  | .noDeployments => "config has no [kubernetes] section; replica counts cannot be read"
  | .binding port => s!"binding 0.0.0.0:{port}"

/-- What it failed for, each cause before its own; `system` is what the system says of it. -/
def causes (system : String) : Failure → List String
  | .config path .unreadable =>
    [ConfigFault.unreadable.message ++ " " ++ path ++ ": " ++ system, system]
  | .config _ fault => [fault.message]
  | .binding _ => [system]
  | _ => []

/-- A cause as it stands below the heading, all its lines set in. One of several has its number in
front. -/
def entry (number : Option Nat) (cause : String) : String :=
  let blank := "    "
  let (first, other) := match number with
    | none => (blank, blank)
    | some n => (blank ++ toString n ++ ": ", blank ++ "   ")
  first ++ ("\n" ++ other).intercalate (cause.splitOn "\n") ++ "\n"

/-- The text of a failure: its heading, and its causes if there are any. -/
def text (system : String) (f : Failure) : String :=
  "Error: " ++ f.heading ++ "\n" ++
    match f.causes system with
    | [] => ""
    | [cause] => "\nCaused by:\n" ++ entry none cause
    | causes =>
      "\nCaused by:\n" ++ String.join (causes.mapIdx fun n cause ↦ entry (some n) cause)

end Failure

/-! ### Summaries -/

/-- The lines of a queue: its consumer, and what it produces. -/
def queueLines (queue : String) (b : Binding Float) : List String :=
  (if b.hasConsumer then
    s!"    {queue} -> {b.service} ({Decimal.ofFloat b.consumptionRate} msg/min per replica)"
  else s!"    {queue} (terminal)") ::
  b.produces.entries.map fun (target, rate) ↦
    s!"      produces {target} x{Decimal.ofFloat rate}"

/-- The line of a strategy. -/
def strategyLine (s : Strategy Float) : String :=
  s!"  strategy: scaling={s.scalingEnabled} follow_up={s.followUpEnabled}" ++
    s!" decrease/min={Decimal.ofFloat s.decreasePerMinute} max_pods={s.maxReplicas}" ++
    s!" stabilization={s.stabilizationSeconds}s"

/-- A configuration, summed up. -/
def summary (path : String) (c : Config Float) : String :=
  let lines := s!"config {path} is valid" :: strategyLine c.strategy :: "  queues:" ::
    c.pipeline.wiring.entries.flatMap fun (queue, b) ↦ queueLines queue b
  String.join (lines.map (· ++ "\n"))

/-! ### Outcomes -/

/-- How a command ends. -/
inductive Outcome where
  /-- There was no such command. -/
  | misused
  /-- Help was asked for. -/
  | helped
  /-- It failed. -/
  | failed (failure : Failure)
  /-- It is done, and this is what it says. -/
  | done (text : String)
  /-- The daemon is ready to open its port. -/
  | ready (options : RunOptions) (config : Config Float) (broker : QueueAccess)
    (deployments : DeploymentAccess)

/-- Runs the daemon up to its port. A missing broker is noticed first. -/
def prepare (options : RunOptions) (c : Config Float) : Outcome :=
  match c.broker with
  | none => .failed .noBroker
  | some broker =>
    match c.deployments with
    | none => .failed .noDeployments
    | some deployments =>
      .ready options { c with application := options.application.getD c.application } broker
        deployments

/-- Carries out a command; `read` gives the content of a file that can be read. -/
def carryOut (read : String → Option (List UInt8)) : Command → Outcome
  | .help => .helped
  | .check path =>
    match Config.ofBytes (read path) with
    | .error fault => .failed (.config path fault)
    | .ok c => .done (summary path c)
  | .run options =>
    match Config.ofBytes (read options.config) with
    | .error fault => .failed (.config options.config fault)
    | .ok c => prepare options c

/-- Carries out a command line. -/
def execute (read : String → Option (List UInt8)) (words : List String) : Outcome :=
  match Command.parse? words with
  | none => .misused
  | some command => carryOut read command

/-- The file that a command reads. -/
def Command.file? : Command → Option String
  | .help => none
  | .check path => some path
  | .run options => some options.config

end QueueScaler.CommandLine
