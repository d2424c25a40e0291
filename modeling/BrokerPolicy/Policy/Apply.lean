import BrokerPolicy.Host.Basic

/-!
Applying a policy to the broker, and clearing it.

* `Policy.check` asks whether the broker can take a policy. Only mirroring depends on the version
  of the broker; it is declined for an older broker and for one whose version cannot be told.
* `Policy.tryApply` and `Policy.tryClear` run the command and report what went wrong.
* `Policy.apply` and `Policy.clear` deal with that themselves: an error is logged and shown as the
  status, and no result is returned.
-/
namespace BrokerPolicy

/-- The package of the broker. -/
def brokerPackage : String := "rabbitmq-server"

/-- The first version of the broker that mirrors queues by policy. -/
def mirroringVersion : String := "3.0.0"

namespace Policy

variable {m : Type → Type} [Monad m]

/-- The fields that name a policy in the log. -/
def logFields (p : Policy) : List (String × String) :=
  [("vhost", p.vhost), ("policy", p.name)]

/-- Logs why mirroring is declined on the broker, or accepts it. -/
def acceptMirroring (host : Host m) (p : Policy) : Except PolicyError Ordering → m Bool
  | .ok .lt => do
    host.log {
      level := .warn
      message := "Mirroring queues cannot be enabled, only supported in rabbitmq-server >= 3.0"
      fields := p.logFields }
    host.log {
      level := .info
      message := "More information at " ++
        "http://www.rabbitmq.com/blog/2012/11/19/breaking-things-with-rabbitmq-3-0" }
    return false
  | .ok _ => return true
  | .error e => do
    host.log {
      level := .error
      message := "cannot determine " ++ brokerPackage ++ " version, skipping mirroring policy"
      fields := p.logFields ++ [("error", e.message)] }
    return false

/-- The broker can take the policy. -/
def check (host : Host m) (p : Policy) : m Bool := do
  match p.kind with
  | .ha => p.acceptMirroring host (← host.compareVersion brokerPackage mirroringVersion)
  | .generic | .ttl => return true

/-- The entry of the log that a policy is about to be set or cleared. -/
def announcement (p : Policy) (verb : String) : LogEvent where
  level := .debug
  message := verb ++ " policy " ++ p.kind.label ++ " to vhost: '" ++ p.vhost ++
    "' with name: '" ++ p.name ++ "'"
  fields := ("kind", p.kind.label) :: p.logFields

/-- The entry of the log with what the broker says about a policy. -/
def outputEvent (p : Policy) (output : String) : LogEvent where
  level := .info
  message := output
  fields := [("policy", p.name)]

/-- The entry of the log with an error and the status that goes with it. -/
def failureEvent (p : Policy) (e : PolicyError) (status : String) : LogEvent where
  level := .error
  message := e.message ++ ", " ++ status
  fields := p.logFields ++ [("code", e.code)]

/-- Runs a command, if it could be formed. -/
def runCommand (host : Host m) : Except PolicyError Command → m (Except PolicyError String)
  | .error e => return .error e
  | .ok command => do
    match ← host.run command with
    | .ok output => return .ok output
    | .error failure => return .error (.commandFailed failure)

/-- Sets a policy on the broker and returns what the broker says, none if the policy is declined. -/
def tryApply (host : Host m) (p : Policy) : m (Except PolicyError (Option String)) := do
  if ← p.check host then
    host.log (p.announcement "Setting")
    return (← runCommand host p.setCommand).map some
  else
    return .ok none

/-- Clears a policy from the broker and returns what the broker says. -/
def tryClear (host : Host m) (p : Policy) : m (Except PolicyError String) := do
  host.log (p.announcement "Clearing")
  runCommand host p.clearCommand

/-- Logs an error and shows the status that goes with it. -/
def reportFailure (host : Host m) (p : Policy) (e : PolicyError) (status : String) : m Unit := do
  host.log (p.failureEvent e status)
  host.setStatus .blocked status

/-- The status after a policy could not be set. -/
def createFailed (p : Policy) : String :=
  "RabbitMQ failed to create policy " ++ p.name

/-- The status after a policy could not be cleared. -/
def clearFailed (p : Policy) : String :=
  "RabbitMQ failed to clear policy " ++ p.name

/-- Sets a policy on the broker; errors are logged and shown as the status. -/
def apply (host : Host m) (p : Policy) : m (Option String) := do
  match ← p.tryApply host with
  | .ok (some output) =>
    host.log (p.outputEvent output)
    return some output
  | .ok none => return none
  | .error e =>
    p.reportFailure host e p.createFailed
    return none

/-- Clears a policy from the broker; errors are logged and shown as the status. -/
def clear (host : Host m) (p : Policy) : m (Option String) := do
  match ← p.tryClear host with
  | .ok output =>
    host.log (p.outputEvent output)
    return some output
  | .error e =>
    p.reportFailure host e p.clearFailed
    return none

end Policy

end BrokerPolicy
