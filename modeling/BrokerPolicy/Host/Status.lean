import BrokerPolicy.Host.Basic

/-!
Two ways to show a status: with the status tool of the host (`statusByTool`), whose failure is only
logged, or in the log alone (`statusByLog`).
-/
namespace BrokerPolicy.Host

variable {m : Type → Type} [Monad m]

/-- The command that shows a status. -/
def statusCommand (state : WorkloadState) (message : String) : Command :=
  ["status-set", state.name, message]

/-- Shows the status with the status tool; if that fails the message goes to the log. -/
def statusByTool (run : Runner m) (log : Logger m) : StatusDisplay m := fun state message => do
  match ← run (statusCommand state message) with
  | .ok _ => return
  | .error failure =>
    log { level := .warn, message, fields := [("state", state.name), ("error", failure.message)] }

/-- Shows the status in the log, as a warning if the workload is blocked. -/
def statusByLog (log : Logger m) : StatusDisplay m := fun state message =>
  log {
    level := if state = .blocked then .warn else .info
    message
    fields := [("state", state.name)] }

end BrokerPolicy.Host
