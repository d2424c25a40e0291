import BrokerPolicy.Host.Basic

/-!
A host that records what happens on it.

Its state is the `Trace` of everything that went through it, oldest first. A runner and a version
probe on it answer as they like, and their answers may depend on all that happened before:
`Recorded.runner`, `Recorded.probe`. Status and log are only recorded.
-/
namespace BrokerPolicy

/-- Something that went through a host. -/
inductive Event where
  | command (command : Command)
  | versionQuery (package version : String)
  | status (state : WorkloadState) (message : String)
  | log (event : LogEvent)
  deriving DecidableEq

/-- What went through a host, oldest first. -/
abbrev Trace := List Event

/-- Procedures on a recorded host. -/
abbrev Recorded := StateM Trace

namespace Recorded

/-- Records an event. -/
def record (event : Event) : Recorded Unit :=
  modify (· ++ [event])

/-- The runner that answers a command by what happened before it. -/
def runner (answer : Trace → Command → Except CommandFailure String) : Runner Recorded :=
  fun command => do
    let before ← get
    record (.command command)
    return answer before command

/-- The version probe that answers a query by what happened before it. -/
def probe (answer : Trace → (package version : String) → Except PolicyError Ordering) :
    VersionProbe Recorded :=
  fun package version => do
    let before ← get
    record (.versionQuery package version)
    return answer before package version

/-- The status display that only records. -/
def status : StatusDisplay Recorded := fun state message =>
  record (.status state message)

/-- The log that only records. -/
def log : Logger Recorded := fun event =>
  record (.log event)

/-- The host with a given runner and version probe that records everything. -/
def host (answer : Trace → Command → Except CommandFailure String)
    (version : Trace → (package version : String) → Except PolicyError Ordering) :
    Host Recorded where
  run := runner answer
  compareVersion := probe version
  setStatus := status
  log := log

end Recorded

namespace Trace

/-- The commands of a trace. -/
def commands (t : Trace) : List Command :=
  t.filterMap fun
    | .command c => some c
    | _ => none

/-- The version queries of a trace. -/
def versionQueries (t : Trace) : List (String × String) :=
  t.filterMap fun
    | .versionQuery package version => some (package, version)
    | _ => none

/-- The statuses of a trace. -/
def statuses (t : Trace) : List (WorkloadState × String) :=
  t.filterMap fun
    | .status state message => some (state, message)
    | _ => none

/-- The log of a trace. -/
def logs (t : Trace) : List LogEvent :=
  t.filterMap fun
    | .log event => some event
    | _ => none

end Trace

end BrokerPolicy
