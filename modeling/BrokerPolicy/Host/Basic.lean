import BrokerPolicy.Policy.Command

/-!
The host on which policies are applied.

A `Host` is what a policy needs of its surroundings: external commands, versions of installed
packages, a place for the status that an operator sees, and a log. It is given in any monad `m`, so
the same procedures run against a real system and against a recorded one.

Two of the four can be had from the others: versions from the package database
(`Host.installedVersion`, `Host.compareInstalled`), the status from a tool (`Host.statusByTool`) or
from the log (`Host.statusByLog`).
-/
namespace BrokerPolicy

/-- The severity of a log event. -/
inductive Level where
  | debug
  | info
  | warn
  | error
  deriving DecidableEq

/-- The name of a severity. -/
def Level.name : Level → String
  | .debug => "DEBUG"
  | .info => "INFO"
  | .warn => "WARN"
  | .error => "ERROR"

/-- An entry of the log. -/
structure LogEvent where
  level : Level
  message : String
  fields : List (String × String) := []
  deriving DecidableEq

/-- The state of the workload that an operator sees. -/
inductive WorkloadState where
  | active
  | maintenance
  | waiting
  | blocked
  deriving DecidableEq

/-- The name of a state. -/
def WorkloadState.name : WorkloadState → String
  | .active => "active"
  | .maintenance => "maintenance"
  | .waiting => "waiting"
  | .blocked => "blocked"

/-- Runs a command and returns what it prints. -/
abbrev Runner (m : Type → Type) := Command → m (Except CommandFailure String)

/-- Compares the installed version of a package with another version. -/
abbrev VersionProbe (m : Type → Type) :=
  (package version : String) → m (Except PolicyError Ordering)

/-- Shows a state and a message to the operator. -/
abbrev StatusDisplay (m : Type → Type) := WorkloadState → String → m Unit

/-- Writes to the log. -/
abbrev Logger (m : Type → Type) := LogEvent → m Unit

/-- What policies need of their surroundings. -/
structure Host (m : Type → Type) where
  run : Runner m
  compareVersion : VersionProbe m
  setStatus : StatusDisplay m
  log : Logger m

end BrokerPolicy
