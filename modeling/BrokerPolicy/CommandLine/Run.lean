import BrokerPolicy.Batch
import BrokerPolicy.CommandLine.Arguments
import BrokerPolicy.Config.Load
import BrokerPolicy.Host.Package
import BrokerPolicy.Host.Status

/-!
Carrying out what the command line asks for.

`run` answers with an exit code and the text for the standard output: 0 when all is done, 1 after an
error, 2 when some policy was not applied or cleared, or when the arguments are used wrongly. An
error of loading or rendering comes before anything has been changed on the broker.
-/
namespace BrokerPolicy.CommandLine

variable {m : Type → Type} [Monad m]

/-- The outcome of a run. -/
structure Outcome where
  exitCode : UInt8
  stdout : String := ""
  deriving DecidableEq

/-- Reads a file. -/
abbrev FileReader (m : Type → Type) := String → m FileContent

/-- The host of the command line: versions come from the package database, the status goes to the
status tool or to the log. -/
def host (run : Runner m) (log : Logger m) (statusTool : Bool) : Host m where
  run
  compareVersion := Host.compareInstalled run
  setStatus := if statusTool then Host.statusByTool run log else Host.statusByLog log
  log

/-- The text of the relation, if one is given. -/
def readRelation (read : FileReader m) : Option String → m (Except PolicyError (Option String))
  | none => return .ok none
  | some path => do
    return (readText path (← read path)).map some

/-- Loads the policies of a source; the relation is read before the file. -/
def load (read : FileReader m) (host : Host m) (source : Source) :
    m (Except PolicyError (List Policy)) := do
  match ← readRelation read source.relation with
  | .error e => return .error e
  | .ok relation =>
    (Policy.loadPolicies host source.path (← read source.path) relation).run' none

/-- Logs how a batch went. -/
def report (host : Host m) (verb : String) (tally : Tally) : m Outcome := do
  host.log {
    level := .info
    message := verb ++ " policies"
    fields := [("succeeded", toString tally.succeeded),
      ("not_applied", toString tally.notApplied)] }
  return { exitCode := if tally.notApplied = 0 then 0 else 2 }

/-- Logs an error. -/
def fail (host : Host m) (e : PolicyError) : m Outcome := do
  host.log { level := .error, message := e.message, fields := [("code", e.code)] }
  return { exitCode := 1 }

/-- Commands as text, one on a line, the arguments separated by spaces. -/
def commandLines (commands : List Command) : String :=
  String.join (commands.map fun command => " ".intercalate command ++ "\n")

/-- A listing as text. -/
def listingText (rows : List Row) : String :=
  (Json.Value.array (rows.map Row.toJson)).indentedText ++ "\n"

/-- Carries out an action. -/
def perform (read : FileReader m) (host : Host m) : Action → m Outcome
  | .apply source => do
    match ← load read host source with
    | .error e => fail host e
    | .ok ps => report host "applied" (← Policy.applyAll host ps)
  | .clear source => do
    match ← load read host source with
    | .error e => fail host e
    | .ok ps => report host "cleared" (← Policy.clearAll host ps)
  | .render source => do
    match ← load read host source with
    | .error e => fail host e
    | .ok ps =>
      match Policy.renderAll ps with
      | .error e => fail host e
      | .ok commands => return { exitCode := 0, stdout := commandLines commands }
  | .list => do
    return { exitCode := 0, stdout := listingText (← (Query.policies host).run' none) }

/-- How the command line is used. -/
def usage : String :=
  "Usage: rmqpolicy [--hook-status] <apply|clear|render> <PATH> [--relation <RELATION>]\n" ++
  "       rmqpolicy [--hook-status] list\n"

/-- Carries out what the arguments ask for. -/
def run (read : FileReader m) (runner : Runner m) (log : Logger m) (arguments : List String) :
    m Outcome :=
  match Request.parse? arguments with
  | none => return { exitCode := 2 }
  | some .help => return { exitCode := 0, stdout := usage }
  | some .version => return { exitCode := 0, stdout := "rmqpolicy 0.1.0\n" }
  | some (.run statusTool action) => perform read (host runner log statusTool) action

end BrokerPolicy.CommandLine
