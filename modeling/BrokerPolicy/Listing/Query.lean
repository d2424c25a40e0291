import BrokerPolicy.Listing.Row
import BrokerPolicy.Policy.Apply

/-!
Asking the broker for its virtual hosts and policies.

Newer brokers list in JSON, older ones in tables. A `Query` settles on a format when it first needs
one, by the version of the broker, and keeps to it: its state is the format, once it is known.

* `Query.tryVhosts` and `Query.tryPoliciesIn` ask one question and report errors.
* `Query.vhosts` takes an error for no virtual hosts.
* `Query.policies` asks for the policies of one virtual host after the other. It stops at the first
  error and then lists nothing, so it never lists a part.
-/
namespace BrokerPolicy

/-- The formats of a listing. -/
inductive Format where
  | json
  | table
  deriving DecidableEq

/-- The first version of the broker that lists in JSON. -/
def jsonVersion : String := "3.8.2"

/-- A series of questions to one broker, with the format of its answers once it is known. -/
abbrev Query (m : Type → Type) := StateT (Option Format) m

namespace Query

variable {m : Type → Type} [Monad m]

/-- The format that goes with the version of the broker; tables if that cannot be told. -/
def formatFor : Except PolicyError Ordering → Format
  | .ok .gt | .ok .eq => .json
  | .ok .lt | .error _ => .table

/-- The format of the answers; the broker's version is asked for only once. -/
def format (host : Host m) : Query m Format := do
  match ← get with
  | some f => return f
  | none =>
    let f := formatFor (← host.compareVersion brokerPackage jsonVersion)
    set (some f)
    return f

/-- The broker lists in JSON. -/
def supportsJson (host : Host m) : Query m Bool := do
  return (← format host) == .json

/-- The command that asks for a listing in a format. -/
def command (arguments : List String) : Format → Command
  | .json => brokerTool :: arguments ++ ["--formatter=json"]
  | .table => brokerTool :: arguments

/-- The output of the command that asks for a listing, and its format. -/
def ask (host : Host m) (arguments : List String) :
    Query m (Except PolicyError (Format × String)) := do
  let f ← format host
  match ← host.run (command arguments f) with
  | .ok output => return .ok (f, output)
  | .error failure => return .error (.commandFailed failure)

/-- The virtual hosts in a listing. -/
def readVhosts : Format → String → Except PolicyError (List String)
  | .json, output =>
    match parseVhosts? output with
    | some vhosts => .ok vhosts
    | none => .error .malformedListing
  | .table, output => .ok (tableLines output)

/-- The virtual hosts of the broker. -/
def tryVhosts (host : Host m) : Query m (Except PolicyError (List String)) := do
  return (← ask host ["list_vhosts"]).bind fun (f, output) => readVhosts f output

/-- The virtual hosts of the broker, none after an error. -/
def vhosts (host : Host m) : Query m (List String) := do
  match ← tryVhosts host with
  | .ok vhosts => return vhosts
  | .error e =>
    host.log { level := .debug, message := "list_vhosts failed", fields := [("error", e.message)] }
    return []

/-- The rows on the lines of a table; a line with too few columns is logged and left out. -/
def readTable (host : Host m) : List String → m (List Row)
  | [] => return []
  | line :: lines =>
    match Row.ofLine? line with
    | some row => do
      return row :: (← readTable host lines)
    | none => do
      host.log {
        level := .debug
        message := "skipping short list_policies row"
        fields := [("line", line)] }
      readTable host lines

/-- The rows in a listing. -/
def readRows (host : Host m) : Format → String → m (Except PolicyError (List Row))
  | .json, output =>
    return match Row.parseList? output with
    | some rows => .ok rows
    | none => .error .malformedListing
  | .table, output => do
    return .ok (← readTable host (tableLines output))

/-- The policies of a virtual host. -/
def tryPoliciesIn (host : Host m) (vhost : String) : Query m (Except PolicyError (List Row)) := do
  match ← ask host ["list_policies", "-p", vhost] with
  | .error e => return .error e
  | .ok (f, output) => StateT.lift (readRows host f output)

/-- The policies of virtual hosts after those already listed; nothing after an error. -/
def policiesFrom (host : Host m) (listed : List Row) : List String → Query m (List Row)
  | [] => return listed
  | vhost :: vhosts => do
    match ← tryPoliciesIn host vhost with
    | .ok rows => policiesFrom host (listed ++ rows) vhosts
    | .error e =>
      host.log {
        level := .error
        message := "list_policies failed"
        fields := [("vhost", vhost), ("error", e.message)] }
      return []

/-- The policies of all virtual hosts, nothing after an error. -/
def policies (host : Host m) : Query m (List Row) := do
  policiesFrom host [] (← vhosts host)

end Query

end BrokerPolicy
