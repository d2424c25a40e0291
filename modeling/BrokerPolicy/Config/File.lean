import BrokerPolicy.Config.Merge
import BrokerPolicy.Json.Reader
import BrokerPolicy.Policy.Entry
import BrokerPolicy.Yaml.Load

/-!
Policy files and policy lists.

* A policy file is a YAML document with a version and a list of entries. `PolicyFile.parse?` reads
  its form, `Policy.ofFile` the policies: the version is looked at before the entries.
* A policy list is a JSON list of entries, read by `Policy.ofList`.

In both, all entries are read before policies of the same identity are dropped, so a bad entry is
reported wherever it stands, by its place in the list (`Policy.collect`).
-/
namespace BrokerPolicy

/-- The content of a policy file. -/
structure PolicyFile where
  version : Nat
  entries : List Entry

namespace PolicyFile

open Yaml

/-- The version of policy files that is understood. -/
def supportedVersion : Nat := 1

/-- A version number, which has to fit 32 bits. -/
def loadVersion (n : Node) : Load Nat := do
  let version ← Load.natural n
  if version < UInt32.size then return version else failure

/-- An entry. The file, the list and the entry count for the nesting. -/
def loadEntry (n : Node) : Load Entry := do
  return Json.Members.ofList (← Load.eachPair (Load.value (nestingLimit - 3)) (← Load.pairs n))

/-- The entries of a list. -/
def loadEntries (n : Node) : Load (List Entry) := do
  (← Load.items n).mapM loadEntry

/-- The members of a file, each at most once, added to those already read. -/
def loadMembers (version : Option Nat) (entries : Option (List Entry)) :
    List (Node × Node) → Load (Option Nat × Option (List Entry))
  | [] => return (version, entries)
  | (k, v) :: pairs => do
    match ← Load.text k, version, entries with
    | "version", none, _ => loadMembers (some (← loadVersion v)) entries pairs
    | "policies", _, none => loadMembers version (some (← loadEntries v)) pairs
    | _, _, _ => failure

/-- The content of a file; the version has to be there, the entries may be missing. -/
def load (n : Node) : Load PolicyFile := do
  match ← loadMembers none none (← Load.pairs n) with
  | (some version, entries) => return { version, entries := entries.getD [] }
  | (none, _) => failure

/-- The content of a policy file, none if it is malformed. -/
def parse? (text : String) : Option PolicyFile := do
  Load.run? load (← (← Node.ofText? text))

end PolicyFile

namespace Policy

/-- The policies of entries, the first of each identity. -/
def collect (entries : List Entry) : Except PolicyError (List Policy) :=
  (ofEntries entries).map (merge [])

/-- The policies of a policy file. -/
def ofFile (text : String) : Except PolicyError (List Policy) :=
  match PolicyFile.parse? text with
  | none => .error .malformedFile
  | some file =>
    if file.version = PolicyFile.supportedVersion then collect file.entries
    else .error (.unsupportedVersion file.version)

/-- The policies of a JSON list. -/
def ofList (text : String) : Except PolicyError (List Policy) :=
  match Json.Members.parseList? text with
  | none => .error .malformedList
  | some entries => collect entries

end Policy

end BrokerPolicy
