import BrokerPolicy.Host.Basic
import BrokerPolicy.Version.Debian

/-!
Versions of installed packages, from the package database of the system.

`installedVersion` asks for the version of a package; a failed query and a blank answer are errors.
`compareInstalled` is the version probe that compares this version with another.
-/
namespace BrokerPolicy.Host

variable {m : Type → Type} [Monad m]

/-- The command that prints the installed version of a package. -/
def versionQuery (package : String) : Command :=
  ["dpkg-query", "-W", "-f=$\x7bVersion\x7d", package]

/-- The version in an answer of the package database. -/
def readInstalled (package : String) :
    Except CommandFailure String → Except PolicyError String
  | .error failure => .error (.versionQueryFailed package failure)
  | .ok output =>
    let version := Text.trim output
    if version = "" then .error (.notInstalled package) else .ok version

/-- The installed version of a package. -/
def installedVersion (run : Runner m) (package : String) : m (Except PolicyError String) := do
  return readInstalled package (← run (versionQuery package))

/-- Compares the installed version of a package with another version. -/
def compareInstalled (run : Runner m) : VersionProbe m := fun package version => do
  return (← installedVersion run package).map fun installed => Version.compareText installed version

end BrokerPolicy.Host
