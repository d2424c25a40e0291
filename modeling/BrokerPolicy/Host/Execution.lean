import BrokerPolicy.Host.Basic
import BrokerPolicy.Text.Utf8

/-!
Running external programs.

A `Launcher` starts a program and waits for its end. `Host.runProgram` makes a runner of it: it
refuses what cannot be started, takes the output for text and an exit code other than zero, or an
end by a signal, for a failure.
-/
namespace BrokerPolicy

/-- How a program ended: its exit code, none if a signal killed it, and what it wrote. -/
structure Ended where
  exitCode : Option Int
  stdout : List UInt8
  stderr : List UInt8

/-- Starts a program with arguments and waits for its end, or says why it cannot be started. -/
abbrev Launcher (m : Type → Type) := Command → m (Except String Ended)

namespace Ended

/-- The output of a program that ended well, or its failure. -/
def result (program : String) (e : Ended) : Except CommandFailure String :=
  let stdout := Text.Utf8.decodeLossy e.stdout
  if e.exitCode = some 0 then .ok stdout
  else .error {
    program
    exitCode := e.exitCode
    stdout
    stderr := Text.Utf8.decodeLossy e.stderr }

end Ended

namespace Host

variable {m : Type → Type} [Monad m]

/-- Runs a command as a program with arguments. -/
def runProgram (launch : Launcher m) : Runner m := fun command => do
  match command with
  | [] => return .error (.notRun "" "empty argument vector")
  | program :: _ =>
    if command.any holdsNul then
      return .error (.notRun program "nul byte found in provided data")
    match ← launch command with
    | .error reason => return .error (.notRun program reason)
    | .ok ended => return ended.result program

end Host

end BrokerPolicy
