import BrokerPolicy.CommandLine.Run
import BrokerPolicy.Host.Execution

/-!
The command line.

Whoever starts this program runs the external commands for it. Its standard error is a sequence of
lines of JSON: log entries, and for every command an object with the arguments under `run`, which
is answered by a line of JSON on the standard input with the exit code and the output. At the end of
the input no program is found.
-/
namespace BrokerPolicy.CommandLine

open Json

/-- Writes a line of JSON to the standard error. -/
def emit (v : Value) : IO Unit := do
  (← IO.getStderr).putStrLn v.text

/-- Why a program or a file is not found. -/
def notFound : String := "No such file or directory (os error 2)"

/-- The bytes of a text in an answer. -/
def answerBytes (answer : Members) (key : String) : List UInt8 :=
  match answer.get? key with
  | some (.string s) => Text.Utf8.encode s.toList
  | _ => []

/-- How a program ended, by the answer of whoever ran it. -/
def readAnswer (line : String) : Except String Ended :=
  match Value.parse? line with
  | some (.object answer) => .ok {
      exitCode := match Members.get? answer "exit_code" with
        | some (.number (.integer n)) => some n.val
        | _ => none
      stdout := answerBytes answer "stdout"
      stderr := answerBytes answer "stderr" }
  | _ => .error notFound

/-- Has a program run. -/
def launch : Launcher IO := fun command => do
  emit (.object [("run", .array (command.map Value.string))])
  return readAnswer (← (← IO.getStdin).getLine)

/-- Reads a file. -/
def readFile : FileReader IO := fun path => do
  try
    return .ok (← IO.FS.readBinFile path).toList
  catch
    | .noFileOrDirectory .. => return .error notFound
    | e => return .error (toString e)

/-- Writes a log entry. -/
def writeLog : Logger IO := fun event =>
  if event.level = .debug then return
  else emit (.object [("level", .string event.level.name), ("message", .string event.message),
    ("fields", .object (event.fields.map fun f => (f.1, .string f.2)))])

end BrokerPolicy.CommandLine

open BrokerPolicy in
/-- Carries out what the arguments ask for. -/
def main (arguments : List String) : IO UInt32 := do
  let outcome ← CommandLine.run CommandLine.readFile (Host.runProgram CommandLine.launch)
    CommandLine.writeLog arguments
  (← IO.getStdout).putStr outcome.stdout
  return outcome.exitCode.toUInt32
