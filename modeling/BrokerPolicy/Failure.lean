import BrokerPolicy.Text.Blank
import BrokerPolicy.Text.Quoted

/-!
What can go wrong.

* `CommandFailure` is an external command that did not succeed, with what it printed.
* `PolicyError` are the causes for which a policy, a file or a query is refused. `message` words
  each of them, `code` names its class for programs.
-/
namespace BrokerPolicy

/-- An external command that failed, or that could not be run when there is no exit code. -/
structure CommandFailure where
  program : String
  exitCode : Option Int
  stdout : String
  stderr : String
  deriving DecidableEq

namespace CommandFailure

/-- A command that could not be run, for the given reason. -/
def notRun (program reason : String) : CommandFailure where
  program
  exitCode := none
  stdout := ""
  stderr := reason

/-- A command that ended with a code. -/
def exited (program : String) (code : Int) (stdout stderr : String) : CommandFailure where
  program
  exitCode := some code
  stdout
  stderr

/-- The wording of a failure: what happened, and the error output if it says anything. -/
def message (f : CommandFailure) : String :=
  let outcome := match f.exitCode with
    | some code => "returned non-zero exit status " ++ toString code
    | none => "could not be executed"
  let detail := Text.trim f.stderr
  "command '" ++ f.program ++ "' " ++ outcome ++ (if detail = "" then "" else ": " ++ detail)

end CommandFailure

/-- The closed vocabularies of the broker. -/
inductive Vocabulary where
  | scope
  | mirroring
  | synchronisation
  deriving DecidableEq

/-- The name of a vocabulary in messages. -/
def Vocabulary.name : Vocabulary → String
  | .scope => "ApplyToTypes"
  | .mirroring => "ModeTypes"
  | .synchronisation => "SyncModeTypes"

/-- What a value was to be read as. -/
inductive Expected where
  | string
  | integer
  | document
  deriving DecidableEq

/-- The name in messages of what was expected. -/
def Expected.name : Expected → String
  | .string => "string"
  | .integer => "integer"
  | .document => "JSON document"

/-- The causes for which something is refused. -/
inductive PolicyError where
  /-- A word is not in its vocabulary. -/
  | notInVocabulary (vocabulary : Vocabulary) (word : String)
  /-- The value of a field, given by its text, cannot be read as expected. -/
  | notConvertible (field value : String) (expected : Expected)
  /-- No kind of policy has this tag. -/
  | unknownKind (tag : String)
  /-- An entry lacks an argument. -/
  | missingArgument (name : String)
  /-- An entry has an argument that its kind does not know. -/
  | unexpectedArgument (name : String)
  /-- No command can be formed. -/
  | malformedCommand (reason : String)
  /-- A command failed. -/
  | commandFailed (failure : CommandFailure)
  /-- The version of a package cannot be told. -/
  | version (reason : String)
  /-- A policy file or list is unusable. -/
  | config (reason : String)
  /-- An answer of the broker is unusable. -/
  | unexpectedAnswer (reason : String)
  deriving DecidableEq

namespace PolicyError

/-- The wording of an error. -/
def message : PolicyError → String
  | .notInVocabulary vocabulary word => "value " ++ word ++ " not in " ++ vocabulary.name
  | .notConvertible field value expected =>
    "cannot convert " ++ field ++ "=" ++ value ++ " to " ++ expected.name
  | .unknownKind tag => "unknown policy type: " ++ tag
  | .missingArgument name => "missing required argument: " ++ name
  | .unexpectedArgument name => "unexpected argument: " ++ name
  | .malformedCommand reason => "malformed command: " ++ reason
  | .commandFailed failure => failure.message
  | .version reason => "version: " ++ reason
  | .config reason => "config: " ++ reason
  | .unexpectedAnswer reason => "internal: " ++ reason

/-- The class of an error. -/
def code : PolicyError → String
  | .notInVocabulary .. => "INVALID_ENUM_VALUE"
  | .notConvertible .. => "COERCION"
  | .unknownKind _ => "UNKNOWN_POLICY_TYPE"
  | .missingArgument _ | .unexpectedArgument _ => "BAD_ARGUMENTS"
  | .malformedCommand _ => "MALFORMED_COMMAND"
  | .commandFailed _ => "COMMAND_FAILED"
  | .version _ => "VERSION"
  | .config _ => "CONFIG"
  | .unexpectedAnswer _ => "INTERNAL"

/-! ### The reasons in words -/

/-- A policy, given by its text, has no pattern. -/
def noPattern (policy : String) : PolicyError :=
  .malformedCommand (policy ++ " has no pattern")

/-- A policy, given by its text, has no definition. -/
def noDefinition (policy : String) : PolicyError :=
  .malformedCommand (policy ++ " has no definition")

/-- An argument holds the character that ends every argument. -/
def nulInArgument (argument : String) : PolicyError :=
  .malformedCommand ("embedded NUL byte in argument " ++ Text.quote argument)

/-- The version query for a package failed. -/
def versionQueryFailed (package : String) (failure : CommandFailure) : PolicyError :=
  .version (package ++ ": " ++ failure.message)

/-- A package is not installed. -/
def notInstalled (package : String) : PolicyError :=
  .version (package ++ " is not installed")

/-- A file cannot be read. -/
def unreadable (path reason : String) : PolicyError :=
  .config ("read " ++ path ++ " failed: " ++ reason)

/-- A policy file is not well-formed. -/
def malformedFile : PolicyError :=
  .config "invalid yaml"

/-- A list of policies is not well-formed. -/
def malformedList : PolicyError :=
  .config "invalid policy list"

/-- A policy file has a version that is not known. -/
def unsupportedVersion (version : Nat) : PolicyError :=
  .config ("unsupported policy file version " ++ toString version)

/-- An entry of a list is refused. -/
def inEntry (index : Nat) (error : PolicyError) : PolicyError :=
  .config ("policies[" ++ toString index ++ "]: " ++ error.message)

/-- The broker answered something that is not a listing. -/
def malformedListing : PolicyError :=
  .unexpectedAnswer "unexpected rabbitmqctl json"

end PolicyError

end BrokerPolicy
