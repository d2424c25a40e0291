/-!
The arguments of the command line.

`Request.parse?` reads them; `none` is wrong usage. An option may stand before or after the path,
but only once; what follows `--` is never an option. The flag that selects the status tool may stand
before the name of the command as well as after it.
-/
namespace BrokerPolicy.CommandLine

/-- Where the policies of a command come from. -/
structure Source where
  path : String
  relation : Option String := none
  deriving DecidableEq

/-- What is to be done. -/
inductive Action where
  | apply (source : Source)
  | clear (source : Source)
  | render (source : Source)
  | list
  deriving DecidableEq

/-- What the arguments ask for. -/
inductive Request where
  | run (statusTool : Bool) (action : Action)
  | help
  | version
  deriving DecidableEq

/-- The names of the commands. -/
def commandNames : List String :=
  ["apply", "clear", "render", "list", "help"]

/-- The flag that selects the status tool. -/
def statusFlag : String := "--hook-status"

/-- An argument that is taken for an option. A single hyphen is not. -/
def isOption (argument : String) : Bool :=
  match argument.toList with
  | '-' :: _ :: _ => true
  | _ => false

/-- The letters of an argument that is a hyphen with short options. -/
def shortOptions? (argument : String) : Option (List Char) :=
  match argument.toList with
  | '-' :: c :: cs => if c = '-' then none else some (c :: cs)
  | _ => none

/-- The argument asks for help. -/
def asksHelp (argument : String) : Bool :=
  argument == "--help" || (shortOptions? argument).any (·.head? == some 'h')

/-- The argument asks for the version. -/
def asksVersion (argument : String) : Bool :=
  argument == "--version" || (shortOptions? argument).any (·.head? == some 'V')

/-- The value that is attached to an option with an equals sign. -/
def attached? (option argument : String) : Option String :=
  ((option ++ "=").toList.isPrefixOf? argument.toList).map String.ofList

/-- What has been read of the arguments of a command. -/
structure Given where
  path : Option String := none
  relation : Option String := none
  statusTool : Bool := false
  /-- No more options follow. -/
  pathsOnly : Bool := false

/-- Takes a value once, if it says anything. -/
def once? (given : Option String) (value : String) : Option (Option String) :=
  if given.isSome ∨ value = "" then none else some (some value)

/-- Reads the arguments of a command. Only some commands take a path and a relation. `help` is what
comes out if the arguments ask for help. -/
def readArguments (takesSource : Bool) : Given → List String → Option (Option Given)
  | r, [] => some (some r)
  | r, argument :: rest =>
    if r.pathsOnly ∨ !isOption argument then
      if takesSource then
        match once? r.path argument with
        | some path => readArguments takesSource { r with path } rest
        | none => none
      else none
    else if argument = "--" then readArguments takesSource { r with pathsOnly := true } rest
    else if asksHelp argument then some none
    else if argument = statusFlag then
      if r.statusTool then none
      else readArguments takesSource { r with statusTool := true } rest
    else if !takesSource then none
    else if argument = "--relation" then
      match rest with
      | value :: rest =>
        if isOption value then none
        else match once? r.relation value with
          | some relation => readArguments takesSource { r with relation } rest
          | none => none
      | [] => none
    else match attached? "--relation" argument with
      | none => none
      | some value =>
        match once? r.relation value with
        | some relation => readArguments takesSource { r with relation } rest
        | none => none

/-- The request of a command that takes a source. -/
def withSource (statusTool : Bool) (make : Source → Action) (arguments : List String) :
    Option Request :=
  match readArguments true {} arguments with
  | none => none
  | some none => some .help
  | some (some r) => r.path.map fun path =>
    .run (statusTool || r.statusTool) (make { path, relation := r.relation })

/-- The request of a command that takes no source. -/
def withoutSource (statusTool : Bool) (action : Action) (arguments : List String) :
    Option Request :=
  match readArguments false {} arguments with
  | none => none
  | some none => some .help
  | some (some r) => some (.run (statusTool || r.statusTool) action)

/-- The request for help, perhaps on a command. -/
def helpOn : List String → Option Request
  | [] => some .help
  | [name] => if commandNames.contains name then some .help else none
  | _ => none

namespace Request

/-- Reads arguments, of which the flag may have come before. -/
def parseFrom? (statusTool : Bool) : List String → Option Request
  | [] => none
  | "apply" :: rest => withSource statusTool .apply rest
  | "clear" :: rest => withSource statusTool .clear rest
  | "render" :: rest => withSource statusTool .render rest
  | "list" :: rest => withoutSource statusTool .list rest
  | "help" :: rest => helpOn rest
  | argument :: rest =>
    if argument = statusFlag then if statusTool then none else parseFrom? true rest
    else if asksHelp argument then some .help
    else if asksVersion argument then some .version
    else none

/-- What the arguments ask for, none if they are used wrongly. -/
def parse? (arguments : List String) : Option Request :=
  parseFrom? false arguments

end Request

end BrokerPolicy.CommandLine
