import BrokerPolicy.Config.File

/-!
Building up a list of policies step by step.

A `ConfigStep` reads a file or a list in place of the policies so far, adds those of a list, or
replaces policies for every virtual host by copies. A step that is refused leaves the policies as
they were (`ConfigStep.assign`); `ConfigStep.replay` makes a sequence of steps, from no policies on.
-/
namespace BrokerPolicy

/-- A step in building up a list of policies. -/
inductive ConfigStep where
  | file (text : String)
  | list (text : String)
  | merged (text : String)
  | expanded (vhosts : List String)

namespace ConfigStep

/-- The policies after a step. -/
def build (ps : List Policy) : ConfigStep → Except PolicyError (List Policy)
  | .file text => Policy.ofFile text
  | .list text => Policy.ofList text
  | .merged text => (Policy.ofList text).map (Policy.merge ps)
  | .expanded vhosts => .ok (Policy.expandWildcards vhosts ps)

/-- Makes a step; a refused one leaves the policies as they were. -/
def assign (step : ConfigStep) (ps : List Policy) : Except PolicyError Unit × List Policy :=
  match step.build ps with
  | .ok qs => (.ok (), qs)
  | .error e => (.error e, ps)

/-- The policies after a sequence of steps. -/
def replay (steps : List ConfigStep) : List Policy :=
  steps.foldl (fun ps step => (step.assign ps).2) []

end ConfigStep

end BrokerPolicy
