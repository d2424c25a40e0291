import BrokerPolicy.Policy.Basic

/-!
The commands that set and clear a policy.

`Policy.setCommand` needs a pattern and a definition, `Policy.clearCommand` only the identity.
Neither can carry the character that ends an argument: `passable` refuses the first argument that
holds it (`passable_eq_ok_iff`).
-/
namespace BrokerPolicy

/-- The arguments of a command, its program first. -/
abbrev Command := List String

/-- The tool that talks to the broker. -/
def brokerTool : String := "rabbitmqctl"

/-- An argument that cannot be passed on. -/
def holdsNul (argument : String) : Bool :=
  argument.toList.contains '\x00'

/-- The command itself, if all its arguments can be passed on. -/
def passable (command : Command) : Except PolicyError Command :=
  match command.find? holdsNul with
  | some argument => .error (.nulInArgument argument)
  | none => .ok command

theorem passable_eq_ok_iff {command c : Command} :
    passable command = .ok c ↔ c = command ∧ ∀ argument ∈ command, holdsNul argument = false := by
  unfold passable
  split
  · next a h =>
    simp only [reduceCtorEq, false_iff, not_and]
    intro _ hall
    have := hall a (List.mem_of_find?_eq_some h)
    simp [List.find?_some h] at this
  · next h =>
    simp only [Except.ok.injEq, List.find?_eq_none, Bool.not_eq_true] at h ⊢
    exact ⟨fun heq => ⟨heq.symm, h⟩, fun heq => heq.1.symm⟩

namespace Policy

/-- The command that sets a policy on the broker. -/
def setCommand (p : Policy) : Except PolicyError Command :=
  match p.target.pattern, p.definition with
  | none, _ => .error (.noPattern p.display)
  | some _, none => .error (.noDefinition p.display)
  | some pattern, some definition =>
    passable [brokerTool, "set_policy", "-p", p.vhost, p.name, pattern, definition,
      "--apply-to", p.target.scope.name, "--priority", p.target.priority]

/-- The command that clears a policy from the broker. -/
def clearCommand (p : Policy) : Except PolicyError Command :=
  passable [brokerTool, "clear_policy", "-p", p.vhost, p.name]

end Policy

end BrokerPolicy
