import BrokerPolicy.Policy.Command

/-!
What the commands of policies do to a broker.

A `Broker` holds at most one policy for every identity. A command is an `Edit` of it: setting writes
one entry and clearing erases one, and no other entry is touched (`after_of_ne`).

* `Edit.ofCommand?` reads a command; `ofCommand?_of_setCommand` and `ofCommand?_of_clearCommand` say
  what it finds in the commands of a policy.
* `Broker.after` carries out one command, `Broker.replay` a sequence of them. A command that fails
  changes nothing.
-/
namespace BrokerPolicy

/-- What a broker holds under the identity of a policy. -/
structure Settings where
  pattern : String
  definition : String
  scope : String
  priority : String
  deriving DecidableEq

/-- The policies that a broker holds. -/
abbrev Broker := Key → Option Settings

/-- A change of one entry. -/
inductive Edit where
  | set (key : Key) (settings : Settings)
  | clear (key : Key)
  deriving DecidableEq

namespace Edit

/-- The identity whose entry is changed. -/
def key : Edit → Key
  | .set key _ => key
  | .clear key => key

/-- The entry after the change. -/
def settings? : Edit → Option Settings
  | .set _ settings => some settings
  | .clear _ => none

/-- The change that a command asks for, if it asks for one. -/
def ofCommand? : Command → Option Edit
  | [tool, "set_policy", "-p", vhost, name, pattern, definition, "--apply-to", scope, "--priority",
      priority] =>
    if tool = brokerTool then some (.set { vhost, name } { pattern, definition, scope, priority })
    else none
  | [tool, "clear_policy", "-p", vhost, name] =>
    if tool = brokerTool then some (.clear { vhost, name }) else none
  | _ => none

end Edit

namespace Broker

/-- The policies after a change. -/
def edit (b : Broker) (e : Edit) : Broker := fun k =>
  if k = e.key then e.settings? else b k

/-- The policies after a command that is carried out. -/
def after (b : Broker) (c : Command) : Broker :=
  match Edit.ofCommand? c with
  | some e => b.edit e
  | none => b

/-- The policies after a sequence of commands, of which some fail. -/
def replay (fails : Command → Bool) (b : Broker) (cs : List Command) : Broker :=
  cs.foldl (fun b c => if fails c then b else b.after c) b

/-- Only the entry of the command is touched. -/
theorem after_of_ne {b : Broker} {c : Command} {k : Key}
    (h : ∀ e, Edit.ofCommand? c = some e → k ≠ e.key) : b.after c k = b k := by
  unfold after
  cases he : Edit.ofCommand? c with
  | some e => exact if_neg (h e he)
  | none => rfl

end Broker

namespace Edit

/-- The command that sets a policy writes what the policy says under its identity. -/
theorem ofCommand?_of_setCommand {p : Policy} {c : Command} (h : p.setCommand = .ok c) :
    ∃ pattern definition, p.target.pattern = some pattern ∧ p.definition = some definition ∧
      ofCommand? c = some (.set p.key {
        pattern
        definition
        scope := p.target.scope.name
        priority := p.target.priority }) := by
  unfold Policy.setCommand at h
  split at h
  · cases h
  · cases h
  · next pattern definition hp hd =>
    obtain ⟨rfl, -⟩ := passable_eq_ok_iff.1 h
    exact ⟨pattern, definition, hp, hd, by simp [ofCommand?, Policy.key]⟩

/-- The command that clears a policy erases what stands under its identity. -/
theorem ofCommand?_of_clearCommand {p : Policy} {c : Command} (h : p.clearCommand = .ok c) :
    ofCommand? c = some (.clear p.key) := by
  obtain ⟨rfl, -⟩ := passable_eq_ok_iff.1 h
  simp [ofCommand?, Policy.key]

end Edit

end BrokerPolicy
