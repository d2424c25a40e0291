import BrokerPolicy.Failure

/-!
The closed vocabularies of the broker: what a policy applies to, how queues are mirrored and how
mirrors catch up.

Every word is read back from its own name and from no other text: `Scope.parse_eq_ok_iff` and its
fellows.
-/
namespace BrokerPolicy

/-- What a policy applies to. -/
inductive Scope where
  | queues
  | exchanges
  | all
  deriving DecidableEq

/-- Which nodes hold mirrors of a queue. -/
inductive MirrorMode where
  | all
  | exactly
  | nodes
  deriving DecidableEq

/-- When a new mirror copies what the queue already holds. -/
inductive SyncMode where
  | automatic
  | manual
  deriving DecidableEq

namespace Scope

def name : Scope → String
  | .queues => "queues"
  | .exchanges => "exchanges"
  | .all => "all"

/-- Reads the name of a scope. -/
def parse (s : String) : Except PolicyError Scope :=
  if s = "queues" then .ok .queues
  else if s = "exchanges" then .ok .exchanges
  else if s = "all" then .ok .all
  else .error (.notInVocabulary .scope s)

theorem parse_name (x : Scope) : parse x.name = .ok x := by
  cases x <;> simp [parse, name]

theorem parse_eq_ok_iff {s : String} {x : Scope} : parse s = .ok x ↔ s = x.name := by
  refine ⟨fun h => ?_, fun h => h ▸ parse_name x⟩
  unfold parse at h
  repeat' split at h
  all_goals cases h
  all_goals assumption

end Scope

namespace MirrorMode

def name : MirrorMode → String
  | .all => "all"
  | .exactly => "exactly"
  | .nodes => "nodes"

/-- Reads the name of a mirroring mode. -/
def parse (s : String) : Except PolicyError MirrorMode :=
  if s = "all" then .ok .all
  else if s = "exactly" then .ok .exactly
  else if s = "nodes" then .ok .nodes
  else .error (.notInVocabulary .mirroring s)

theorem parse_name (x : MirrorMode) : parse x.name = .ok x := by
  cases x <;> simp [parse, name]

theorem parse_eq_ok_iff {s : String} {x : MirrorMode} : parse s = .ok x ↔ s = x.name := by
  refine ⟨fun h => ?_, fun h => h ▸ parse_name x⟩
  unfold parse at h
  repeat' split at h
  all_goals cases h
  all_goals assumption

end MirrorMode

namespace SyncMode

def name : SyncMode → String
  | .automatic => "automatic"
  | .manual => "manual"

/-- Reads the name of a synchronisation mode. -/
def parse (s : String) : Except PolicyError SyncMode :=
  if s = "automatic" then .ok .automatic
  else if s = "manual" then .ok .manual
  else .error (.notInVocabulary .synchronisation s)

theorem parse_name (x : SyncMode) : parse x.name = .ok x := by
  cases x <;> simp [parse, name]

theorem parse_eq_ok_iff {s : String} {x : SyncMode} : parse s = .ok x ↔ s = x.name := by
  refine ⟨fun h => ?_, fun h => h ▸ parse_name x⟩
  unfold parse at h
  repeat' split at h
  all_goals cases h
  all_goals assumption

end SyncMode

end BrokerPolicy
