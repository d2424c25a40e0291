import BrokerPolicy.Json.Printer
import BrokerPolicy.Policy.Vocabulary

/-!
Broker policies.

A `Policy` is a `Target`, which says what it is called and what it applies to, and a `Rule`, which
says what it demands and differs from kind to kind.

* `Policy.key` is the identity of a policy, virtual host and name. Policies are compared and hashed
  by it alone: `Policy.beq_iff_key_eq`.
* `Policy.definition` is the text that the broker is given, a JSON object for the typed kinds.
* `Policy.generic`, `Policy.timeToLive`, `Policy.mirrored` are the policies that have only what is
  required and the defaults for the rest.
-/
namespace BrokerPolicy

/-- The kinds of policies. -/
inductive Kind where
  | generic
  | ha
  | ttl
  deriving DecidableEq

namespace Kind

/-- The tag of a kind in entries. -/
def tag : Kind → String
  | .generic => "generic"
  | .ha => "ha"
  | .ttl => "ttl"

/-- The name of a kind in messages. -/
def label : Kind → String
  | .generic => "BasePolicy"
  | .ha => "HaPolicy"
  | .ttl => "TtlPolicy"

/-- Reads the tag of a kind. -/
def parse (s : String) : Except PolicyError Kind :=
  if s = "generic" then .ok .generic
  else if s = "ha" then .ok .ha
  else if s = "ttl" then .ok .ttl
  else .error (.unknownKind s)

theorem parse_tag (k : Kind) : parse k.tag = .ok k := by
  cases k <;> simp [parse, tag]

theorem parse_eq_ok_iff {s : String} {k : Kind} : parse s = .ok k ↔ s = k.tag := by
  refine ⟨fun h => ?_, fun h => h ▸ parse_tag k⟩
  unfold parse at h
  repeat' split at h
  all_goals cases h
  all_goals assumption

end Kind

/-- What a policy is called and what it applies to. -/
structure Target where
  vhost : String
  name : String
  pattern : Option String
  scope : Scope
  priority : String
  typeTag : String

/-- What a policy demands. -/
inductive Rule where
  /-- A definition in the words of the broker, if one is given. -/
  | generic (definition : Option String)
  /-- An expiry in milliseconds, of messages or of whole queues. -/
  | ttl (milliseconds : Int64) (ofMessages : Bool)
  /-- Mirroring of queues; the parameters belong to the mode. -/
  | ha (mode : MirrorMode) (sync : SyncMode) (params : Option Json.Value)

/-- A broker policy. -/
structure Policy where
  target : Target
  rule : Rule

/-- The identity of a policy. -/
structure Key where
  vhost : String
  name : String
  deriving DecidableEq, Hashable

/-- Keys are ordered by virtual host, then by name. -/
def Key.compare (a b : Key) : Ordering :=
  (Ord.compare a.vhost b.vhost).then (Ord.compare a.name b.name)

/-- The kind of policy that a rule makes. -/
def Rule.kind : Rule → Kind
  | .generic _ => .generic
  | .ttl .. => .ttl
  | .ha .. => .ha

/-- The definition of an expiry. The key for whole queues is spelled as the brokers are given it. -/
def ttlDefinition (milliseconds : Int64) (ofMessages : Bool) : Json.Value :=
  .object [(if ofMessages then "message-ttl" else "experies",
    .number (.integer (.ofInt64 milliseconds)))]

/-- The definition of a mirroring. Only the modes that need parameters have them, absent ones as
null. -/
def haDefinition (mode : MirrorMode) (sync : SyncMode) (params : Option Json.Value) :
    Json.Value :=
  .object <| match mode with
    | .all => [("ha-mode", .string mode.name), ("ha-sync-mode", .string sync.name)]
    | .exactly | .nodes =>
      [("ha-mode", .string mode.name), ("ha-params", params.getD .null),
        ("ha-sync-mode", .string sync.name)]

/-- The definition text of a rule. -/
def Rule.definition : Rule → Option String
  | .generic definition => definition
  | .ttl milliseconds ofMessages => some (ttlDefinition milliseconds ofMessages).text
  | .ha mode sync params => some (haDefinition mode sync params).text

namespace Policy

def vhost (p : Policy) : String :=
  p.target.vhost

def name (p : Policy) : String :=
  p.target.name

def kind (p : Policy) : Kind :=
  p.rule.kind

/-- The definition text of a policy, if it has one. -/
def definition (p : Policy) : Option String :=
  p.rule.definition

/-- The identity of a policy. -/
def key (p : Policy) : Key where
  vhost := p.vhost
  name := p.name

/-- A policy in words. -/
def display (p : Policy) : String :=
  p.kind.label ++ "(vhost: '" ++ p.vhost ++ "' name: '" ++ p.name ++ "')"

instance : BEq Policy where
  beq p q := p.key == q.key

instance : Hashable Policy where
  hash p := hash p.key

/-! ### New policies -/

/-- A target with the default scope and priority. -/
def newTarget (kind : Kind) (vhost name : String) (pattern : Option String) : Target where
  vhost
  name
  pattern
  scope := .queues
  priority := "1"
  typeTag := kind.tag

/-- A generic policy without pattern and definition. -/
def generic (vhost name : String) : Policy where
  target := newTarget .generic vhost name none
  rule := .generic none

/-- The expiry of a new policy, one hour. -/
def defaultTtl : Int64 := 3600000

/-- An expiry of messages after the default time. -/
def timeToLive (vhost name pattern : String) : Policy where
  target := newTarget .ttl vhost name (some pattern)
  rule := .ttl defaultTtl true

/-- A mirroring to all nodes. -/
def mirrored (vhost name pattern : String) : Policy where
  target := newTarget .ha vhost name (some pattern)
  rule := .ha .all .automatic none

/-! ### Identity -/

theorem beq_iff_key_eq {p q : Policy} : (p == q) = true ↔ p.key = q.key :=
  beq_iff_eq (a := p.key)

theorem hash_eq_of_beq {p q : Policy} (h : (p == q) = true) : hash p = hash q := by
  change hash p.key = hash q.key
  rw [beq_iff_key_eq.1 h]

end Policy

end BrokerPolicy
