import BrokerPolicy.Policy.Change
import BrokerPolicy.Policy.Coercion

/-!
Policies from entries.

An entry is a list of arguments by name, as it stands in a policy file. Its `type` selects the kind
of policy, generic if there is none, and each kind accepts its own arguments.

* `Kind.accepts` are the names of the arguments of a kind.
* `Kind.ofEntry` reads the kind, `Kind.construct` the policy of a given kind, `Policy.ofEntry` both.
* `Policy.ofEntries` reads a list of entries: all of them, or the first error with its index.
-/
namespace BrokerPolicy

/-- The arguments of a policy by name. -/
abbrev Entry := Json.Members

namespace Kind

/-- The names of the arguments that a kind accepts. -/
def accepts : Kind → List String
  | .generic => ["vhost", "name", "pattern", "definition", "apply_to", "priority", "type"]
  | .ttl =>
    ["vhost", "name", "pattern", "apply_to", "priority", "type", "ttl", "message_ttl"]
  | .ha =>
    ["vhost", "name", "pattern", "apply_to", "priority", "params", "type", "mode", "sync_mode"]

/-- The kind of policy that an entry describes. -/
def ofEntry (e : Entry) : Except PolicyError Kind :=
  match e.get? "type" with
  | none => .ok .generic
  | some (.string tag) => Kind.parse tag
  | some value => .error (.unknownKind value.text)

end Kind

namespace Entry

/-- The value of an argument that has to be there. -/
def required (e : Entry) (name : String) : Except PolicyError Json.Value :=
  match e.get? name with
  | some value => .ok value
  | none => .error (.missingArgument name)

/-- The text of an argument that has to be there. -/
def text (e : Entry) (name : String) : Except PolicyError String := do
  Coercion.string name (← e.required name)

/-- The coerced value of an argument, none if it is absent. -/
def optional {α : Type} (e : Entry) (name : String)
    (coerce : Json.Value → Except PolicyError α) : Except PolicyError (Option α) :=
  match e.get? name with
  | none => .ok none
  | some value => (coerce value).map some

/-- Makes the change that an argument asks for, if the argument is there. -/
def change {α : Type} (e : Entry) (name : String)
    (coerce : Json.Value → Except PolicyError α) (change : α → Change) (p : Policy) :
    Except PolicyError Policy := do
  match ← e.optional name coerce with
  | none => return p
  | some a => (change a).build p

/-- Makes the change that an argument asks for, if the argument is there and says anything. -/
def changeIfAny {α : Type} (e : Entry) (name : String)
    (coerce : Json.Value → Except PolicyError (Option α)) (change : α → Change) (p : Policy) :
    Except PolicyError Policy := do
  match ← e.optional name coerce with
  | none | some none => return p
  | some (some a) => (change a).build p

/-- The first argument that a kind does not accept. -/
def unexpected? (e : Entry) (kind : Kind) : Option String :=
  (e.map Prod.fst).find? fun name => !kind.accepts.contains name

/-- The mirroring parameters of an entry; null stands for none. -/
def params? (e : Entry) : Option Json.Value :=
  (e.get? "params").filter fun value => !value.isNull

end Entry

namespace Kind

/-- The policy of a kind with the arguments that only this kind reads. -/
def constructRule (kind : Kind) (e : Entry) (vhost name : String) : Except PolicyError Policy :=
  match kind with
  | .generic => do
    let p := Policy.generic vhost name
    let p ← e.changeIfAny "pattern" (Coercion.optionalString "pattern") .pattern p
    e.changeIfAny "definition" Coercion.definition .definition p
  | .ttl => do
    let p := Policy.timeToLive vhost name (← e.text "pattern")
    let p ← e.change "ttl" (Coercion.integer "ttl") .ttl p
    e.change "message_ttl" (fun value => .ok (Coercion.boolean value)) .ofMessages p
  | .ha => do
    let p := Policy.mirrored vhost name (← e.text "pattern")
    let p ← e.change "mode" (Coercion.string "mode") .modeNamed p
    let p ← e.change "sync_mode" (Coercion.string "sync_mode") .syncNamed p
    return p.setParams e.params?

/-- The policy of a kind that an entry describes. -/
def construct (kind : Kind) (e : Entry) : Except PolicyError Policy := do
  if let some name := e.unexpected? kind then
    throw (.unexpectedArgument name)
  let vhost ← e.text "vhost"
  let name ← e.text "name"
  let p ← kind.constructRule e vhost name
  let p ← e.change "apply_to" (Coercion.string "apply_to") .scopeNamed p
  let p ← e.change "priority" (Coercion.string "priority") .priority p
  e.change "type" (Coercion.string "type") .typeTag p

end Kind

namespace Policy

/-- The policy that an entry describes. -/
def ofEntry (e : Entry) : Except PolicyError Policy := do
  (← Kind.ofEntry e).construct e

/-- The policies of entries, numbered from `index`; the first error tells the number of its
entry. -/
def ofEntriesFrom (index : Nat) : List Entry → Except PolicyError (List Policy)
  | [] => .ok []
  | e :: es =>
    match ofEntry e with
    | .error error => .error (.inEntry index error)
    | .ok p => (ofEntriesFrom (index + 1) es).map (p :: ·)

/-- The policies of a list of entries. -/
def ofEntries (es : List Entry) : Except PolicyError (List Policy) :=
  ofEntriesFrom 0 es

end Policy

end BrokerPolicy
