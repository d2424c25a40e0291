import BrokerPolicy.Policy.Basic

/-!
Changing a policy, one field at a time.

A `Change` assigns a value to a field. Scope and modes can be given by name, and a name that is in
no vocabulary is the only thing for which a change is refused: `isOk_build_iff`. A change of a field
that the kind of policy does not have has no effect.

* `Change.build` makes a changed copy, `Change.assign` changes a policy in place and leaves it as it
  was if the change is refused.
* `Policy.replay` makes a sequence of changes in place, as a caller does that goes on after a
  refusal.
-/
namespace BrokerPolicy

/-- A change of one field. -/
inductive Change where
  | vhost (text : String)
  | pattern (text : String)
  | scope (value : Scope)
  | scopeNamed (name : String)
  | priority (text : String)
  | typeTag (text : String)
  | definition (text : String)
  | ttl (milliseconds : Int64)
  | ofMessages (flag : Bool)
  | modeNamed (name : String)
  | syncNamed (name : String)
  | params (value : Option Json.Value)

namespace Policy

def setVhost (text : String) (p : Policy) : Policy :=
  { p with target.vhost := text }

def setPattern (text : String) (p : Policy) : Policy :=
  { p with target.pattern := some text }

def setScope (value : Scope) (p : Policy) : Policy :=
  { p with target.scope := value }

def setPriority (text : String) (p : Policy) : Policy :=
  { p with target.priority := text }

def setTypeTag (text : String) (p : Policy) : Policy :=
  { p with target.typeTag := text }

/-- Sets the definition of a generic policy. -/
def setDefinition (text : String) (p : Policy) : Policy :=
  match p.rule with
  | .generic _ => { p with rule := .generic (some text) }
  | _ => p

/-- Sets the time of an expiry. -/
def setTtl (milliseconds : Int64) (p : Policy) : Policy :=
  match p.rule with
  | .ttl _ ofMessages => { p with rule := .ttl milliseconds ofMessages }
  | _ => p

/-- Says whether messages expire or whole queues. -/
def setOfMessages (flag : Bool) (p : Policy) : Policy :=
  match p.rule with
  | .ttl milliseconds _ => { p with rule := .ttl milliseconds flag }
  | _ => p

/-- Sets the mode of a mirroring. -/
def setMode (mode : MirrorMode) (p : Policy) : Policy :=
  match p.rule with
  | .ha _ sync params => { p with rule := .ha mode sync params }
  | _ => p

/-- Sets when mirrors catch up. -/
def setSync (sync : SyncMode) (p : Policy) : Policy :=
  match p.rule with
  | .ha mode _ params => { p with rule := .ha mode sync params }
  | _ => p

/-- Sets or clears the parameters of a mirroring. -/
def setParams (params : Option Json.Value) (p : Policy) : Policy :=
  match p.rule with
  | .ha mode sync _ => { p with rule := .ha mode sync params }
  | _ => p

end Policy

namespace Change

/-- A changed copy of a policy. -/
def build (p : Policy) : Change → Except PolicyError Policy
  | .vhost text => .ok (p.setVhost text)
  | .pattern text => .ok (p.setPattern text)
  | .scope value => .ok (p.setScope value)
  | .scopeNamed name => (Scope.parse name).map p.setScope
  | .priority text => .ok (p.setPriority text)
  | .typeTag text => .ok (p.setTypeTag text)
  | .definition text => .ok (p.setDefinition text)
  | .ttl milliseconds => .ok (p.setTtl milliseconds)
  | .ofMessages flag => .ok (p.setOfMessages flag)
  | .modeNamed name => (MirrorMode.parse name).map p.setMode
  | .syncNamed name => (SyncMode.parse name).map p.setSync
  | .params value => .ok (p.setParams value)

/-- Changes a policy in place; a refused change leaves it as it was. -/
def assign (c : Change) (p : Policy) : Except PolicyError Unit × Policy :=
  match c.build p with
  | .ok changed => (.ok (), changed)
  | .error e => (.error e, p)

end Change

/-- The policy after a sequence of changes, of which the refused ones are left out. -/
def Policy.replay (p : Policy) (changes : List Change) : Policy :=
  changes.foldl (fun p c => (c.assign p).2) p

/-! ### What a change leaves alone -/

namespace Change

/-- A change never makes a policy of another kind. -/
theorem kind_assign (c : Change) (p : Policy) : (c.assign p).2.kind = p.kind := by
  obtain ⟨target, rule⟩ := p
  -- the three changes by name may fail, and then leave the policy as it was
  have named {α : Type} (x : Except PolicyError α) (f : α → Policy)
      (h : ∀ a, (f a).kind = rule.kind) :
      (match x.map f with
        | .ok q => (Except.ok (), q)
        | .error e => ((Except.error e : Except PolicyError Unit), Policy.mk target rule)).2.kind =
        rule.kind := by
    cases x with
    | ok a => exact h a
    | error e => rfl
  cases c with
  | scopeNamed name => exact named _ _ fun a => rfl
  | modeNamed name => exact named _ _ fun a => by cases rule <;> rfl
  | syncNamed name => exact named _ _ fun a => by cases rule <;> rfl
  | definition text => cases rule <;> rfl
  | ttl n => cases rule <;> rfl
  | ofMessages b => cases rule <;> rfl
  | params v => cases rule <;> rfl
  | _ => rfl

/-- Only a name outside its vocabulary is refused. -/
theorem isOk_build_iff (c : Change) (p : Policy) :
    (∃ q, c.build p = .ok q) ↔
      match c with
      | .scopeNamed name => ∃ x : Scope, name = x.name
      | .modeNamed name => ∃ x : MirrorMode, name = x.name
      | .syncNamed name => ∃ x : SyncMode, name = x.name
      | _ => True := by
  have map_ok {α : Type} (x : Except PolicyError α) (f : α → Policy) :
      (∃ q, x.map f = .ok q) ↔ ∃ a, x = .ok a := by
    cases x <;> simp [Except.map]
  cases c with
  | scopeNamed name => simp only [build, map_ok, Scope.parse_eq_ok_iff]
  | modeNamed name => simp only [build, map_ok, MirrorMode.parse_eq_ok_iff]
  | syncNamed name => simp only [build, map_ok, SyncMode.parse_eq_ok_iff]
  | _ => simp [build]

end Change

end BrokerPolicy
