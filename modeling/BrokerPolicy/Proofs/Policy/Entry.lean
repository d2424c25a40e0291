import BrokerPolicy.Policy.Entry
import BrokerPolicy.Proofs.Results

/-!
What an entry makes of a policy.

An argument makes one change or none (`build_of_change`, `build_of_changeIfAny`), so the policy is
of the kind that its entry names (`kind_of_constructRule`), and only the arguments of the kind say
what it demands (`rule_of_construct`). A plain policy demands the text of the object that is its
definition: `rule_of_ofEntry`.
-/

namespace BrokerPolicy

open Json

lemma Change.kind_of_build {c : Change} {p q : Policy} (h : c.build p = .ok q) :
    q.kind = p.kind := by
  have hkind := kind_assign c p
  rw [assign, h] at hkind
  exact hkind

namespace Entry

variable {α : Type} {e : Entry} {name : String} {p q : Policy}

/-- An argument makes one change or none. -/
lemma build_of_change {coerce : Value → Except PolicyError α} {c : α → Change}
    (h : e.change name coerce c p = .ok q) : q = p ∨ ∃ a, (c a).build p = .ok q := by
  obtain ⟨a?, -, h⟩ := Results.bind_eq_ok_iff.1 h
  cases a? with
  | none => exact Or.inl (Except.ok.inj h).symm
  | some a => exact Or.inr ⟨a, h⟩

/-- An argument that may be null changes nothing, or makes one change. -/
lemma build_of_changeIfAny {coerce : Value → Except PolicyError (Option α)} {c : α → Change}
    (h : e.changeIfAny name coerce c p = .ok q) : q = p ∨ ∃ a, (c a).build p = .ok q := by
  obtain ⟨a?, -, h⟩ := Results.bind_eq_ok_iff.1 h
  match a?, h with
  | none, h | some none, h => exact Or.inl (Except.ok.inj h).symm
  | some (some a), h => exact Or.inr ⟨a, h⟩

/-- An argument does not change the kind of a policy. -/
lemma kind_of_change {coerce : Value → Except PolicyError α} {c : α → Change}
    (h : e.change name coerce c p = .ok q) : q.kind = p.kind := by
  rcases build_of_change h with rfl | ⟨a, ha⟩
  · rfl
  · exact Change.kind_of_build ha

lemma kind_of_changeIfAny {coerce : Value → Except PolicyError (Option α)} {c : α → Change}
    (h : e.changeIfAny name coerce c p = .ok q) : q.kind = p.kind := by
  rcases build_of_changeIfAny h with rfl | ⟨a, ha⟩
  · rfl
  · exact Change.kind_of_build ha

/-- Nor does it change the rule, if its change does not. -/
lemma rule_of_change {coerce : Value → Except PolicyError α} {c : α → Change}
    (hc : ∀ a {p q : Policy}, (c a).build p = .ok q → q.rule = p.rule)
    (h : e.change name coerce c p = .ok q) : q.rule = p.rule := by
  rcases build_of_change h with rfl | ⟨a, ha⟩
  · rfl
  · exact hc a ha

end Entry

namespace Kind

variable {e : Entry} {vhost name : String} {p q : Policy}

/-- A policy is of the kind that it is constructed as. -/
lemma kind_of_constructRule {kind : Kind} (h : kind.constructRule e vhost name = .ok p) :
    p.kind = kind := by
  cases kind with
  | generic =>
      obtain ⟨p₁, h₁, h⟩ := Results.bind_eq_ok_iff.1 h
      exact (Entry.kind_of_changeIfAny h).trans (Entry.kind_of_changeIfAny h₁)
  | ttl =>
      obtain ⟨pattern, -, h⟩ := Results.bind_eq_ok_iff.1 h
      obtain ⟨p₁, h₁, h⟩ := Results.bind_eq_ok_iff.1 h
      exact (Entry.kind_of_change h).trans (Entry.kind_of_change h₁)
  | ha =>
      obtain ⟨pattern, -, h⟩ := Results.bind_eq_ok_iff.1 h
      obtain ⟨p₁, h₁, h⟩ := Results.bind_eq_ok_iff.1 h
      obtain ⟨p₂, h₂, h⟩ := Results.bind_eq_ok_iff.1 h
      have hparams : p.kind = p₂.kind := Change.kind_of_build (c := .params e.params?) h
      exact hparams.trans ((Entry.kind_of_change h₂).trans (Entry.kind_of_change h₁))

/-- A plain policy is given the text of the object that stands for its definition. -/
lemma rule_of_constructRule {members : Members} (h : generic.constructRule e vhost name = .ok p)
    (hdefinition : e.get? "definition" = some (.object members)) :
    p.rule = .generic (some (Value.object members).text) := by
  obtain ⟨p₁, h₁, h⟩ := Results.bind_eq_ok_iff.1 h
  have hrule : p₁.rule = .generic none := by
    rcases Entry.build_of_changeIfAny h₁ with rfl | ⟨a, ha⟩
    · rfl
    · obtain rfl := Except.ok.inj ha
      rfl
  have hoptional : e.optional "definition" Coercion.definition =
      .ok (some (some (Value.object members).text)) := by
    rw [Entry.optional, hdefinition]
    rfl
  rw [Entry.changeIfAny, hoptional] at h
  obtain rfl : p₁.setDefinition (Value.object members).text = p := Except.ok.inj h
  rw [Policy.setDefinition, hrule]

/-- Between the names and the arguments that all kinds read come those of the kind. -/
lemma construct_eq_ok {kind : Kind} (h : kind.construct e = .ok q) : ∃ vhost name p p₁ p₂,
    e.text "vhost" = .ok vhost ∧ e.text "name" = .ok name ∧
      kind.constructRule e vhost name = .ok p ∧
      e.change "apply_to" (Coercion.string "apply_to") .scopeNamed p = .ok p₁ ∧
      e.change "priority" (Coercion.string "priority") .priority p₁ = .ok p₂ ∧
      e.change "type" (Coercion.string "type") .typeTag p₂ = .ok q := by
  rw [construct] at h
  cases hunexpected : e.unexpected? kind with
  | some argument =>
      rw [hunexpected] at h
      cases h
  | none =>
      rw [hunexpected] at h
      obtain ⟨vhost, hvhost, h⟩ := Results.bind_eq_ok_iff.1 h
      obtain ⟨name, hname, h⟩ := Results.bind_eq_ok_iff.1 h
      obtain ⟨p, hp, h⟩ := Results.bind_eq_ok_iff.1 h
      obtain ⟨p₁, hscope, h⟩ := Results.bind_eq_ok_iff.1 h
      obtain ⟨p₂, hpriority, htag⟩ := Results.bind_eq_ok_iff.1 h
      exact ⟨vhost, name, p, p₁, p₂, hvhost, hname, hp, hscope, hpriority, htag⟩

/-- What all kinds read does not touch the rule. -/
lemma rule_of_construct {kind : Kind} (h : kind.construct e = .ok q) :
    ∃ vhost name p, kind.constructRule e vhost name = .ok p ∧ q.rule = p.rule := by
  obtain ⟨vhost, name, p, p₁, p₂, -, -, hp, hscope, hpriority, htag⟩ := construct_eq_ok h
  -- the last three changes write to the target and leave the rule as it was
  have hscopeRule : p₁.rule = p.rule := by
    refine Entry.rule_of_change (fun a p q hbuild => ?_) hscope
    obtain ⟨scope, -, rfl⟩ := Results.map_eq_ok_iff.1 hbuild
    rfl
  have hpriorityRule : p₂.rule = p₁.rule := by
    refine Entry.rule_of_change (fun a p q hbuild => ?_) hpriority
    obtain rfl := Except.ok.inj hbuild
    rfl
  have htagRule : q.rule = p₂.rule := by
    refine Entry.rule_of_change (fun a p q hbuild => ?_) htag
    obtain rfl := Except.ok.inj hbuild
    rfl
  exact ⟨vhost, name, p, hp, htagRule.trans (hpriorityRule.trans hscopeRule)⟩

end Kind

namespace Policy

/-- An object as the definition of a generic policy becomes its text. -/
lemma rule_of_ofEntry {e : Entry} {q : Policy} {members : Members} (h : ofEntry e = .ok q)
    (hkind : q.kind = .generic) (hdefinition : e.get? "definition" = some (.object members)) :
    q.rule = .generic (some (Value.object members).text) := by
  obtain ⟨kind, -, h⟩ := Results.bind_eq_ok_iff.1 h
  obtain ⟨vhost, name, p, hp, hrule⟩ := Kind.rule_of_construct h
  obtain rfl : .generic = kind := by
    rw [← Kind.kind_of_constructRule hp, ← hkind, Policy.kind, Policy.kind, hrule]
  rw [hrule, Kind.rule_of_constructRule hp hdefinition]

end Policy

end BrokerPolicy
