import BrokerPolicy.Policy.Command
import BrokerPolicy.Proofs.Json.Printable
import BrokerPolicy.Proofs.Policy.Entry

/-!
What is true of a policy however it came to be.

A policy of a typed kind begins with a pattern and no change takes it away again: `Typed` holds of
what is new or read from an entry (`Made.typed`), a change keeps it (`Typed.build`), and so does any
sequence of changes (`Typed.replay`). Its definition is the text of a value, which holds no control
(`Typed.exists_definition`). So of the arguments of its command only those that are given as texts
can be impossible to pass on, and the first of these is reported (`setCommand_eq_error_iff`).

The command that clears a policy has no other arguments than the one that sets it, so what can be
set can be cleared.
-/

namespace BrokerPolicy

open Json

/-! ### Arguments that can be passed on -/

lemma holdsNul_eq_true {a : String} : holdsNul a = true ↔ '\x00' ∈ a.toList :=
  List.contains_iff_mem

lemma holdsNul_of_printable {a : String} (h : Printable a.toList) : holdsNul a = false := by
  rw [← Bool.not_eq_true, holdsNul_eq_true]
  exact fun hmem => absurd (h _ hmem) (by decide)

lemma passable_eq_error_iff {command : Command} {e : PolicyError} :
    passable command = .error e ↔ ∃ a, command.find? holdsNul = some a ∧ e = .nulInArgument a := by
  rw [passable]
  cases command.find? holdsNul <;> simp [eq_comm]

lemma holdsNul_scope (x : Scope) : holdsNul x.name = false := by
  cases x <;> decide

lemma exists_passable_iff {command : Command} :
    (∃ c, passable command = .ok c) ↔ command.find? holdsNul = none := by
  rw [passable]
  cases command.find? holdsNul <;> simp

/-- A change leaves the pattern alone or gives another one. -/
lemma Change.pattern_of_build {c : Change} {p q : Policy} (h : c.build p = .ok q) :
    q.target.pattern = p.target.pattern ∨ ∃ text, q.target.pattern = some text := by
  obtain ⟨target, rule⟩ := p
  -- of all changes only one writes the pattern, and it writes a text
  cases c with
  | pattern text =>
      obtain rfl := Except.ok.inj h
      exact .inr ⟨text, rfl⟩
  | scopeNamed name =>
      obtain ⟨x, -, rfl⟩ := Results.map_eq_ok_iff.1 h
      exact .inl rfl
  | modeNamed name =>
      obtain ⟨x, -, rfl⟩ := Results.map_eq_ok_iff.1 h
      left
      cases rule <;> rfl
  | syncNamed name =>
      obtain ⟨x, -, rfl⟩ := Results.map_eq_ok_iff.1 h
      left
      cases rule <;> rfl
  | vhost text | scope x | priority text | typeTag text =>
      obtain rfl := Except.ok.inj h
      exact .inl rfl
  | definition text | ttl n | ofMessages b | params v =>
      obtain rfl := Except.ok.inj h
      left
      cases rule <;> rfl

namespace Policy

variable {p q : Policy} {pattern definition : String}

/-- The arguments of a policy that are given as texts. -/
def givenTexts (p : Policy) (pattern definition : String) : List String :=
  [p.vhost, p.name, pattern, definition, p.target.priority]

/-- Only the arguments that are given can hold the character; the words between them do not. -/
lemma find?_setCommand (p : Policy) (pattern definition : String) :
    [brokerTool, "set_policy", "-p", p.vhost, p.name, pattern, definition, "--apply-to",
      p.target.scope.name, "--priority", p.target.priority].find? holdsNul =
      (p.givenTexts pattern definition).find? holdsNul := by
  have hwords : holdsNul brokerTool = false ∧ holdsNul "set_policy" = false ∧
      holdsNul "-p" = false ∧ holdsNul "--apply-to" = false ∧ holdsNul "--priority" = false := by
    decide
  obtain ⟨htool, hset, hp, hscope, hpriority⟩ := hwords
  simp only [givenTexts, List.find?_cons, htool, hset, hp, hscope, hpriority, holdsNul_scope]

/-- With a pattern and a definition, the first text that cannot be passed on is reported. -/
lemma setCommand_eq_error_iff {e : PolicyError} (hpattern : p.target.pattern = some pattern)
    (hdefinition : p.definition = some definition) :
    p.setCommand = .error e ↔
      ∃ a, (p.givenTexts pattern definition).find? holdsNul = some a ∧ e = .nulInArgument a := by
  rw [setCommand, hpattern, hdefinition]
  dsimp only
  rw [passable_eq_error_iff, find?_setCommand]

/-- A policy can be set if nothing is missing and all its texts can be passed on. -/
lemma exists_setCommand_iff :
    (∃ c, p.setCommand = .ok c) ↔ ∃ pattern definition, p.target.pattern = some pattern ∧
      p.definition = some definition ∧ (p.givenTexts pattern definition).find? holdsNul = none := by
  rw [setCommand]
  cases p.target.pattern with
  | none => simp
  | some pattern =>
      cases p.definition with
      | none => simp
      | some definition =>
          dsimp only
          rw [exists_passable_iff, find?_setCommand]
          simp

/-- A policy can be cleared if its identity can be passed on. -/
lemma exists_clearCommand_iff :
    (∃ c, p.clearCommand = .ok c) ↔ [p.vhost, p.name].find? holdsNul = none := by
  have hwords : holdsNul brokerTool = false ∧ holdsNul "clear_policy" = false ∧
      holdsNul "-p" = false := by
    decide
  obtain ⟨htool, hclear, hp⟩ := hwords
  rw [clearCommand, exists_passable_iff]
  simp only [List.find?_cons, htool, hclear, hp]

/-! ### What no change takes away -/

/-- A policy of a typed kind, with a pattern. -/
structure Typed (p : Policy) : Prop where
  kind : p.kind ≠ .generic
  pattern : p.target.pattern.isSome = true

namespace Typed

/-- No change takes the pattern or the kind away. -/
lemma build {c : Change} (hp : p.Typed) (h : c.build p = .ok q) : q.Typed where
  kind := by
    rw [Change.kind_of_build h]
    exact hp.kind
  pattern := by
    rcases Change.pattern_of_build h with hq | ⟨text, hq⟩
    · rw [hq]
      exact hp.pattern
    · rw [hq]
      rfl

lemma assign (hp : p.Typed) (c : Change) : (c.assign p).2.Typed := by
  rw [Change.assign]
  cases h : c.build p with
  | ok q => exact hp.build h
  | error e => exact hp

/-- Nor does any number of changes. -/
lemma replay (hp : p.Typed) (changes : List Change) : (p.replay changes).Typed := by
  induction changes generalizing p with
  | nil => exact hp
  | cons c changes ih => exact ih (hp.assign c)

/-- The definition of a typed policy is the text of a value. -/
lemma exists_definition (hp : p.Typed) : ∃ definition, p.definition = some definition ∧
    Printable definition.toList := by
  have htext (v : Value) : Printable v.text.toList := by
    rw [Value.text, String.toList_ofList]
    exact v.printable_chars
  obtain ⟨target, rule⟩ := p
  cases rule with
  | generic definition => exact absurd rfl hp.kind
  | ttl milliseconds ofMessages => exact ⟨_, rfl, htext _⟩
  | ha mode sync params => exact ⟨_, rfl, htext _⟩

end Typed

/-! ### How policies are made -/

/-- A policy of a typed kind as it is made: new, or read from an entry. -/
inductive Made : Policy → Prop
  | timeToLive (vhost name pattern : String) : Made (timeToLive vhost name pattern)
  | mirrored (vhost name pattern : String) : Made (mirrored vhost name pattern)
  | ofEntry {e : Entry} {p : Policy} (h : ofEntry e = .ok p) (hkind : p.kind ≠ .generic) : Made p

lemma Typed.change {α : Type} {e : Entry} {name : String} {coerce : Value → Except PolicyError α}
    {c : α → Change} (hp : p.Typed) (h : e.change name coerce c p = .ok q) : q.Typed := by
  rcases Entry.build_of_change h with rfl | ⟨a, ha⟩
  · exact hp
  · exact hp.build ha

/-- The typed kinds are given a pattern when they are constructed. -/
lemma typed_of_constructRule {kind : Kind} {e : Entry} {vhost name : String}
    (hkind : kind ≠ .generic) (h : kind.constructRule e vhost name = .ok p) : p.Typed := by
  cases kind with
  | generic => exact absurd rfl hkind
  | ttl =>
      obtain ⟨pattern, -, h⟩ := Results.bind_eq_ok_iff.1 h
      obtain ⟨p₁, h₁, h⟩ := Results.bind_eq_ok_iff.1 h
      have hnew : (timeToLive vhost name pattern).Typed := ⟨Kind.noConfusion, rfl⟩
      exact (hnew.change h₁).change h
  | ha =>
      obtain ⟨pattern, -, h⟩ := Results.bind_eq_ok_iff.1 h
      obtain ⟨p₁, h₁, h⟩ := Results.bind_eq_ok_iff.1 h
      obtain ⟨p₂, h₂, h⟩ := Results.bind_eq_ok_iff.1 h
      have hnew : (mirrored vhost name pattern).Typed := ⟨Kind.noConfusion, rfl⟩
      exact ((hnew.change h₁).change h₂).build (c := .params e.params?) h

/-- However a policy is made, it has its kind and its pattern. -/
lemma Made.typed (h : p.Made) : p.Typed := by
  cases h with
  | timeToLive vhost name pattern => exact ⟨Kind.noConfusion, rfl⟩
  | mirrored vhost name pattern => exact ⟨Kind.noConfusion, rfl⟩
  | @ofEntry e _ h hkind =>
      obtain ⟨kind, -, h⟩ := Results.bind_eq_ok_iff.1 h
      obtain ⟨vhost, name, p₀, p₁, p₂, -, -, hrule, h₁, h₂, h₃⟩ := Kind.construct_eq_ok h
      have hkind₀ : p.kind = p₀.kind :=
        (Entry.kind_of_change h₃).trans ((Entry.kind_of_change h₂).trans (Entry.kind_of_change h₁))
      have hp₀ : p₀.Typed := by
        refine typed_of_constructRule ?_ hrule
        rw [← Kind.kind_of_constructRule hrule, ← hkind₀]
        exact hkind
      exact ((hp₀.change h₁).change h₂).change h₃

/-! ### Commands -/

lemma find?_eq_none_iff {texts : List String} :
    texts.find? holdsNul = none ↔ ∀ a ∈ texts, '\x00' ∉ a.toList := by
  simp only [List.find?_eq_none, holdsNul_eq_true]

lemma exists_find?_iff {texts : List String} :
    (∃ a, texts.find? holdsNul = some a) ↔ ∃ a ∈ texts, '\x00' ∈ a.toList := by
  rw [← Option.isSome_iff_exists, List.find?_isSome]
  simp only [holdsNul_eq_true]

/-- Clearing is refused only for the virtual host or the name. -/
lemma exists_clearCommand_error_iff :
    (∃ e, p.clearCommand = .error e) ↔ '\x00' ∈ p.vhost.toList ∨ '\x00' ∈ p.name.toList := by
  rw [Results.exists_eq_error_iff, exists_clearCommand_iff, ← ne_eq, Option.ne_none_iff_exists',
    exists_find?_iff]
  simp only [List.exists_mem_cons_iff, List.not_mem_nil, false_and, exists_false, or_false]

/-- The definition of a typed policy is never to blame. -/
lemma Typed.find?_givenTexts (hp : p.Typed) {definition : String}
    (hdefinition : p.definition = some definition) (pattern : String) :
    (p.givenTexts pattern definition).find? holdsNul =
      [p.vhost, p.name, pattern, p.target.priority].find? holdsNul := by
  obtain ⟨definition', hdefinition', hprintable⟩ := hp.exists_definition
  obtain rfl : definition' = definition := Option.some.inj (hdefinition'.symm.trans hdefinition)
  have hnul := holdsNul_of_printable hprintable
  simp only [givenTexts, List.find?_cons, hnul]

end Policy

open Policy in
/-- **What policies can be set and cleared**: a policy of a typed kind, new or read from an entry,
has a pattern and a definition without controls whatever changes were made to it. Its command fails
only if its virtual host, its name, its pattern or its priority cannot be passed on, and names the
first of them. Of the policies of all kinds, those can be cleared whose identity can be passed on,
and those set that lack nothing and whose texts can be passed on; these can be cleared too. -/
theorem setCommand_clearCommand_passable {p : Policy} (h : p.Made) (changes : List Change) :
    (∃ pattern definition, (p.replay changes).target.pattern = some pattern ∧
      (p.replay changes).definition = some definition ∧
      (∀ c ∈ definition.toList, 0x20 ≤ c.toNat) ∧
      let texts := [(p.replay changes).vhost, (p.replay changes).name, pattern,
        (p.replay changes).target.priority]
      ((∃ e, (p.replay changes).setCommand = .error e) ↔ ∃ a ∈ texts, '\x00' ∈ a.toList) ∧
        ∀ e, (p.replay changes).setCommand = .error e ↔
          ∃ a, texts.find? (·.toList.contains '\x00') = some a ∧
            e = .malformedCommand ("embedded NUL byte in argument " ++ Text.quote a)) ∧
    ∀ r : Policy,
      ((∃ e, r.clearCommand = .error e) ↔ '\x00' ∈ r.vhost.toList ∨ '\x00' ∈ r.name.toList) ∧
      ((∃ c, r.setCommand = .ok c) ↔ ∃ pattern definition, r.target.pattern = some pattern ∧
        r.definition = some definition ∧
        ∀ a ∈ [r.vhost, r.name, pattern, definition, r.target.priority], '\x00' ∉ a.toList) ∧
      ((∃ c, r.setCommand = .ok c) → ∃ c, r.clearCommand = .ok c) := by
  have hset (r : Policy) : (∃ c, r.setCommand = .ok c) ↔ _ := exists_setCommand_iff
  simp only [find?_eq_none_iff] at hset
  constructor
  · have htyped := h.typed.replay changes
    generalize p.replay changes = q at htyped
    obtain ⟨pattern, hpattern⟩ := Option.isSome_iff_exists.1 htyped.pattern
    obtain ⟨definition, hdefinition, hprintable⟩ := htyped.exists_definition
    have herror (e : PolicyError) : q.setCommand = .error e ↔ _ :=
      setCommand_eq_error_iff hpattern hdefinition
    rw [htyped.find?_givenTexts hdefinition] at herror
    refine ⟨pattern, definition, hpattern, hdefinition, hprintable, ?_, herror⟩
    rw [← exists_find?_iff]
    constructor
    · rintro ⟨e, he⟩
      obtain ⟨a, ha, -⟩ := (herror e).1 he
      exact ⟨a, ha⟩
    · rintro ⟨a, ha⟩
      exact ⟨.nulInArgument a, (herror _).2 ⟨a, ha, rfl⟩⟩
  · intro r
    refine ⟨exists_clearCommand_error_iff, hset r, fun hok => ?_⟩
    obtain ⟨pattern, definition, -, -, htexts⟩ := (hset r).1 hok
    rw [exists_clearCommand_iff, find?_eq_none_iff]
    -- the identity is among the texts of the command that sets the policy
    have hidentity : [r.vhost, r.name] ⊆ r.givenTexts pattern definition :=
      List.subset_append_left [r.vhost, r.name] [pattern, definition, r.target.priority]
    exact fun a ha => htexts a (hidentity ha)

open Policy in
/-- The parameters hold a control, which the definition does not; the priority holds one too, and is
what the error names. -/
theorem setCommand_clearCommand_passable_sample :
    let changes : List Change := [.modeNamed "nodes", .params (some (.string "\x00")),
      .priority "7\x00", .scopeNamed "nowhere"]
    let q := (mirrored "/" "mirror" "^").replay changes
    (mirrored "/" "mirror" "^").Made ∧
      q.setCommand = .error (.malformedCommand "embedded NUL byte in argument \"7\\0\"") ∧
      (∃ c, q.clearCommand = .ok c) := by
  intro changes q
  have hmade : (mirrored "/" "mirror" "^").Made := .mirrored "/" "mirror" "^"
  obtain ⟨⟨pattern, definition, hpattern, -, -, -, herror⟩, hall⟩ :=
    setCommand_clearCommand_passable hmade changes
  have hquoted : Text.quote "7\x00" = "\"7\\0\"" := by
    decide +kernel
  refine ⟨hmade, (herror _).2 ⟨"7\x00", ?_, ?_⟩, ?_⟩
  · obtain rfl : "^" = pattern := Option.some.inj hpattern
    decide
  · rw [hquoted]
    rfl
  · by_contra hclear
    rcases (hall q).1.1 (Results.exists_eq_error_iff.2 hclear) with hvhost | hname
    · revert hvhost
      decide
    · revert hname
      decide

end BrokerPolicy
