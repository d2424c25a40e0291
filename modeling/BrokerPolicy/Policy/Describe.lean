import BrokerPolicy.Policy.Entry

/-!
The entry that describes a policy.

`Policy.toEntry` lists everything that a policy says, field by field and in the spellings that
entries use: what is absent is left out, scope and modes are given by name, a time as a number.
Every argument of it is one that the kind of policy accepts (`mem_accepts_of_mem_toEntry`).
-/
namespace BrokerPolicy

/-- A field that is listed if it is present. -/
def Entry.given (name : String) : Option Json.Value → List (String × Json.Value)
  | some value => [(name, value)]
  | none => []

/-- The arguments for a target. -/
def Target.arguments (t : Target) : List (String × Json.Value) :=
  [("type", .string t.typeTag), ("vhost", .string t.vhost), ("name", .string t.name),
    ("apply_to", .string t.scope.name), ("priority", .string t.priority)] ++
    Entry.given "pattern" (t.pattern.map .string)

/-- The arguments for a rule. -/
def Rule.arguments : Rule → List (String × Json.Value)
  | .generic definition => Entry.given "definition" (definition.map .string)
  | .ttl milliseconds ofMessages =>
    [("ttl", .number (.integer (.ofInt64 milliseconds))), ("message_ttl", .bool ofMessages)]
  | .ha mode sync params =>
    [("mode", .string mode.name), ("sync_mode", .string sync.name)] ++ Entry.given "params" params

/-- The entry that describes a policy. -/
def Policy.toEntry (p : Policy) : Entry :=
  Json.Members.ofList (p.target.arguments ++ p.rule.arguments)

theorem Entry.fst_of_mem_given {name : String} {value : Option Json.Value}
    {m : String × Json.Value} (h : m ∈ Entry.given name value) : m.1 = name := by
  cases value with
  | none => cases h
  | some v => exact congrArg Prod.fst (List.mem_singleton.1 h)

/-- The entry that describes a policy has only arguments that its kind accepts. -/
theorem Policy.mem_accepts_of_mem_toEntry {p : Policy} {m : String × Json.Value}
    (h : m ∈ p.toEntry) : m.1 ∈ p.kind.accepts := by
  -- six arguments are common to every kind, the rest are those of its rule
  have common (k : Kind) : ∀ name ∈ ["type", "vhost", "name", "apply_to", "priority", "pattern"],
      name ∈ k.accepts := by
    cases k <;> decide
  rcases List.mem_append.1 (Json.Members.mem_of_mem_ofList h) with h | h
  · refine common p.kind m.1 ?_
    rcases List.mem_append.1 h with h | h
    · simp only [List.mem_cons, List.not_mem_nil, or_false] at h
      rcases h with rfl | rfl | rfl | rfl | rfl <;> simp
    · simp [Entry.fst_of_mem_given h]
  · obtain ⟨target, rule⟩ := p
    cases rule with
    | generic definition =>
      simp [Entry.fst_of_mem_given h, Policy.kind, Rule.kind, Kind.accepts]
    | ttl n b =>
      simp only [Rule.arguments, List.mem_cons, List.not_mem_nil, or_false] at h
      rcases h with rfl | rfl <;> simp [Policy.kind, Rule.kind, Kind.accepts]
    | ha mode sync params =>
      rcases List.mem_append.1 h with h | h
      · simp only [List.mem_cons, List.not_mem_nil, or_false] at h
        rcases h with rfl | rfl <;> simp [Policy.kind, Rule.kind, Kind.accepts]
      · simp [Entry.fst_of_mem_given h, Policy.kind, Rule.kind, Kind.accepts]

end BrokerPolicy
