import BrokerPolicy.Policy.Describe
import BrokerPolicy.Proofs.Json.Members
import BrokerPolicy.Proofs.Policy.Grammar
import BrokerPolicy.Proofs.Policy.History

/-!
A policy is read from the entry that lists its fields.

The entry of a policy is grammatical, unless its tag is that of another kind or it lacks a pattern
that its kind needs (`grammatical_toEntry`), so a policy is read from it. The entry describes the
policy itself (`describedBy_toEntry`), but for parameters that are a stored null: an entry cannot
tell them from none (`Rule.told`). And no entry describes two policies (`DescribedBy.unique`).

What is new and was changed in any way has the pattern that its kind needs (`isSome_pattern`), so
`ofEntry_toEntry` holds of whatever is constructed without an entry.
-/

namespace BrokerPolicy

open Json

/-! ### An entry describes one policy -/

namespace Entry

variable {α : Type} {e : Entry} {name : String} {v : Value} {tells : Value → α → Prop}
  {absent a b : α}

/-- An argument that is given and all right is one that may be there. -/
lemma mayHave_of_get? {P : Value → Prop} (hget : e.get? name = some v) (h : P v) :
    e.MayHave name P := by
  intro w hw
  obtain rfl := Option.some.inj (hget.symm.trans hw)
  exact h

lemma gives_of_get? (hget : e.get? name = some v) (h : tells v a) :
    e.Gives name tells absent a := by
  rw [Gives, hget]
  exact h

lemma text?_of_get? {s : String} (hget : e.get? name = some (.string s)) :
    e.text? name = some s := by
  rw [text?, hget]
  rfl

/-- What an argument tells is one thing, given or not. -/
lemma Gives.unique (ha : e.Gives name tells absent a) (hb : e.Gives name tells absent b)
    (htells : ∀ {v}, tells v a → tells v b → a = b) : a = b := by
  unfold Gives at ha hb
  cases hget : e.get? name with
  | none =>
      rw [hget] at ha hb
      exact ha.trans hb.symm
  | some v =>
      rw [hget] at ha hb
      exact htells ha hb

/-- Only one word of a vocabulary is spelled like this. -/
lemma eq_of_word {parse : String → Except PolicyError α} {word : α → String}
    (hparse : ∀ {s a}, parse s = .ok a ↔ s = word a) (ha : v = .string (word a))
    (hb : v = .string (word b)) : a = b := by
  have hword : word a = word b := Value.string.inj (ha.symm.trans hb)
  exact Except.ok.inj ((hparse.2 rfl).symm.trans (hparse.2 hword))

end Entry

/-- A signed word is read as itself. -/
lemma Coercion.integer_ofInt64 (field : String) (n : Int64) :
    integer field (.number (.integer (.ofInt64 n))) = .ok n := by
  have hword : wordOfInt? (Integer.ofInt64 n).val = some n := wordOfInt?_eq_some_iff.2 rfl
  simp only [integer, hword]

/-- An entry describes one rule of each kind. -/
lemma Rule.DescribedBy.unique {e : Entry} {r s : Rule} (hkind : r.kind = s.kind)
    (hr : r.DescribedBy e) (hs : s.DescribedBy e) : r = s := by
  -- two rules of one kind, settled argument by argument; the kinds that differ are excluded
  cases r with
  | generic definition =>
      cases s with
      | generic definition' => rw [show definition = definition' from hr.trans hs.symm]
      | ttl n b | ha mode sync params => cases hkind
  | ttl n b =>
      cases s with
      | ttl n' b' =>
          obtain ⟨hn, hb⟩ := hr
          obtain ⟨hn', hb'⟩ := hs
          rw [hn.unique hn' fun h h' => Except.ok.inj (h.symm.trans h'),
            hb.unique hb' fun h h' => h.trans h'.symm]
      | generic definition | ha mode sync params => cases hkind
  | ha mode sync params =>
      cases s with
      | ha mode' sync' params' =>
          obtain ⟨hmode, hsync, hparams⟩ := hr
          obtain ⟨hmode', hsync', hparams'⟩ := hs
          rw [hmode.unique hmode' (Entry.eq_of_word MirrorMode.parse_eq_ok_iff),
            hsync.unique hsync' (Entry.eq_of_word SyncMode.parse_eq_ok_iff),
            hparams.trans hparams'.symm]
      | generic definition | ttl n b => cases hkind

namespace Policy

variable {p q : Policy} {e : Entry}

/-- **No entry describes two policies.** -/
lemma DescribedBy.unique (hp : p.DescribedBy e) (hq : q.DescribedBy e) : p = q := by
  have hkind : p.kind = q.kind := Except.ok.inj <|
    (Kind.ofEntry_eq_ok_iff.2 hp.kind).symm.trans (Kind.ofEntry_eq_ok_iff.2 hq.kind)
  have hvhost : p.vhost = q.vhost := Option.some.inj (hp.vhost.symm.trans hq.vhost)
  have hname : p.name = q.name := Option.some.inj (hp.name.symm.trans hq.name)
  have hpattern : p.target.pattern = q.target.pattern := hp.pattern.trans hq.pattern.symm
  have hscope : p.target.scope = q.target.scope :=
    hp.scope.unique hq.scope (Entry.eq_of_word Scope.parse_eq_ok_iff)
  have hpriority : p.target.priority = q.target.priority :=
    hp.priority.unique hq.priority fun h h' => Option.some.inj (h.symm.trans h')
  have htypeTag : p.target.typeTag = q.target.typeTag := by
    rw [hp.typeTag, hq.typeTag, hkind]
  have hrule : p.rule = q.rule := hp.rule.unique hkind hq.rule
  obtain ⟨⟨vhost, name, pattern, scope, priority, typeTag⟩, rule⟩ := p
  dsimp only [Policy.vhost, Policy.name] at *
  rw [hvhost, hname, hpattern, hscope, hpriority, htypeTag, hrule]

/-- From a grammatical entry the policy is read that it describes. -/
lemma ofEntry_of_describedBy {kind : Kind} (hgrammatical : kind.Grammatical e)
    (hp : p.DescribedBy e) : ofEntry e = .ok p := by
  -- some policy is read from the entry, and the entry describes no other than this one
  obtain ⟨q, hq⟩ := exists_ofEntry_iff.2 ⟨kind, hgrammatical⟩
  obtain ⟨named, hnamed, hconstruct⟩ := Results.bind_eq_ok_iff.1 hq
  have hdescribed := Kind.describedBy_of_construct (Kind.ofEntry_eq_ok_iff.1 hnamed) hconstruct
  rw [hq, hdescribed.unique hp]

/-! ### The arguments of an entry -/

/-- The arguments that a policy is written with have different names. -/
lemma distinct_arguments (p : Policy) :
    Members.Distinct (p.target.arguments ++ p.rule.arguments) := by
  obtain ⟨⟨vhost, name, pattern, scope, priority, typeTag⟩, rule⟩ := p
  cases pattern <;> rcases rule with ⟨_ | definition⟩ | ⟨n, b⟩ | ⟨mode, sync, _ | params⟩ <;>
    simp [Members.Distinct, Target.arguments, Rule.arguments, Entry.given]

lemma get?_toEntry (p : Policy) (name : String) :
    p.toEntry.get? name = Members.get? (p.target.arguments ++ p.rule.arguments) name :=
  Members.get?_ofList p.distinct_arguments name

lemma get?_of_mem {name : String} {v : Value}
    (h : (name, v) ∈ p.target.arguments ++ p.rule.arguments) : p.toEntry.get? name = some v := by
  rw [get?_toEntry, Members.get?_eq_some_iff p.distinct_arguments]
  exact h

/-- The arguments of every policy are found in its entry. -/
lemma get?_of_mem_target {name : String} {v : Value}
    (h : (name, v) ∈ [("type", .string p.target.typeTag), ("vhost", .string p.target.vhost),
      ("name", .string p.target.name), ("apply_to", .string p.target.scope.name),
      ("priority", .string p.target.priority)]) : p.toEntry.get? name = some v :=
  get?_of_mem (List.mem_append_left _ (List.mem_append_left _ h))

/-- So are those of its kind. -/
lemma get?_of_mem_rule {name : String} {v : Value} (h : (name, v) ∈ p.rule.arguments) :
    p.toEntry.get? name = some v :=
  get?_of_mem (List.mem_append_right _ h)

/-- A policy without a pattern is written without one. -/
lemma get?_toEntry_pattern (p : Policy) :
    p.toEntry.get? "pattern" = p.target.pattern.map .string := by
  rw [get?_toEntry]
  obtain ⟨⟨vhost, name, pattern, scope, priority, typeTag⟩, rule⟩ := p
  cases pattern <;> rcases rule with ⟨_ | definition⟩ | ⟨n, b⟩ | ⟨mode, sync, _ | params⟩ <;> rfl

/-- The same holds of the definition of a generic policy. -/
lemma get?_toEntry_definition {t : Target} (definition : Option String) :
    (toEntry ⟨t, .generic definition⟩).get? "definition" = definition.map .string := by
  rw [get?_toEntry]
  obtain ⟨vhost, name, pattern, scope, priority, typeTag⟩ := t
  cases pattern <;> cases definition <;> rfl

lemma get?_toEntry_ttl (t : Target) (n : Int64) (b : Bool) :
    (toEntry ⟨t, .ttl n b⟩).get? "ttl" = some (.number (.integer (.ofInt64 n))) ∧
      (toEntry ⟨t, .ttl n b⟩).get? "message_ttl" = some (.bool b) :=
  ⟨get?_of_mem_rule (by simp [Rule.arguments]), get?_of_mem_rule (by simp [Rule.arguments])⟩

/-- Mirroring modes are written by name, parameters as they are, if there are any. -/
lemma get?_toEntry_ha (t : Target) (mode : MirrorMode) (sync : SyncMode) (params : Option Value) :
    (toEntry ⟨t, .ha mode sync params⟩).get? "mode" = some (.string mode.name) ∧
      (toEntry ⟨t, .ha mode sync params⟩).get? "sync_mode" = some (.string sync.name) ∧
      (toEntry ⟨t, .ha mode sync params⟩).get? "params" = params := by
  refine ⟨get?_of_mem_rule (by simp [Rule.arguments]), get?_of_mem_rule (by simp [Rule.arguments]),
    ?_⟩
  rw [get?_toEntry]
  obtain ⟨vhost, name, pattern, scope, priority, typeTag⟩ := t
  cases pattern <;> cases params <;> rfl

end Policy

/-! ### The entry of a policy -/

/-- What an entry tells of a rule: parameters that are null are none. -/
def Rule.told : Rule → Rule
  | .ha mode sync params => .ha mode sync (params.filter fun v => !v.isNull)
  | rule => rule

namespace Rule

lemma kind_told (rule : Rule) : rule.told.kind = rule.kind := by
  cases rule <;> rfl

/-- Parameters that are null and none make the same definition. -/
lemma definition_told (rule : Rule) : rule.told.definition = rule.definition := by
  rcases rule with definition | ⟨n, b⟩ | ⟨mode, sync, _ | _ | _ | _ | _ | _ | _⟩ <;> rfl

/-- A rule is told as it is, unless null stands for its parameters. -/
lemma told_eq_self {rule : Rule} (h : ∀ mode sync, rule ≠ .ha mode sync (some .null)) :
    rule.told = rule := by
  rcases rule with definition | ⟨n, b⟩ | ⟨mode, sync, _ | _ | _ | _ | _ | _ | _⟩
  case ha.some.null => exact absurd rfl (h mode sync)
  all_goals rfl

end Rule

namespace Policy

variable {p : Policy}

/-- The entry of a policy names its kind if the tag is that of the kind. -/
lemma names_toEntry (htag : p.target.typeTag = p.kind.tag) : p.toEntry.Names p.kind := by
  left
  rw [← htag]
  exact get?_of_mem_target (by simp)

/-- The entry of a policy is as its kind demands. -/
lemma grammatical_toEntry (htag : p.target.typeTag = p.kind.tag)
    (hpattern : p.kind ≠ .generic → p.target.pattern.isSome = true) :
    p.kind.Grammatical p.toEntry where
  named := names_toEntry htag
  accepted := by
    intro argument hargument
    obtain ⟨m, hm, rfl⟩ := List.mem_map.1 hargument
    exact mem_accepts_of_mem_toEntry hm
  vhost := ⟨.string p.vhost, get?_of_mem_target (by simp [Policy.vhost]), rfl⟩
  name := ⟨.string p.name, get?_of_mem_target (by simp [Policy.name]), rfl⟩
  scope := Entry.mayHave_of_get? (get?_of_mem_target (v := .string p.target.scope.name) (by simp))
    ⟨p.target.scope, rfl⟩
  priority := Entry.mayHave_of_get?
    (get?_of_mem_target (v := .string p.target.priority) (by simp)) rfl
  rule := by
    -- only the typed kinds need a pattern; an unset one is simply not written
    have hhas (h : p.target.pattern.isSome = true) : p.toEntry.Has "pattern" Value.IsScalar := by
      obtain ⟨pattern, h⟩ := Option.isSome_iff_exists.1 h
      exact ⟨.string pattern, by rw [get?_toEntry_pattern, h, Option.map_some], rfl⟩
    obtain ⟨t, rule⟩ := p
    cases rule with
    | generic definition =>
        constructor
        · intro v hv
          rw [get?_toEntry_pattern] at hv
          obtain ⟨pattern, -, rfl⟩ := Option.map_eq_some_iff.1 hv
          exact .inr rfl
        · intro v hv
          rw [get?_toEntry_definition] at hv
          obtain ⟨document, -, rfl⟩ := Option.map_eq_some_iff.1 hv
          exact .inr rfl
    | ttl n b =>
        refine ⟨hhas (hpattern Kind.noConfusion), ?_⟩
        exact Entry.mayHave_of_get? (get?_toEntry_ttl t n b).1 ⟨n, Coercion.integer_ofInt64 "ttl" n⟩
    | ha mode sync params =>
        obtain ⟨hmode, hsync, -⟩ := get?_toEntry_ha t mode sync params
        exact ⟨hhas (hpattern Kind.noConfusion), Entry.mayHave_of_get? hmode ⟨mode, rfl⟩,
          Entry.mayHave_of_get? hsync ⟨sync, rfl⟩⟩

/-- The entry of a policy describes it, as far as entries tell. -/
lemma describedBy_toEntry (htag : p.target.typeTag = p.kind.tag) :
    DescribedBy ⟨p.target, p.rule.told⟩ p.toEntry := by
  have hkind : kind ⟨p.target, p.rule.told⟩ = p.kind := p.rule.kind_told
  refine {
    kind := hkind ▸ names_toEntry htag
    typeTag := htag.trans (congrArg Kind.tag hkind.symm)
    vhost := Entry.text?_of_get? (get?_of_mem_target (by simp [Policy.vhost]))
    name := Entry.text?_of_get? (get?_of_mem_target (by simp [Policy.name]))
    pattern := ?_
    scope := Entry.gives_of_get?
      (get?_of_mem_target (v := .string p.target.scope.name) (by simp)) rfl
    priority := Entry.gives_of_get?
      (get?_of_mem_target (v := .string p.target.priority) (by simp)) rfl
    rule := ?_ }
  · rw [Entry.text?, get?_toEntry_pattern]
    cases p.target.pattern <;> rfl
  · obtain ⟨t, rule⟩ := p
    cases rule with
    | generic definition =>
        simp only [Rule.told, Rule.DescribedBy, get?_toEntry_definition]
        cases definition <;> rfl
    | ttl n b =>
        obtain ⟨httl, hofMessages⟩ := get?_toEntry_ttl t n b
        exact ⟨Entry.gives_of_get? httl (Coercion.integer_ofInt64 "ttl" n),
          Entry.gives_of_get? hofMessages rfl⟩
    | ha mode sync params =>
        obtain ⟨hmode, hsync, hparams⟩ := get?_toEntry_ha t mode sync params
        refine ⟨Entry.gives_of_get? hmode rfl, Entry.gives_of_get? hsync rfl, ?_⟩
        rw [hparams]

/-- A policy is read from its entry, as far as entries tell. -/
lemma ofEntry_toEntry_told (htag : p.target.typeTag = p.kind.tag)
    (hpattern : p.kind ≠ .generic → p.target.pattern.isSome = true) :
    ofEntry p.toEntry = .ok ⟨p.target, p.rule.told⟩ :=
  ofEntry_of_describedBy (grammatical_toEntry htag hpattern) (describedBy_toEntry htag)

/-! ### Construction without an entry -/

/-- A policy that is constructed without an entry: new, and changed by copies and in place. -/
inductive Built : Policy → Prop
  | generic (vhost name : String) : Built (generic vhost name)
  | timeToLive (vhost name pattern : String) : Built (timeToLive vhost name pattern)
  | mirrored (vhost name pattern : String) : Built (mirrored vhost name pattern)
  | build {p q : Policy} {c : Change} (hp : Built p) (h : c.build p = .ok q) : Built q
  | assign {p : Policy} (hp : Built p) (c : Change) : Built (c.assign p).2

/-- The typed kinds have a pattern from the first, and no change takes it away. -/
lemma Built.isSome_pattern (h : p.Built) (hkind : p.kind ≠ .generic) :
    p.target.pattern.isSome = true := by
  induction h with
  | generic vhost name => exact absurd rfl hkind
  | timeToLive vhost name pattern | mirrored vhost name pattern => rfl
  | build hp h ih =>
      rw [Change.kind_of_build h] at hkind
      exact (Typed.build ⟨hkind, ih hkind⟩ h).pattern
  | assign hp c ih =>
      rw [Change.kind_assign] at hkind
      exact (Typed.assign ⟨hkind, ih hkind⟩ c).pattern

/-- **Policies from entries are those that are constructed without**: what is new and was changed in
any way, as long as its tag is that of its kind, is read from the entry that lists its fields. Only
parameters that are a stored null come back as none, which makes the same definition and the same
commands. -/
theorem ofEntry_toEntry (h : p.Built) (htag : p.target.typeTag = p.kind.tag) :
    ((∀ mode sync, p.rule ≠ .ha mode sync (some .null)) → ofEntry p.toEntry = .ok p) ∧
      ∀ mode sync, p.rule = .ha mode sync (some .null) →
        ∃ q, ofEntry p.toEntry = .ok q ∧ q.target = p.target ∧ q.rule = .ha mode sync none ∧
          q.definition = p.definition ∧ q.setCommand = p.setCommand ∧
          q.clearCommand = p.clearCommand := by
  -- reading gives `told`, which forgets the params exactly where they are set to null
  have hread := ofEntry_toEntry_told htag h.isSome_pattern
  constructor
  · intro hparams
    rw [hread, Rule.told_eq_self hparams]
  · intro mode sync hrule
    have hdefinition : definition ⟨p.target, p.rule.told⟩ = p.definition := p.rule.definition_told
    have hdisplay : display ⟨p.target, p.rule.told⟩ = p.display := by
      rw [display, kind, Rule.kind_told]
      rfl
    refine ⟨_, hread, rfl, by rw [hrule]; rfl, hdefinition, ?_, rfl⟩
    rw [setCommand, hdefinition, hdisplay]
    rfl

/-- A generic policy with nothing but a name; and a mirroring whose parameters are set to null, in
place after a refused change, on a copy that has a mode. -/
theorem ofEntry_toEntry_sample :
    let plain := generic "/" "plain"
    let p := ((mirrored "/" "mirror" "^").setMode .exactly).setParams (some .null)
    ofEntry plain.toEntry = .ok plain ∧
      ∃ q, ofEntry p.toEntry = .ok q ∧ q.rule = .ha .exactly .automatic none ∧
        q.setCommand = p.setCommand := by
  have hbuild : Change.build (mirrored "/" "mirror" "^") (.modeNamed "exactly") =
      .ok ((mirrored "/" "mirror" "^").setMode .exactly) := by rfl
  have hbuilt := (((Built.mirrored "/" "mirror" "^").build hbuild).assign
    (.scopeNamed "nowhere")).assign (.params (some .null))
  obtain ⟨q, hq, -, hrule, -, hset, -⟩ := (ofEntry_toEntry hbuilt rfl).2 .exactly .automatic rfl
  exact ⟨(ofEntry_toEntry (.generic "/" "plain") rfl).1 (by rintro _ _ ⟨⟩), q, hq, hrule, hset⟩

end Policy

end BrokerPolicy
