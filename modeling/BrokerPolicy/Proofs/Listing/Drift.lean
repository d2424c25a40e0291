import BrokerPolicy.Host.Recorded
import BrokerPolicy.Proofs.Listing.Reading
import BrokerPolicy.Proofs.Policy.Entry

/-!
A policy that was set comes back from the broker as it was.

The definition of a policy is the compact text of a value (`Defines`): of an expiry or a mirroring
by its rule, of a plain policy by the entry that it was made of. A broker lists that text as it is
or as the value that it denotes, and of either the text is the same (`textOf_of_listed`). So the row
that is listed makes a policy that nobody can tell from the one that was set:
`tryPoliciesIn_undrifted`.
-/

namespace BrokerPolicy

open Json

namespace Policy

/-! ### Definitions -/

/-- The value of which the definition is the text. A plain policy has it from an object in the entry
that the policy was made of. -/
def Defines (p : Policy) (v : Value) : Prop :=
  match p.rule with
  | .generic _ => ∃ e q members, ofEntry e = .ok q ∧ q.kind = .generic ∧
      e.get? "definition" = some (.object members) ∧ p.rule = q.rule ∧ v = .object members
  | .ttl milliseconds ofMessages => v = ttlDefinition milliseconds ofMessages
  | .ha mode sync params => v = haDefinition mode sync params

/-- What a policy defines is an object, and its definition is the text of it. -/
lemma Defines.isObject_definition {p : Policy} {v : Value} (h : p.Defines v) :
    (∃ members, v = .object members) ∧ p.definition = some v.text := by
  obtain ⟨target, rule⟩ := p
  cases rule with
  | generic text? =>
      obtain ⟨e, q, members, hofEntry, hkind, hdefinition, hrule, rfl⟩ := h
      refine ⟨⟨members, rfl⟩, ?_⟩
      rw [definition, hrule, rule_of_ofEntry hofEntry hkind hdefinition, Rule.definition]
  | ttl milliseconds ofMessages =>
      obtain rfl : v = ttlDefinition milliseconds ofMessages := h
      exact ⟨⟨_, rfl⟩, rfl⟩
  | ha mode sync params =>
      obtain rfl : v = haDefinition mode sync params := h
      exact ⟨⟨_, rfl⟩, rfl⟩

/-! ### Listing -/

/-- The object lists the policy: its definition as a text or as the value that the text denotes, its
priority as a text or as the number `n`. -/
def ListedBy (p : Policy) (pattern : String) (n : Int64) (object : List (String × Value)) : Prop :=
  ∃ text definition priority, p.definition = some text ∧
    (definition = .string text ∨ Value.parse? text = some definition) ∧
    (priority = .string p.target.priority ∨ priority = .number (.integer (.ofInt64 n))) ∧
    Gives Row.fields object
      (Row.valuesOf p.vhost p.name p.target.scope.name pattern definition priority)

/-- Neither the broker nor whoever compares them can tell the policies apart. -/
structure Undrifted (q p : Policy) : Prop where
  beq : (q == p) = true
  definition : q.definition = p.definition
  pattern : q.target.pattern = p.target.pattern
  scope : q.target.scope = p.target.scope
  priority : q.target.priority = p.target.priority
  setCommand : q.setCommand = p.setCommand
  clearCommand : q.clearCommand = p.clearCommand

variable {p q : Policy} {v : Value}

/-- A policy can be listed as deep as its definition may nest. -/
lemma exists_listing (hdefines : p.Defines v) (hwhole : v.Whole) (hordered : v.Ordered)
    (hdepth : v.depth ≤ 125) (pattern : String) (n : Int64) :
    ∃ object, p.ListedBy pattern n object ∧
      writtenRecords? Row.fields 125 (Value.array [.object object]).text = some [object] := by
  obtain ⟨-, hdefinition⟩ := hdefines.isObject_definition
  have hparse := parse?_text hwhole hordered (hdepth.trans (by decide))
  have hgives := gives_zip
    (Row.fits_valuesOf p.vhost p.name p.target.scope.name pattern v (.string p.target.priority))
  have hv : v.Listable 125 := ⟨hwhole, hordered, hdepth⟩
  have hlistable := Row.listable_valuesOf p.vhost p.name p.target.scope.name pattern hv
    (listable_string p.target.priority)
  refine ⟨_, ⟨v.text, v, _, hdefinition, Or.inr hparse, Or.inl rfl, hgives⟩, ?_⟩
  rw [← List.map_singleton, writtenRecords?_text]
  intro object hobject m hm
  obtain rfl := List.mem_singleton.1 hobject
  exact hlistable m.2 (List.of_mem_zip hm).2

/-- A policy has not drifted from one that tells the broker the same. -/
lemma undrifted_of_told {pattern text : String} (hkey : q.key = p.key)
    (hpattern : p.target.pattern = some pattern) (hpattern' : q.target.pattern = some pattern)
    (hdefinition : p.definition = some text) (hdefinition' : q.definition = some text)
    (hscope : q.target.scope = p.target.scope) (hpriority : q.target.priority = p.target.priority) :
    q.Undrifted p := by
  have hvhost : q.vhost = p.vhost := congrArg Key.vhost hkey
  have hname : q.name = p.name := congrArg Key.name hkey
  refine ⟨beq_iff_key_eq.2 hkey, hdefinition'.trans hdefinition.symm,
    hpattern'.trans hpattern.symm, hscope, hpriority, ?_, ?_⟩
  · simp only [setCommand, hpattern, hpattern', hdefinition, hdefinition', hvhost, hname, hscope,
      hpriority]
  · simp only [clearCommand, hvhost, hname]

/-- A definition that is listed has the text of the definition that was set. -/
lemma textOf_of_listed {text : String} {definition : Value} (hdefines : p.Defines v)
    (hwhole : v.Whole) (hordered : v.Ordered) (hdepth : v.depth ≤ depthLimit)
    (htext : p.definition = some text)
    (hlisted : definition = .string text ∨ Value.parse? text = some definition) :
    Row.textOf definition = text := by
  obtain ⟨⟨members, rfl⟩, hdefinition⟩ := hdefines.isObject_definition
  obtain rfl := Option.some.inj (hdefinition.symm.trans htext)
  rcases hlisted with rfl | hparse
  · rfl
  · obtain rfl := Option.some.inj ((parse?_text hwhole hordered hdepth).symm.trans hparse)
    rfl

/-- The row under which a policy is listed describes the policy. -/
lemma undrifted_of_listedBy {pattern : String} {n : Int64} {object : List (String × Value)}
    (hdefines : p.Defines v) (hwhole : v.Whole) (hordered : v.Ordered)
    (hdepth : v.depth ≤ depthLimit) (hpattern : p.target.pattern = some pattern)
    (hpriority : p.target.priority = String.ofList (intChars n.toInt))
    (hlisted : p.ListedBy pattern n object) :
    ∃ row : Row, row.ListedBy object ∧ ∃ q, row.toPolicy = .ok q ∧ q.Undrifted p := by
  obtain ⟨text, definition, priority, htext, hdefinition, hlistedPriority, hgives⟩ := hlisted
  have hpriorityText : Row.textOf priority = p.target.priority := by
    rcases hlistedPriority with rfl | rfl
    · rfl
    · exact hpriority.symm
  -- the priority may be listed as an integer or as a text; the row holds the same text for both
  let row : Row := {
    vhost := p.vhost
    name := p.name
    scope := p.target.scope.name
    pattern := pattern
    definition := text
    priority := p.target.priority }
  let described : Policy := {
    target := {
      vhost := p.vhost
      name := p.name
      pattern := some pattern
      scope := p.target.scope
      priority := p.target.priority
      typeTag := Kind.generic.tag }
    rule := .generic (some text) }
  have htoPolicy : row.toPolicy = .ok described := by
    rw [Row.toPolicy, show Scope.parse row.scope = .ok p.target.scope from Scope.parse_name _]
    rfl
  refine ⟨row, ⟨definition, priority, ?_, hpriorityText, hgives⟩, described, htoPolicy, ?_⟩
  · exact textOf_of_listed hdefines hwhole hordered hdepth htext hdefinition
  · exact undrifted_of_told rfl hpattern rfl htext rfl rfl rfl

end Policy

/-- **Nothing drifts**: let the definition of a policy be the text of a value without fractions,
ordered and at most 125 deep, and its priority the decimal form of a word. The policy can be listed,
and from any listing in which an object lists it, whatever else is listed and however it is written,
a row is read that describes a policy equal to the one that was set. The same commands set it and
clear it. -/
theorem tryPoliciesIn_undrifted {p : Policy} {v : Value} {pattern : String} {n : Int64}
    (hdefines : p.Defines v) (hwhole : v.Whole) (hordered : v.Ordered) (hdepth : v.depth ≤ 125)
    (hpattern : p.target.pattern = some pattern)
    (hpriority : p.target.priority = String.ofList (intChars n.toInt)) :
    (∃ object, p.ListedBy pattern n object ∧
      writtenRecords? Row.fields 125 (Value.array [.object object]).text = some [object]) ∧
    ∀ {σ : Type} {host : Host (StateM σ)} {format : Option Format} {s : σ} {vhost text : String}
      {depth i : ℕ} {objects : List (List (String × Value))} (hi : i < objects.length),
      Query.Answers host format s ["list_policies", "-p", vhost] .json text →
      writtenRecords? Row.fields depth text = some objects →
      (∀ object ∈ objects, ∃ row : Row, row.ListedBy object) →
      p.ListedBy pattern n objects[i] →
      ∃ rows, (((Query.tryPoliciesIn host vhost).run format).run s).1.1 = .ok rows ∧
        rows.length = objects.length ∧
        ∃ row q, rows[i]? = some row ∧ row.toPolicy = .ok q ∧ q.Undrifted p := by
  refine ⟨Policy.exists_listing hdefines hwhole hordered hdepth pattern n, ?_⟩
  intro σ host format s vhost text depth i objects hi hanswer hwritten hobjects hlisted
  have hlimit : v.depth ≤ depthLimit := hdepth.trans (by decide)
  obtain ⟨row, hrow, q, hq, hundrifted⟩ :=
    Policy.undrifted_of_listedBy hdefines hwhole hordered hlimit hpattern hpriority hlisted
  -- the other objects only have to be rows at all: the one at `i` is known by what it lists
  obtain ⟨rows, hrows⟩ := Row.exists_listed hobjects
  have hlength := hrows.length_eq
  have hi' : i < rows.length := by omega
  have hread := Query.tryPoliciesIn_of_json hanswer (Row.parseList?_of_listed hwritten hrows)
  have hsame : rows[i] = row := Row.ListedBy.unique (hrows.get hi' hi) hrow
  refine ⟨rows, hread, hlength, row, q, ?_, hq, hundrifted⟩
  rw [List.getElem?_eq_getElem hi', hsame]

/-- A mirroring to two nodes, with parameters. -/
def sampleMirroring : Policy where
  target := {
    vhost := "/"
    name := "mirror"
    pattern := some "^\"a\\"
    scope := .queues
    priority := "-3"
    typeTag := "ha" }
  rule := .ha .nodes .automatic (some (.array [.string "rabbit@a", .string "rabbit@b"]))

/-- The definition of the mirroring. -/
def sampleDefinition : Value :=
  .object [("ha-mode", .string "nodes"),
    ("ha-params", .array [.string "rabbit@a", .string "rabbit@b"]),
    ("ha-sync-mode", .string "automatic")]

/-- The mirroring as a broker lists it, backwards and with a member of its own. -/
def sampleObject : List (String × Value) :=
  [("priority", .number (.integer (.ofInt64 (-3)))), ("definition", sampleDefinition),
    ("pattern", .string "^\"a\\"), ("apply-to", .string "queues"), ("name", .string "mirror"),
    ("vhost", .string "/"), ("node", .null)]

/-- An object that lists another policy. -/
def otherObject : List (String × Value) :=
  [("vhost", .string "/"), ("name", .string "other"), ("apply-to", .string "all"),
    ("pattern", .string ""), ("definition", .string ""), ("priority", .bool true)]

/-- The objects that a broker lists. -/
def sampleObjects : List (List (String × Value)) :=
  [otherObject, sampleObject]

/-- A broker that lists them. -/
def sampleBroker : Host Recorded :=
  Recorded.host (fun _ _ => .ok (Value.array (sampleObjects.map .object)).text)
    fun _ _ _ => .ok .gt

/-- A mirroring with a definition that nests, listed as the second of two rows. -/
theorem tryPoliciesIn_undrifted_sample :
    sampleMirroring.Defines sampleDefinition ∧ sampleDefinition.Whole ∧ sampleDefinition.Ordered ∧
      sampleDefinition.depth ≤ 125 ∧
      sampleMirroring.target.priority = String.ofList (intChars (Int64.toInt (-3))) ∧
      sampleMirroring.ListedBy "^\"a\\" (-3) sampleObject ∧
      ∃ rows, (((Query.tryPoliciesIn sampleBroker "/").run none).run []).1.1 = .ok rows ∧
        rows.length = 2 ∧
        ∃ row q, rows[1]? = some row ∧ row.toPolicy = .ok q ∧ q.Undrifted sampleMirroring := by
  have hdefines : sampleMirroring.Defines sampleDefinition := rfl
  have hwhole : sampleDefinition.Whole := by
    simp [sampleDefinition, Value.Whole, membersWhole, itemsWhole]
  have hordered : sampleDefinition.Ordered := by
    refine ⟨?_, by simp [membersOrdered, Value.Ordered, itemsOrdered]⟩
    rw [Members.sorted_iff]
    decide
  have hdepth : sampleDefinition.depth ≤ 125 := by
    decide
  have hpriority : sampleMirroring.target.priority =
      String.ofList (intChars (Int64.toInt (-3))) := by
    decide
  -- the members are in the reverse order and one more stands among them
  have hgives : Gives Row.fields sampleObject (Row.valuesOf "/" "mirror" "queues" "^\"a\\"
      sampleDefinition (.number (.integer (.ofInt64 (-3))))) := by
    refine ⟨Row.fits_valuesOf _ _ _ _ _ _, [("node", .null)], by decide, ?_⟩
    exact (List.reverse_perm
      ((Row.fields.map Prod.fst).zip (Row.valuesOf _ _ _ _ _ _))).append_right _
  have hparse := parse?_text hwhole hordered (hdepth.trans (by decide))
  have hlisted : sampleMirroring.ListedBy "^\"a\\" (-3) sampleObject :=
    ⟨_, sampleDefinition, _, rfl, Or.inr hparse, Or.inr rfl, hgives⟩
  have hobjects : ∀ object ∈ sampleObjects, ∃ row : Row, row.ListedBy object := by
    refine List.forall_mem_cons.2 ⟨?_, List.forall_mem_singleton.2 ?_⟩
    · exact ⟨⟨"/", "other", "all", "", "", "true"⟩, .string "", .bool true, rfl, rfl,
        gives_zip (Row.fits_valuesOf _ _ _ _ _ _)⟩
    · exact ⟨⟨"/", "mirror", "queues", "^\"a\\", sampleDefinition.text, "-3"⟩, sampleDefinition,
        .number (.integer (.ofInt64 (-3))), rfl, hpriority.symm, hgives⟩
  have hlistable : ∀ object ∈ sampleObjects, ∀ m ∈ object, m.2.Listable 125 := by
    refine List.forall_mem_cons.2 ⟨?_, List.forall_mem_singleton.2 ?_⟩
    · intro m hm
      fin_cases hm
      all_goals exact ⟨trivial, trivial, by decide⟩
    · refine List.forall_mem_cons.2 ⟨⟨trivial, trivial, by decide⟩,
        List.forall_mem_cons.2 ⟨⟨hwhole, hordered, hdepth⟩, ?_⟩⟩
      intro m hm
      fin_cases hm
      all_goals exact ⟨trivial, trivial, by decide⟩
  have hanswer : Query.Answers sampleBroker none [] ["list_policies", "-p", "/"] .json
      (Value.array (sampleObjects.map .object)).text := rfl
  obtain ⟨-, hread⟩ := tryPoliciesIn_undrifted hdefines hwhole hordered hdepth rfl hpriority
  obtain ⟨rows, hrows, hlength, hrow⟩ := hread (show 1 < sampleObjects.length by decide) hanswer
    (writtenRecords?_text hlistable) hobjects hlisted
  exact ⟨hdefines, hwhole, hordered, hdepth, hpriority, hlisted, rows, hrows, hlength, hrow⟩

end BrokerPolicy
