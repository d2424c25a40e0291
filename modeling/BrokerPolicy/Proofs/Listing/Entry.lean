import BrokerPolicy.Proofs.Listing.Reading
import BrokerPolicy.Proofs.Policy.Description

/-!
A listed policy and an entry with the same values describe the same policy.

The reader of listings takes a definition and a priority by their texts, whatever they are. The
reader of entries refuses some values, and those that it accepts have the texts that a listing gives
them (`document?_eq_textOf`, `spelling?_eq_textOf`). So, where the scope is a word, the policy of
the row is described by the entry (`describedBy_described`), and an entry describes no other; where
it is none, nothing else is wrong with the entry (`faults_eq_textFaults`). Together:
`parseList?_ofEntry_agree`.
-/

namespace BrokerPolicy

open Json

/-! ### Values of a policy -/

/-- What a policy is listed with or configured with. Both readers accept a definition that is a
string or an object, and a priority that stands for itself. -/
structure PolicyValues where
  vhost : String
  name : String
  scope : String
  pattern : String
  definition : Value
  priority : Value
  isSome_document : definition.document?.isSome
  isScalar_priority : priority.IsScalar

namespace PolicyValues

/-- The values of the fields in an object of a listing. -/
def listed (values : PolicyValues) : List Value :=
  Row.valuesOf values.vhost values.name values.scope values.pattern values.definition
    values.priority

/-- The row that is listed. -/
def row (values : PolicyValues) : Row where
  vhost := values.vhost
  name := values.name
  scope := values.scope
  pattern := values.pattern
  definition := Row.textOf values.definition
  priority := Row.textOf values.priority

/-- The entry of a generic policy gives these values and no others. -/
structure GivenBy (values : PolicyValues) (e : Entry) : Prop where
  named : e.Names .generic
  accepted : ∀ argument ∈ e.map Prod.fst, argument ∈ Kind.generic.accepts
  vhost : e.get? "vhost" = some (.string values.vhost)
  name : e.get? "name" = some (.string values.name)
  scope : e.get? "apply_to" = some (.string values.scope)
  pattern : e.get? "pattern" = some (.string values.pattern)
  definition : e.get? "definition" = some values.definition
  priority : e.get? "priority" = some values.priority

end PolicyValues

/-- The generic policy that a row describes if its scope is a word. -/
def Row.described (r : Row) (scope : Scope) : Policy where
  target := {
    vhost := r.vhost
    name := r.name
    pattern := some r.pattern
    scope
    priority := r.priority
    typeTag := Kind.generic.tag }
  rule := .generic (some r.definition)

/-! ### Texts -/

/-- Where an entry may have a document, a listing gives the same text. -/
lemma Json.Value.document?_eq_textOf {v : Value} (h : v.document?.isSome) :
    v.document? = some (Row.textOf v) := by
  cases v with
  | string s | object members => rfl
  | null | bool b | number n | array items => cases h

/-- Where an entry may have a scalar, a listing gives the same text. -/
lemma Json.Value.spelling?_eq_textOf {v : Value} (h : v.IsScalar) :
    v.spelling? = some (Row.textOf v) := by
  cases v with
  | string s | number n => rfl
  | bool b => cases b <;> rfl
  | null | array items | object members => cases h

/-- A word that is no scope is refused as such, by name. -/
lemma Scope.parse_eq_error {s : String} (h : ∀ scope : Scope, s ≠ scope.name) :
    parse s = .error (.notInVocabulary .scope s) := by
  have hqueues : s ≠ "queues" := h .queues
  have hexchanges : s ≠ "exchanges" := h .exchanges
  have hall : s ≠ "all" := h .all
  rw [parse, if_neg hqueues, if_neg hexchanges, if_neg hall]

/-! ### The row -/

/-- Only the scope of a row can make it refused. -/
lemma Row.toPolicy_eq_map (r : Row) : r.toPolicy = (Scope.parse r.scope).map r.described := by
  rw [toPolicy]
  cases Scope.parse r.scope <;> rfl

namespace PolicyValues

variable {values : PolicyValues} {e : Entry} {object : List (String × Value)}

lemma listedBy (h : Gives Row.fields object values.listed) : values.row.ListedBy object :=
  ⟨values.definition, values.priority, rfl, rfl, h⟩

/-! ### The entry -/

/-- A generic entry may have any document as its definition. -/
lemma GivenBy.ruleGrammatical (h : values.GivenBy e) : Kind.generic.RuleGrammatical e :=
  ⟨Entry.mayHave_of_get? h.pattern (.inr rfl),
    Entry.mayHave_of_get? h.definition (.inr values.isSome_document)⟩

/-- An entry that gives the values of a row is grammatical if the scope is one. -/
lemma GivenBy.grammatical (h : values.GivenBy e) {scope : Scope}
    (hscope : values.scope = scope.name) : Kind.generic.Grammatical e where
  named := h.named
  accepted := h.accepted
  vhost := ⟨_, h.vhost, rfl⟩
  name := ⟨_, h.name, rfl⟩
  rule := h.ruleGrammatical
  scope := Entry.mayHave_of_get? h.scope ⟨scope, congrArg Value.string hscope⟩
  priority := Entry.mayHave_of_get? h.priority values.isScalar_priority

/-- The entry describes the policy of the row. -/
lemma GivenBy.describedBy_described (h : values.GivenBy e) {scope : Scope}
    (hscope : values.scope = scope.name) : (values.row.described scope).DescribedBy e where
  kind := h.named
  typeTag := rfl
  vhost := Entry.text?_of_get? h.vhost
  name := Entry.text?_of_get? h.name
  pattern := (Entry.text?_of_get? h.pattern).symm
  scope := Entry.gives_of_get? h.scope (congrArg Value.string hscope)
  priority := Entry.gives_of_get? h.priority (Value.spelling?_eq_textOf values.isScalar_priority)
  rule := by
    show some (Row.textOf values.definition) = (e.get? "definition").bind Value.document?
    rw [h.definition, Option.bind_some, Value.document?_eq_textOf values.isSome_document]

/-- Only the scope can be wrong. -/
lemma GivenBy.faults_eq_textFaults (h : values.GivenBy e) :
    Kind.generic.faults e = Vocabulary.scope.textFaults values.scope := by
  have htext {name s : String} (hget : e.get? name = some (.string s)) :
      e.requiredFaults name (Value.textFaults name) = [] :=
    (Entry.requiredFaults_eq_nil_iff (Value.textFaults_eq_nil_iff name)).2 ⟨_, hget, rfl⟩
  have hpriority : e.optionalFaults "priority" (Value.textFaults "priority") = [] :=
    (Entry.optionalFaults_eq_nil_iff (Value.textFaults_eq_nil_iff "priority")).2
      (Entry.mayHave_of_get? h.priority values.isScalar_priority)
  have hscope : e.optionalFaults "apply_to" (Vocabulary.scope.faults "apply_to") =
      Vocabulary.scope.textFaults values.scope := by
    rw [Entry.optionalFaults, h.scope]
    rfl
  rw [Kind.faults, Entry.unexpectedFaults_eq_nil_iff.2 h.accepted, htext h.vhost, htext h.name,
    Kind.ruleFaults_eq_nil_iff.2 h.ruleGrammatical, hscope, hpriority, List.append_nil]
  rfl

/-- The entry makes of the scope what the row makes of it. -/
lemma GivenBy.ofEntry_eq_map (h : values.GivenBy e) :
    Policy.ofEntry e = (Scope.parse values.scope).map values.row.described := by
  cases hscope : Scope.parse values.scope with
  | ok scope =>
      have hname := Scope.parse_eq_ok_iff.1 hscope
      exact Policy.ofEntry_of_describedBy (h.grammatical hname) (h.describedBy_described hname)
  | error error =>
      refine Policy.ofEntry_eq_error_iff.2 (.inr ⟨.generic, h.named, ?_⟩)
      rw [h.faults_eq_textFaults]
      exact (Scope.reports_parse values.scope error).1 hscope

end PolicyValues

/-- **Listings and entries are read alike**: let an object of a listing and an entry give the same
values to a policy. From every listing that has the object, whatever else is listed and however it
is written, a row is read that makes the same of them as the entry. If the scope is a word, both
make the same generic policy, whose definition and priority are the texts of the values. Otherwise
both refuse the scope, with the same error. -/
theorem parseList?_ofEntry_agree {values : PolicyValues} {object : List (String × Value)}
    {e : Entry} (hobject : Gives Row.fields object values.listed) (he : values.GivenBy e) :
    (∀ {depth i : ℕ} {text : String} {objects : List (List (String × Value))},
      writtenRecords? Row.fields depth text = some objects →
      (∀ other ∈ objects, ∃ r : Row, r.ListedBy other) → objects[i]? = some object →
      ∃ rows, Row.parseList? text = some rows ∧ rows[i]? = some values.row) ∧
    values.row.toPolicy = Policy.ofEntry e ∧
    ((∃ scope : Scope, values.scope = scope.name ∧
        Policy.ofEntry e = .ok (values.row.described scope)) ∨
      (∀ scope : Scope, values.scope ≠ scope.name) ∧
        Policy.ofEntry e = .error (.notInVocabulary .scope values.scope)) := by
  refine ⟨fun hwritten hothers hi => ?_, ?_, ?_⟩
  · exact Row.getElem?_parseList? hwritten hothers hi (PolicyValues.listedBy hobject)
  · rw [he.ofEntry_eq_map, Row.toPolicy_eq_map]
    rfl
  · rw [he.ofEntry_eq_map]
    -- both paths read every field but the scope as it stands, so only the scope decides
    by_cases hword : ∃ scope : Scope, values.scope = scope.name
    · obtain ⟨scope, hscope⟩ := hword
      refine .inl ⟨scope, hscope, ?_⟩
      rw [Scope.parse_eq_ok_iff.2 hscope]
      rfl
    · rw [not_exists] at hword
      refine .inr ⟨hword, ?_⟩
      rw [Scope.parse_eq_error hword]
      rfl

/-- A policy whose definition is an object and whose priority is a number. -/
def sampleValues : PolicyValues where
  vhost := "/"
  name := "lazy"
  scope := "queues"
  pattern := "^lazy"
  definition := .object [("queue-mode", .string "lazy"), ("ttl", .null)]
  priority := .number (.integer (.ofInt64 (-3)))
  isSome_document := rfl
  isScalar_priority := rfl

/-- The policy in a listing, backwards and with a member that is not read. -/
def sampleListed : List (String × Value) :=
  [("priority", sampleValues.priority), ("definition", sampleValues.definition),
    ("pattern", .string "^lazy"), ("apply-to", .string "queues"), ("name", .string "lazy"),
    ("vhost", .string "/"), ("node", .null)]

/-- The policy in a configuration. -/
def sampleEntry : Entry :=
  [("apply_to", .string "queues"), ("definition", sampleValues.definition),
    ("name", .string "lazy"), ("pattern", .string "^lazy"), ("priority", sampleValues.priority),
    ("type", .string "generic"), ("vhost", .string "/")]

/-- The listed object has its members in another order than the entry, and one member more. -/
theorem parseList?_ofEntry_agree_sample :
    Gives Row.fields sampleListed sampleValues.listed ∧ sampleValues.GivenBy sampleEntry ∧
      ∃ rows, Row.parseList? (Value.array [.object sampleListed]).text = some rows ∧
        rows[0]? = some sampleValues.row ∧
        sampleValues.row.toPolicy = Policy.ofEntry sampleEntry ∧
        Policy.ofEntry sampleEntry = .ok (sampleValues.row.described .queues) := by
  have hgives : Gives Row.fields sampleListed sampleValues.listed := by
    refine ⟨Row.fits_valuesOf _ _ _ _ _ _, [("node", .null)], by decide, ?_⟩
    exact (List.reverse_perm ((Row.fields.map Prod.fst).zip sampleValues.listed)).append_right _
  have hgiven : sampleValues.GivenBy sampleEntry := {
    named := .inl rfl
    accepted := by decide
    vhost := rfl
    name := rfl
    scope := rfl
    pattern := rfl
    definition := rfl
    priority := rfl }
  have hlistable : ∀ object ∈ [sampleListed], ∀ m ∈ object, m.2.Listable 125 := by
    refine List.forall_mem_singleton.2 fun m hm => ?_
    fin_cases hm
    · exact ⟨trivial, trivial, by decide⟩
    · refine ⟨?_, ?_, by decide⟩
      · simp [sampleValues, Value.Whole, membersWhole]
      · refine ⟨?_, by simp [membersOrdered, Value.Ordered]⟩
        rw [Members.sorted_iff]
        decide
    all_goals exact ⟨trivial, trivial, by decide⟩
  have hothers : ∀ other ∈ [sampleListed], ∃ r : Row, r.ListedBy other :=
    List.forall_mem_singleton.2 ⟨sampleValues.row, PolicyValues.listedBy hgives⟩
  obtain ⟨hread, hsame, hresult⟩ := parseList?_ofEntry_agree hgives hgiven
  obtain ⟨rows, hrows, hrow⟩ := hread (i := 0) (writtenRecords?_text hlistable) hothers rfl
  refine ⟨hgives, hgiven, rows, hrows, hrow, hsame, ?_⟩
  rcases hresult with ⟨scope, hscope, hpolicy⟩ | ⟨hword, -⟩
  · obtain rfl : Scope.queues = scope :=
      Except.ok.inj ((Scope.parse_name .queues).symm.trans (Scope.parse_eq_ok_iff.2 hscope))
    exact hpolicy
  · exact absurd rfl (hword .queues)

end BrokerPolicy
