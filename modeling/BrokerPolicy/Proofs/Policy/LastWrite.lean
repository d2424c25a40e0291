import BrokerPolicy.Proofs.Policy.Faults
import BrokerPolicy.Proofs.Policy.History

/-!
What a policy holds after a run of changes: in every field the last value that was written there.

A change that is not refused writes one field (`Change.write?`), and whether it is refused depends
on the change alone (`Change.outcome`); a changed copy in the place of the policy is the same as a
change in place. So a run is the sequence of its writes (`mutate_eq`). Contents of fields are read
and written by `Policy.get` and `Policy.put`: a write is read in its own field and in no other
(`get_put`), a policy is what its fields hold (`eq_of_get`), and so writes to two fields can change
places (`put_comm`). With these laws the results on runs, `mutate_last_write`, are results on lists.
-/

namespace BrokerPolicy

/-! ### Fields -/

/-- The fields of policies. The last six belong to the rule, and every kind has some of them. -/
inductive Field where
  | vhost
  | name
  | pattern
  | scope
  | priority
  | typeTag
  | definition
  | ttl
  | ofMessages
  | mode
  | sync
  | params
  deriving DecidableEq

/-- What a field holds. -/
abbrev Field.Content : Field → Type
  | .vhost | .name | .priority | .typeTag => String
  | .pattern | .definition => Option String
  | .scope => Scope
  | .ttl => Int64
  | .ofMessages => Bool
  | .mode => MirrorMode
  | .sync => SyncMode
  | .params => Option Json.Value

/-- A field and what is written there. -/
structure Write where
  field : Field
  content : field.Content

/-- What is written to a field. -/
def Write.content? (w : Write) (f : Field) : Option f.Content :=
  if h : w.field = f then some (h ▸ w.content) else none

namespace Policy

/-- What a policy holds in a field, if its kind has the field. -/
def get (p : Policy) : (f : Field) → Option f.Content
  | .vhost => some p.target.vhost
  | .name => some p.target.name
  | .pattern => some p.target.pattern
  | .scope => some p.target.scope
  | .priority => some p.target.priority
  | .typeTag => some p.target.typeTag
  | .definition => match p.rule with
    | .generic definition => some definition
    | _ => none
  | .ttl => match p.rule with
    | .ttl milliseconds _ => some milliseconds
    | _ => none
  | .ofMessages => match p.rule with
    | .ttl _ ofMessages => some ofMessages
    | _ => none
  | .mode => match p.rule with
    | .ha mode _ _ => some mode
    | _ => none
  | .sync => match p.rule with
    | .ha _ sync _ => some sync
    | _ => none
  | .params => match p.rule with
    | .ha _ _ params => some params
    | _ => none

/-- The policy after a write, which has no effect if its kind lacks the field. -/
def put (p : Policy) : Write → Policy
  | ⟨.vhost, text⟩ => p.setVhost text
  | ⟨.name, text⟩ => { p with target.name := text }
  | ⟨.pattern, pattern⟩ => { p with target.pattern := pattern }
  | ⟨.scope, scope⟩ => p.setScope scope
  | ⟨.priority, text⟩ => p.setPriority text
  | ⟨.typeTag, text⟩ => p.setTypeTag text
  | ⟨.definition, definition⟩ => match p.rule with
    | .generic _ => { p with rule := .generic definition }
    | _ => p
  | ⟨.ttl, milliseconds⟩ => p.setTtl milliseconds
  | ⟨.ofMessages, flag⟩ => p.setOfMessages flag
  | ⟨.mode, mode⟩ => p.setMode mode
  | ⟨.sync, sync⟩ => p.setSync sync
  | ⟨.params, params⟩ => p.setParams params

variable {p q : Policy} {f : Field}

/-- What is written to a field is read there, provided that the policy has the field. -/
lemma get_put_self (p : Policy) (w : Write) :
    (p.put w).get w.field = (p.get w.field).map fun _ => w.content := by
  obtain ⟨target, rule⟩ := p
  obtain ⟨f, content⟩ := w
  cases f with
  | vhost | name | pattern | scope | priority | typeTag => rfl
  | definition | ttl | ofMessages | mode | sync | params => cases rule <;> rfl

/-- What is written to another field is not seen. -/
lemma get_put_of_ne {w : Write} (h : w.field ≠ f) : (p.put w).get f = p.get f := by
  obtain ⟨target, rule⟩ := p
  obtain ⟨g, content⟩ := w
  cases g with
  | vhost | name | pattern | scope | priority | typeTag =>
      cases f <;> first | rfl | exact absurd rfl h
  | definition | ttl | ofMessages | mode | sync | params =>
      cases rule <;> cases f <;> first | rfl | exact absurd rfl h

/-- **A write is read in its own field and in no other.** -/
lemma get_put (p : Policy) (w : Write) (f : Field) :
    (p.put w).get f = (p.get f).map fun held => (w.content? f).getD held := by
  by_cases h : w.field = f
  · subst h
    simp only [get_put_self, Write.content?, dite_true, Option.getD_some]
  · simp only [get_put_of_ne h, Write.content?, h, dite_false, Option.getD_none, Option.map_id']

/-- A policy is what its fields hold. -/
lemma eq_of_get (h : ∀ f, p.get f = q.get f) : p = q := by
  obtain ⟨⟨vhost, name, pattern, scope, priority, typeTag⟩, rule⟩ := p
  obtain ⟨⟨vhost', name', pattern', scope', priority', typeTag'⟩, rule'⟩ := q
  obtain rfl : vhost = vhost' := Option.some.inj (h .vhost)
  obtain rfl : name = name' := Option.some.inj (h .name)
  obtain rfl : pattern = pattern' := Option.some.inj (h .pattern)
  obtain rfl : scope = scope' := Option.some.inj (h .scope)
  obtain rfl : priority = priority' := Option.some.inj (h .priority)
  obtain rfl : typeTag = typeTag' := Option.some.inj (h .typeTag)
  -- a field the rule does not have is read as `none`, so equal fields force equal kinds
  cases rule with
  | generic definition =>
      cases rule' with
      | generic definition' =>
          obtain rfl : definition = definition' := Option.some.inj (h .definition)
          rfl
      | ttl n b | ha mode sync params => cases h .definition
  | ttl n b =>
      cases rule' with
      | ttl n' b' =>
          obtain rfl : n = n' := Option.some.inj (h .ttl)
          obtain rfl : b = b' := Option.some.inj (h .ofMessages)
          rfl
      | generic definition | ha mode sync params => cases h .ttl
  | ha mode sync params =>
      cases rule' with
      | ha mode' sync' params' =>
          obtain rfl : mode = mode' := Option.some.inj (h .mode)
          obtain rfl : sync = sync' := Option.some.inj (h .sync)
          obtain rfl : params = params' := Option.some.inj (h .params)
          rfl
      | generic definition | ttl n b => cases h .mode

/-- **Writes to two fields can change places.** -/
lemma put_comm {v w : Write} (h : v.field ≠ w.field) : (p.put v).put w = (p.put w).put v := by
  refine eq_of_get fun f => ?_
  by_cases hv : v.field = f
  · have hw : w.field ≠ f := fun hw => h (hv.trans hw.symm)
    rw [get_put_of_ne hw, get_put, get_put, get_put_of_ne hw]
  · rw [get_put, get_put_of_ne hv, get_put_of_ne hv, get_put]

/-- After writes a field holds the last of them that was to it. -/
lemma get_foldl_put (writes : List Write) (f : Field) : (writes.foldl put p).get f =
    (p.get f).map fun initial => (writes.filterMap (·.content? f)).getLastD initial := by
  induction writes generalizing p with
  | nil => simp
  | cons w writes ih =>
      rw [List.foldl_cons, ih, get_put, Option.map_map]
      congr 1
      funext initial
      rw [Function.comp_apply, List.filterMap_cons]
      cases w.content? f with
      | none => rfl
      | some content => rw [List.getLastD_cons, Option.getD_some]

end Policy

/-! ### Words by their names -/

namespace Vocabulary

/-- A word is admitted, another text is refused. -/
def admits (vocabulary : Vocabulary) (s : String) : Except PolicyError Unit :=
  if s ∈ vocabulary.words then .ok () else .error (.notInVocabulary vocabulary s)

/-- The words of the vocabulary are the names of the members, and the members are read from them. -/
structure Reading {α : Type} (vocabulary : Vocabulary) (parse : String → Except PolicyError α)
    (members : List α) (name : α → String) : Prop where
  words : vocabulary.words = members.map name
  ok_iff : ∀ {s x}, parse s = .ok x ↔ s = name x
  reports : ∀ s, Reports (parse s) (vocabulary.textFaults s)

namespace Reading

variable {α : Type} {vocabulary : Vocabulary} {parse : String → Except PolicyError α}
  {members : List α} {name : α → String} {s : String}

/-- A word of the vocabulary is read, and admitted. -/
lemma of_find? (h : vocabulary.Reading parse members name) {x : α}
    (hx : members.find? (name · = s) = some x) :
    parse s = .ok x ∧ vocabulary.admits s = .ok () := by
  have hname : name x = s := of_decide_eq_true (List.find?_some (p := (name · = s)) hx)
  refine ⟨h.ok_iff.2 hname.symm, if_pos ?_⟩
  rw [h.words, ← hname]
  exact List.mem_map_of_mem (List.mem_of_find?_eq_some hx)

/-- Any other word is refused both ways, with the same error. -/
lemma of_find?_eq_none (h : vocabulary.Reading parse members name)
    (hnone : members.find? (name · = s) = none) :
    parse s = .error (.notInVocabulary vocabulary s) ∧
      vocabulary.admits s = .error (.notInVocabulary vocabulary s) := by
  have hmem : s ∉ vocabulary.words := by
    rw [h.words, List.mem_map]
    rintro ⟨x, hx, hname⟩
    exact List.find?_eq_none.1 hnone x hx (decide_eq_true hname)
  refine ⟨(h.reports s _).2 ?_, if_neg hmem⟩
  rw [textFaults, if_neg hmem]
  rfl

lemma isOk_admits (h : vocabulary.Reading parse members name) (write : α → Write) (s : String) :
    (vocabulary.admits s).isOk = ((members.find? (name · = s)).map write).isSome := by
  cases hfind : members.find? (name · = s) with
  | some x => rw [(h.of_find? hfind).2]; rfl
  | none => rw [(h.of_find?_eq_none hfind).2]; rfl

/-- What is read is written, and if nothing is read, the policy is left as it was. -/
lemma assign_eq (h : vocabulary.Reading parse members name) (p : Policy) (write : α → Write)
    (s : String) :
    (match (parse s).map fun x => p.put (write x) with
      | .ok q => (.ok (), q)
      | .error error => (.error error, p)) =
      (vocabulary.admits s, ((members.find? (name · = s)).map write).elim p p.put) := by
  cases hfind : members.find? (name · = s) with
  | some x =>
      obtain ⟨hparse, hadmits⟩ := h.of_find? hfind
      rw [hparse, hadmits]
      rfl
  | none =>
      obtain ⟨hparse, hadmits⟩ := h.of_find?_eq_none hfind
      rw [hparse, hadmits]
      rfl

end Reading

end Vocabulary

lemma Scope.reading : Vocabulary.scope.Reading parse [queues, exchanges, all] name :=
  ⟨rfl, parse_eq_ok_iff, reports_parse⟩

lemma MirrorMode.reading : Vocabulary.mirroring.Reading parse [all, exactly, nodes] name :=
  ⟨rfl, parse_eq_ok_iff, reports_parse⟩

lemma SyncMode.reading : Vocabulary.synchronisation.Reading parse [automatic, manual] name :=
  ⟨rfl, parse_eq_ok_iff, reports_parse⟩

/-! ### Changes -/

namespace Change

/-- The field of a change. -/
def field : Change → Field
  | .vhost _ => .vhost
  | .pattern _ => .pattern
  | .scope _ | .scopeNamed _ => .scope
  | .priority _ => .priority
  | .typeTag _ => .typeTag
  | .definition _ => .definition
  | .ttl _ => .ttl
  | .ofMessages _ => .ofMessages
  | .modeNamed _ => .mode
  | .syncNamed _ => .sync
  | .params _ => .params

/-- Scope and modes that are given by name have to be words; nothing else is refused. -/
def outcome : Change → Except PolicyError Unit
  | .scopeNamed name => Vocabulary.scope.admits name
  | .modeNamed name => Vocabulary.mirroring.admits name
  | .syncNamed name => Vocabulary.synchronisation.admits name
  | _ => .ok ()

/-- What a change writes, if it is not refused. -/
def write? : Change → Option Write
  | .vhost text => some ⟨.vhost, text⟩
  | .pattern text => some ⟨.pattern, some text⟩
  | .scope x => some ⟨.scope, x⟩
  | .scopeNamed name => ([.queues, .exchanges, .all].find? (Scope.name · = name)).map (⟨.scope, ·⟩)
  | .priority text => some ⟨.priority, text⟩
  | .typeTag text => some ⟨.typeTag, text⟩
  | .definition text => some ⟨.definition, some text⟩
  | .ttl milliseconds => some ⟨.ttl, milliseconds⟩
  | .ofMessages flag => some ⟨.ofMessages, flag⟩
  | .modeNamed name => ([.all, .exactly, .nodes].find? (MirrorMode.name · = name)).map (⟨.mode, ·⟩)
  | .syncNamed name => ([.automatic, .manual].find? (SyncMode.name · = name)).map (⟨.sync, ·⟩)
  | .params value => some ⟨.params, value⟩

/-- What a change writes to a field. -/
def written? (c : Change) (f : Field) : Option f.Content :=
  c.write?.bind (·.content? f)

/-- A change writes to its own field, or not at all. -/
lemma field_of_write? {c : Change} {w : Write} (h : c.write? = some w) : w.field = c.field := by
  cases c with
  | scopeNamed name | modeNamed name | syncNamed name =>
      obtain ⟨x, -, rfl⟩ := Option.map_eq_some_iff.1 h
      rfl
  | _ =>
      obtain rfl := Option.some.inj h
      rfl

/-- A change fails exactly if it writes nothing. -/
lemma isOk_outcome (c : Change) : c.outcome.isOk = c.write?.isSome := by
  cases c with
  | scopeNamed name => exact Scope.reading.isOk_admits (⟨.scope, ·⟩) name
  | modeNamed name => exact MirrorMode.reading.isOk_admits (⟨.mode, ·⟩) name
  | syncNamed name => exact SyncMode.reading.isOk_admits (⟨.sync, ·⟩) name
  | _ => rfl

/-- **A change that is not refused is a write**, and a refused one leaves the policy as it was. -/
lemma assign_eq (c : Change) (p : Policy) : c.assign p = (c.outcome, c.write?.elim p p.put) := by
  cases c with
  | scopeNamed name => exact Scope.reading.assign_eq p (⟨.scope, ·⟩) name
  | modeNamed name => exact MirrorMode.reading.assign_eq p (⟨.mode, ·⟩) name
  | syncNamed name => exact SyncMode.reading.assign_eq p (⟨.sync, ·⟩) name
  | _ => rfl

end Change

/-! ### Runs -/

/-- A change of a policy: a changed copy takes its place, if the change is not refused, or it is
changed in place. -/
inductive Mutation where
  | onCopy (change : Change)
  | inPlace (change : Change)

namespace Mutation

def change : Mutation → Change
  | .onCopy change | .inPlace change => change

/-- The outcome of a step, and the policy after it. -/
def run : Mutation → Policy → Except PolicyError Unit × Policy
  | .onCopy change, p => match change.build p with
    | .ok copy => (.ok (), copy)
    | .error error => (.error error, p)
  | .inPlace change, p => change.assign p

/-- Building and assigning come to the same change of a policy. -/
lemma run_eq (step : Mutation) (p : Policy) : step.run p = step.change.assign p := by
  cases step <;> rfl

end Mutation

namespace Policy

variable {p q : Policy} {f : Field}

/-- The outcomes of steps one after the other, and the policy after them. -/
def mutate (p : Policy) : List Mutation → List (Except PolicyError Unit) × Policy
  | [] => ([], p)
  | step :: steps =>
    let (outcome, changed) := step.run p
    let (outcomes, last) := changed.mutate steps
    (outcome :: outcomes, last)

/-- **A run is its writes**; every step has its own outcome, whatever came before. -/
lemma mutate_eq (p : Policy) (steps : List Mutation) :
    p.mutate steps = (steps.map (·.change.outcome),
      (steps.filterMap (·.change.write?)).foldl put p) := by
  induction steps generalizing p with
  | nil => rfl
  | cons step steps ih =>
      rw [mutate, Mutation.run_eq, Change.assign_eq]
      dsimp only
      rw [ih, List.map_cons, List.filterMap_cons]
      cases step.change.write? <;> rfl

/-- A run makes its changes in place. -/
lemma mutate_snd (p : Policy) (steps : List Mutation) :
    (p.mutate steps).2 = p.replay (steps.map (·.change)) := by
  induction steps generalizing p with
  | nil => rfl
  | cons step steps ih =>
      rw [mutate, Mutation.run_eq]
      exact ih _

/-- After any changes a field holds what was last written to it, or what it held before. -/
lemma get_mutate (p : Policy) (steps : List Mutation) (f : Field) : (p.mutate steps).2.get f =
    (p.get f).map fun initial => (steps.filterMap (·.change.written? f)).getLastD initial := by
  rw [mutate_eq, get_foldl_put, List.filterMap_filterMap]
  rfl

/-- Refused steps can be left out. -/
lemma mutate_filter (p : Policy) (steps : List Mutation) :
    (p.mutate (steps.filter (·.change.outcome.isOk))).2 = (p.mutate steps).2 := by
  have hwrites : (steps.filter (·.change.outcome.isOk)).filterMap (·.change.write?) =
      steps.filterMap (·.change.write?) := by
    rw [List.filterMap_filter]
    congr 1
    funext step
    rw [Change.isOk_outcome]
    cases step.change.write? <;> rfl
  simp only [mutate_eq, hwrites]

/-- Steps on two fields can change places. -/
lemma mutate_exchange (p : Policy) (before after : List Mutation) {a b : Mutation}
    (h : a.change.field ≠ b.change.field) : (p.mutate (before ++ b :: a :: after)).2 =
      (p.mutate (before ++ a :: b :: after)).2 := by
  simp only [mutate_eq, List.filterMap_append, List.filterMap_cons, List.foldl_append]
  cases ha : a.change.write? with
  | none => rfl
  | some v =>
      cases hb : b.change.write? with
      | none => rfl
      | some w =>
          have hfield : v.field ≠ w.field := by
            rwa [Change.field_of_write? ha, Change.field_of_write? hb]
          rw [List.foldl_cons, List.foldl_cons, List.foldl_cons, List.foldl_cons, put_comm hfield]

/-- It makes no difference which changes are made on a copy. -/
lemma mutate_congr (p : Policy) {steps steps' : List Mutation}
    (h : steps'.map (·.change) = steps.map (·.change)) : p.mutate steps' = p.mutate steps := by
  have houtcomes (steps : List Mutation) :
      steps.map (·.change.outcome) = (steps.map (·.change)).map Change.outcome := by
    rw [List.map_map]
    rfl
  have hwrites (steps : List Mutation) :
      steps.filterMap (·.change.write?) = (steps.map (·.change)).filterMap Change.write? := by
    rw [List.filterMap_map]
    rfl
  rw [mutate_eq, mutate_eq, houtcomes, houtcomes, hwrites, hwrites, h]

end Policy

/-! ### New policies -/

/-- A new policy of a kind; a generic one has no pattern. -/
def Kind.new (kind : Kind) (vhost name pattern : String) : Policy :=
  match kind with
  | .generic => .generic vhost name
  | .ttl => .timeToLive vhost name pattern
  | .ha => .mirrored vhost name pattern

namespace Policy

/-- The changes that give a new policy the fields of this one, each once. -/
def assignments (p : Policy) : List Change :=
  p.target.pattern.toList.map .pattern ++
    [.scope p.target.scope, .priority p.target.priority, .typeTag p.target.typeTag] ++
    match p.rule with
    | .generic definition => definition.toList.map .definition
    | .ttl milliseconds ofMessages => [.ttl milliseconds, .ofMessages ofMessages]
    | .ha mode sync params => [.modeNamed mode.name, .syncNamed sync.name, .params params]

/-- **A policy is made anew from its fields**, unless it lacks a pattern that its kind needs. -/
lemma replay_assignments {p : Policy} (h : p.kind = .generic ∨ p.Typed) :
    (p.kind.new p.vhost p.name (p.target.pattern.getD "")).replay p.assignments = p := by
  obtain ⟨⟨vhost, name, pattern, scope, priority, typeTag⟩, rule⟩ := p
  cases rule with
  | generic definition => cases pattern <;> cases definition <;> rfl
  | ttl milliseconds ofMessages =>
      obtain ⟨pattern, rfl⟩ := Option.isSome_iff_exists.1 (h.resolve_left Kind.noConfusion).pattern
      rfl
  | ha mode sync params =>
      obtain ⟨pattern, rfl⟩ := Option.isSome_iff_exists.1 (h.resolve_left Kind.noConfusion).pattern
      cases mode <;> cases sync <;> rfl

/-- No changes make another kind of a policy. -/
lemma kind_mutate (p : Policy) (steps : List Mutation) : (p.mutate steps).2.kind = p.kind := by
  induction steps generalizing p with
  | nil => rfl
  | cons step steps ih =>
      rw [mutate, Mutation.run_eq]
      exact (ih _).trans (step.change.kind_assign p)

/-- A policy of a typed kind has a pattern from the beginning. -/
lemma typed_mutate {kind : Kind} (hkind : kind ≠ .generic) (vhost name pattern : String)
    (steps : List Mutation) : ((kind.new vhost name pattern).mutate steps).2.Typed := by
  rw [mutate_snd]
  refine Typed.replay ?_ _
  cases kind with
  | generic => exact absurd rfl hkind
  | ttl | ha => exact ⟨Kind.noConfusion, rfl⟩

/-- **The last write counts**: in a run of changes of a new policy, on copies and in place, a step
is refused only if it names a scope or a mode that is no word. After the run a field holds what the
last step wrote there that was not refused, or what it held at first. So refused steps can be left
out, steps on two fields can change places, and copies make no difference. And the policy is the new
one with these fields, so it has the definition, the identity and the commands of that one. -/
theorem mutate_last_write (kind : Kind) (vhost name pattern : String) (steps : List Mutation) :
    let p := kind.new vhost name pattern
    let q := (p.mutate steps).2
    (p.mutate steps).1 = steps.map (·.change.outcome) ∧
      (∀ f, q.get f = (p.get f).map fun initial =>
        (steps.filterMap (·.change.written? f)).getLastD initial) ∧
      (p.mutate (steps.filter (·.change.outcome.isOk))).2 = q ∧
      (∀ before a b after, steps = before ++ a :: b :: after →
        a.change.field ≠ b.change.field → (p.mutate (before ++ b :: a :: after)).2 = q) ∧
      (∀ steps', steps'.map (·.change) = steps.map (·.change) →
        p.mutate steps' = p.mutate steps) ∧
      (kind.new q.vhost q.name (q.target.pattern.getD "")).replay q.assignments = q := by
  intro p q
  have hkind : q.kind = kind := (kind_mutate p steps).trans (by cases kind <;> rfl)
  refine ⟨congrArg Prod.fst (mutate_eq p steps), get_mutate p steps, mutate_filter p steps, ?_,
    fun steps' h => mutate_congr p h, ?_⟩
  · rintro before a b after rfl h
    exact mutate_exchange p before after h
  -- a typed policy still has its pattern after any changes, which is what a new one needs
  · have hq : q.kind = .generic ∨ q.Typed := by
      by_cases h : kind = .generic
      · exact .inl (hkind.trans h)
      · exact .inr (typed_mutate h vhost name pattern steps)
    have hnew := replay_assignments hq
    rwa [hkind] at hnew

/-- A mirroring is given two modes, of which the last counts, and a scope that is none. The mode is
changed back before the priority or after it, on a copy or in place. -/
theorem mutate_last_write_sample :
    let p := Kind.ha.new "/" "mirror" "^"
    let refused : Mutation := .onCopy (.scopeNamed "nowhere")
    let priority : Mutation := .inPlace (.priority "5")
    let q := (p.mutate [.onCopy (.modeNamed "nodes"), refused, .inPlace (.modeNamed "exactly"),
      priority]).2
    q.get .mode = some .exactly ∧ q.get .scope = some .queues ∧
      (p.mutate [.onCopy (.modeNamed "nodes"), refused, priority,
        .inPlace (.modeNamed "exactly")]).2 = q ∧
      (p.mutate [.inPlace (.modeNamed "nodes"), refused, .onCopy (.modeNamed "exactly"),
        priority]).2 = q := by
  intro p refused priority q
  obtain ⟨-, hget, -, hexchange, hcopies, -⟩ := mutate_last_write .ha "/" "mirror" "^"
    [.onCopy (.modeNamed "nodes"), refused, .inPlace (.modeNamed "exactly"), priority]
  exact ⟨hget .mode, hget .scope,
    hexchange [.onCopy (.modeNamed "nodes"), refused] (.inPlace (.modeNamed "exactly")) priority []
      rfl (by decide),
    congrArg Prod.snd (hcopies [.inPlace (.modeNamed "nodes"), refused,
      .onCopy (.modeNamed "exactly"), priority] rfl)⟩

end Policy

end BrokerPolicy
