import BrokerPolicy.Proofs.Policy.Faults

/-!
The entries that describe a policy, and the policies that they describe.

`Kind.Grammatical` is what an entry of a kind has to be like, argument by argument; it is what has
no faults (`faults_eq_nil_iff`). `Policy.DescribedBy` is what a policy has from its entry: the
coerced value of each argument that is given, and the default of each that is not
(`gives_of_change`). Together: `ofEntry_grammar`.
-/

namespace BrokerPolicy

open Json

/-! ### Grammatical entries -/

namespace Json.Value

/-- A string, a number or a truth value. -/
def IsScalar (v : Value) : Prop :=
  v.spelling?.isSome

/-- Null, or something that has the form. -/
def IsNullOr (P : Value → Prop) (v : Value) : Prop :=
  v = .null ∨ P v

end Json.Value

namespace Entry

/-- An argument that is there and has the form. -/
def Has (e : Entry) (name : String) (P : Value → Prop) : Prop :=
  ∃ v, e.get? name = some v ∧ P v

/-- An argument that has the form if it is there. -/
def MayHave (e : Entry) (name : String) (P : Value → Prop) : Prop :=
  ∀ v, e.get? name = some v → P v

end Entry

namespace Kind

/-- The arguments that only this kind reads have their forms. -/
def RuleGrammatical (kind : Kind) (e : Entry) : Prop :=
  match kind with
  | .generic =>
    e.MayHave "pattern" (Value.IsNullOr Value.IsScalar) ∧
      e.MayHave "definition" (Value.IsNullOr fun v => v.document?.isSome)
  | .ttl =>
    e.Has "pattern" Value.IsScalar ∧ e.MayHave "ttl" fun v => ∃ n, Coercion.integer "ttl" v = .ok n
  | .ha =>
    e.Has "pattern" Value.IsScalar ∧
      e.MayHave "mode" (fun v => ∃ mode : MirrorMode, v = .string mode.name) ∧
      e.MayHave "sync_mode" fun v => ∃ sync : SyncMode, v = .string sync.name

/-- An entry as one of this kind has to be. -/
structure Grammatical (kind : Kind) (e : Entry) : Prop where
  named : e.Names kind
  accepted : ∀ argument ∈ e.map Prod.fst, argument ∈ kind.accepts
  vhost : e.Has "vhost" Value.IsScalar
  name : e.Has "name" Value.IsScalar
  rule : kind.RuleGrammatical e
  scope : e.MayHave "apply_to" fun v => ∃ scope : Scope, v = .string scope.name
  priority : e.MayHave "priority" Value.IsScalar

end Kind

/-! ### Described policies -/

namespace Entry

/-- The text that an argument is given as. -/
def text? (e : Entry) (name : String) : Option String :=
  (e.get? name).bind Value.spelling?

/-- What an argument tells, or the default if it is absent. -/
def Gives {α : Type} (e : Entry) (name : String) (tells : Value → α → Prop) (absent a : α) : Prop :=
  match e.get? name with
  | none => a = absent
  | some v => tells v a

end Entry

/-- The rule has what the arguments say that its kind reads. -/
def Rule.DescribedBy (e : Entry) : Rule → Prop
  | .generic definition => definition = (e.get? "definition").bind Value.document?
  | .ttl milliseconds ofMessages =>
    e.Gives "ttl" (fun v n => Coercion.integer "ttl" v = .ok n) 3600000 milliseconds ∧
      e.Gives "message_ttl" (fun v b => b = Coercion.boolean v) true ofMessages
  | .ha mode sync params =>
    e.Gives "mode" (fun v mode => v = .string mode.name) .all mode ∧
      e.Gives "sync_mode" (fun v sync => v = .string sync.name) .automatic sync ∧
      params = (e.get? "params").filter fun v => !v.isNull

/-- The policy has what the arguments of its entry say, and the defaults for the others. -/
structure Policy.DescribedBy (p : Policy) (e : Entry) : Prop where
  kind : e.Names p.kind
  typeTag : p.target.typeTag = p.kind.tag
  vhost : e.text? "vhost" = some p.vhost
  name : e.text? "name" = some p.name
  pattern : p.target.pattern = e.text? "pattern"
  scope : e.Gives "apply_to" (fun v scope => v = .string scope.name) .queues p.target.scope
  priority : e.Gives "priority" (fun v s => v.spelling? = some s) "1" p.target.priority
  rule : p.rule.DescribedBy e

/-! ### Nothing wrong -/

lemma Json.Value.textFaults_eq_nil_iff (field : String) (v : Value) :
    v.textFaults field = [] ↔ v.IsScalar := by
  rw [textFaults, IsScalar]
  cases v.spelling? <;> simp

/-- A document may be null, and is otherwise a text or an object. -/
lemma Json.Value.documentFaults_eq_nil_iff {v : Value} :
    v.documentFaults = [] ↔ v.IsNullOr fun v => v.document?.isSome := by
  rw [documentFaults, IsNullOr]
  cases v <;> simp [isNull, document?]

lemma Json.Value.wordFaults_eq_nil_iff {field : String} {v : Value} :
    v.wordFaults field = [] ↔ ∃ n, Coercion.integer field v = .ok n := by
  rw [wordFaults]
  cases Coercion.integer field v <;> simp

/-- A word is given as a string. No other value is spelled as one of the vocabulary. -/
lemma Vocabulary.faults_eq_nil_iff {vocabulary : Vocabulary} {field : String} {v : Value} :
    vocabulary.faults field v = [] ↔ ∃ word ∈ vocabulary.words, v = .string word := by
  have hwords : ∀ word ∈ vocabulary.words, IsWord word := by
    cases vocabulary <;>
      simp [words, Scope.isWord_name, MirrorMode.isWord_name, SyncMode.isWord_name]
  have hspelled : vocabulary.faults field v = [] ↔
      ∃ word ∈ vocabulary.words, v.spelling? = some word := by
    rw [faults]
    cases v.spelling? <;> simp [textFaults]
  rw [hspelled]
  refine exists_congr fun word => and_congr_right fun hword => ?_
  exact spelling?_eq_word_iff (hwords word hword)

section Words

variable {P : String → Prop}

/-- A word of a vocabulary is the name of something that it lists. -/
lemma exists_mem_map_iff {α : Type} {all : List α} (hall : ∀ a, a ∈ all) {name : α → String} :
    (∃ word ∈ all.map name, P word) ↔ ∃ a, P (name a) := by
  simp [hall]

lemma Scope.exists_word_iff :
    (∃ word ∈ Vocabulary.scope.words, P word) ↔ ∃ scope : Scope, P scope.name :=
  exists_mem_map_iff fun scope => by cases scope <;> simp

lemma MirrorMode.exists_word_iff :
    (∃ word ∈ Vocabulary.mirroring.words, P word) ↔ ∃ mode : MirrorMode, P mode.name :=
  exists_mem_map_iff fun mode => by cases mode <;> simp

lemma SyncMode.exists_word_iff :
    (∃ word ∈ Vocabulary.synchronisation.words, P word) ↔ ∃ sync : SyncMode, P sync.name :=
  exists_mem_map_iff fun sync => by cases sync <;> simp

end Words

namespace Entry

variable {e : Entry} {name : String} {faults : Value → List PolicyError} {P : Value → Prop}

/-- A required argument has no faults if it is there and all right. -/
lemma requiredFaults_eq_nil_iff (h : ∀ v, faults v = [] ↔ P v) :
    e.requiredFaults name faults = [] ↔ e.Has name P := by
  rw [requiredFaults, Has]
  cases e.get? name <;> simp [h]

/-- An optional argument has no faults if it is absent or all right. -/
lemma optionalFaults_eq_nil_iff (h : ∀ v, faults v = [] ↔ P v) :
    e.optionalFaults name faults = [] ↔ e.MayHave name P := by
  rw [optionalFaults, MayHave]
  cases e.get? name <;> simp [h]

lemma unexpectedFaults_eq_nil_iff {kind : Kind} :
    e.unexpectedFaults kind = [] ↔ ∀ argument ∈ e.map Prod.fst, argument ∈ kind.accepts := by
  simp [unexpectedFaults, List.filter_eq_nil_iff]

end Entry

namespace Kind

variable {kind : Kind} {e : Entry}

/-- The rule of an entry has no faults exactly if it is grammatical. -/
lemma ruleFaults_eq_nil_iff : kind.ruleFaults e = [] ↔ kind.RuleGrammatical e := by
  cases kind with
  | generic =>
      rw [ruleFaults, RuleGrammatical, List.append_eq_nil_iff]
      refine and_congr (Entry.optionalFaults_eq_nil_iff fun v => ?_)
        (Entry.optionalFaults_eq_nil_iff fun v => Value.documentFaults_eq_nil_iff)
      rw [Value.IsNullOr, ← Value.textFaults_eq_nil_iff "pattern" v]
      cases v <;> simp [Value.isNull]
  | ttl =>
      rw [ruleFaults, RuleGrammatical, List.append_eq_nil_iff]
      exact and_congr (Entry.requiredFaults_eq_nil_iff (Value.textFaults_eq_nil_iff "pattern"))
        (Entry.optionalFaults_eq_nil_iff fun v => Value.wordFaults_eq_nil_iff)
  | ha =>
      rw [ruleFaults, RuleGrammatical, List.append_eq_nil_iff, List.append_eq_nil_iff]
      refine and_congr (Entry.requiredFaults_eq_nil_iff (Value.textFaults_eq_nil_iff "pattern"))
        (and_congr (Entry.optionalFaults_eq_nil_iff fun v => ?_)
          (Entry.optionalFaults_eq_nil_iff fun v => ?_))
      · rw [Vocabulary.faults_eq_nil_iff, MirrorMode.exists_word_iff]
      · rw [Vocabulary.faults_eq_nil_iff, SyncMode.exists_word_iff]

/-- An entry that names its kind has no faults exactly if it is grammatical. -/
lemma faults_eq_nil_iff (hnamed : e.Names kind) : kind.faults e = [] ↔ kind.Grammatical e := by
  have hscope : e.optionalFaults "apply_to" (Vocabulary.scope.faults "apply_to") = [] ↔
      e.MayHave "apply_to" fun v => ∃ scope : Scope, v = .string scope.name := by
    refine Entry.optionalFaults_eq_nil_iff fun v => ?_
    rw [Vocabulary.faults_eq_nil_iff, Scope.exists_word_iff]
  have hrequired (name : String) : e.requiredFaults name (Value.textFaults name) = [] ↔
      e.Has name Value.IsScalar :=
    Entry.requiredFaults_eq_nil_iff (Value.textFaults_eq_nil_iff name)
  have hoptional (name : String) : e.optionalFaults name (Value.textFaults name) = [] ↔
      e.MayHave name Value.IsScalar :=
    Entry.optionalFaults_eq_nil_iff (Value.textFaults_eq_nil_iff name)
  simp only [faults, List.append_eq_nil_iff, Entry.unexpectedFaults_eq_nil_iff, hrequired,
    ruleFaults_eq_nil_iff, hscope, hoptional]
  constructor
  · rintro ⟨haccepted, hvhost, hname, hrule, hscope, hpriority⟩
    exact ⟨hnamed, haccepted, hvhost, hname, hrule, hscope, hpriority⟩
  · exact fun h => ⟨h.accepted, h.vhost, h.name, h.rule, h.scope, h.priority⟩

end Kind

/-! ### What is taken over -/

namespace Entry

variable {α : Type} {e : Entry} {name : String} {p q : Policy} {c : α → Change}

lemma text_eq_ok_iff {s : String} : e.text name = .ok s ↔ e.text? name = some s := by
  rw [text, required, text?]
  cases e.get? name with
  | none => exact ⟨fun h => (by cases h), fun h => (by cases h)⟩
  | some v => exact Coercion.string_eq_ok_iff

/-- A change of a field to what its argument tells; the field holds the default before. -/
lemma gives_of_change {β : Type} {coerce : Value → Except PolicyError α}
    (h : e.change name coerce c p = .ok q) (set : β → Policy) (tells : Value → β → Prop)
    (absent : β) (hp : p = set absent)
    (htells : ∀ v a, coerce v = .ok a → (c a).build p = .ok q → ∃ b, tells v b ∧ q = set b) :
    ∃ b, e.Gives name tells absent b ∧ q = set b := by
  obtain ⟨a?, ha, h⟩ := Results.bind_eq_ok_iff.1 h
  rw [optional] at ha
  unfold Gives
  -- left out, the argument keeps `absent`; given, the coercion and the change say what it tells
  cases hget : e.get? name with
  | none =>
      rw [hget] at ha
      obtain rfl := Except.ok.inj ha
      exact ⟨absent, rfl, (Except.ok.inj h).symm.trans hp⟩
  | some v =>
      have hv : (coerce v).map some = .ok a? := by rwa [hget] at ha
      obtain ⟨a, hcoerce, rfl⟩ := Results.map_eq_ok_iff.1 hv
      exact htells v a hcoerce h

/-- A change that is made if the argument tells anything. -/
lemma build_of_changeIfAny_eq_ok {coerce : Value → Except PolicyError (Option α)}
    {read : Value → Option α} (hread : ∀ v a?, coerce v = .ok a? → a? = read v)
    (h : e.changeIfAny name coerce c p = .ok q) :
    match (e.get? name).bind read with
    | none => q = p
    | some a => (c a).build p = .ok q := by
  obtain ⟨a?, ha, h⟩ := Results.bind_eq_ok_iff.1 h
  rw [optional] at ha
  cases hget : e.get? name with
  | none =>
      rw [hget] at ha
      obtain rfl := Except.ok.inj ha
      exact (Except.ok.inj h).symm
  | some v =>
      have hv : (coerce v).map some = .ok a? := by rwa [hget] at ha
      obtain ⟨a, hcoerce, rfl⟩ := Results.map_eq_ok_iff.1 hv
      obtain rfl := hread v a hcoerce
      rw [Option.bind_some]
      cases hv : read v with
      | none =>
          rw [hv] at h
          exact (Except.ok.inj h).symm
      | some a =>
          rw [hv] at h
          exact h

end Entry

namespace Coercion

variable {field : String} {v : Value}

/-- A text that may be absent is the spelling of its value. -/
lemma eq_of_optionalString {s? : Option String} (h : optionalString field v = .ok s?) :
    s? = v.spelling? := by
  cases v with
  | array items | object members => cases h
  | _ => exact (Except.ok.inj h).symm

lemma eq_of_definition {s? : Option String} (h : definition v = .ok s?) : s? = v.document? := by
  cases v with
  | bool b | number n | array items => cases h
  | _ => exact (Except.ok.inj h).symm

/-- Only a string gives a word. -/
lemma eq_string_of_word {α : Type} {parse : String → Except PolicyError α} {name : α → String}
    (hparse : ∀ {s a}, parse s = .ok a ↔ s = name a) (hword : ∀ a, IsWord (name a)) {s : String}
    {f : α → Policy} {q : Policy} (hv : string field v = .ok s) (h : (parse s).map f = .ok q) :
    ∃ a, v = .string (name a) ∧ q = f a := by
  obtain ⟨a, ha, rfl⟩ := Results.map_eq_ok_iff.1 h
  obtain rfl := hparse.1 ha
  exact ⟨a, (spelling?_eq_word_iff (hword a)).1 (string_eq_ok_iff.1 hv), rfl⟩

end Coercion

namespace Kind

variable {kind : Kind} {e : Entry} {vhost name : String} {p q : Policy}

/-- What the arguments of the kind make of the names. -/
lemma describedBy_of_constructRule (h : kind.constructRule e vhost name = .ok p) :
    p.target = Policy.newTarget kind vhost name (e.text? "pattern") ∧ p.rule.DescribedBy e := by
  -- each kind is a chain of changes from a new policy; `gives_of_change` follows the typed kinds
  -- link by link, naming the policy as a function of the argument last read
  cases kind with
  | generic =>
      obtain ⟨p₁, h₁, h₂⟩ := Results.bind_eq_ok_iff.1 h
      -- a generic policy reads null as not given, for which `gives_of_change` has no case
      have hpattern :=
        Entry.build_of_changeIfAny_eq_ok (fun _ _ => Coercion.eq_of_optionalString) h₁
      have hdefinition := Entry.build_of_changeIfAny_eq_ok (fun _ _ => Coercion.eq_of_definition) h₂
      have hp₁ :
          p₁ = ⟨Policy.newTarget .generic vhost name (e.text? "pattern"), .generic none⟩ := by
        rw [Entry.text?]
        cases ht : (e.get? "pattern").bind Value.spelling? with
        | none => rwa [ht] at hpattern
        | some s =>
            rw [ht] at hpattern
            exact (Except.ok.inj hpattern).symm
      rw [hp₁] at hdefinition
      cases ht : (e.get? "definition").bind Value.document? with
      | none =>
          rw [ht] at hdefinition
          rw [hdefinition]
          exact ⟨rfl, ht.symm⟩
      | some s =>
          rw [ht] at hdefinition
          obtain rfl := Except.ok.inj hdefinition
          exact ⟨rfl, ht.symm⟩
  | ttl =>
      obtain ⟨pattern, hpattern, h⟩ := Results.bind_eq_ok_iff.1 h
      obtain ⟨p₁, h₁, h₂⟩ := Results.bind_eq_ok_iff.1 h
      rw [Entry.text_eq_ok_iff.1 hpattern]
      obtain ⟨n, hn, rfl⟩ := Entry.gives_of_change h₁
        (fun n => ⟨Policy.newTarget .ttl vhost name (some pattern), .ttl n true⟩)
        (fun v n => Coercion.integer "ttl" v = .ok n) 3600000 rfl
        fun v n hv hq => ⟨n, hv, (Except.ok.inj hq).symm⟩
      obtain ⟨b, hb, rfl⟩ := Entry.gives_of_change h₂
        (fun b => ⟨Policy.newTarget .ttl vhost name (some pattern), .ttl n b⟩)
        (fun v b => b = Coercion.boolean v) true rfl
        fun v b hv hq => ⟨b, (Except.ok.inj hv).symm, (Except.ok.inj hq).symm⟩
      exact ⟨rfl, hn, hb⟩
  | ha =>
      obtain ⟨pattern, hpattern, h⟩ := Results.bind_eq_ok_iff.1 h
      obtain ⟨p₁, h₁, h⟩ := Results.bind_eq_ok_iff.1 h
      obtain ⟨p₂, h₂, h₃⟩ := Results.bind_eq_ok_iff.1 h
      rw [Entry.text_eq_ok_iff.1 hpattern]
      obtain ⟨mode, hmode, rfl⟩ := Entry.gives_of_change h₁
        (fun mode => ⟨Policy.newTarget .ha vhost name (some pattern), .ha mode .automatic none⟩)
        (fun v mode => v = .string mode.name) .all rfl
        fun v s => Coercion.eq_string_of_word MirrorMode.parse_eq_ok_iff MirrorMode.isWord_name
      obtain ⟨sync, hsync, rfl⟩ := Entry.gives_of_change h₂
        (fun sync => ⟨Policy.newTarget .ha vhost name (some pattern), .ha mode sync none⟩)
        (fun v sync => v = .string sync.name) .automatic rfl
        fun v s => Coercion.eq_string_of_word SyncMode.parse_eq_ok_iff SyncMode.isWord_name
      obtain rfl := Except.ok.inj h₃
      exact ⟨rfl, hmode, hsync, rfl⟩

/-- What all arguments make of a policy. -/
lemma describedBy_of_construct (hnamed : e.Names kind) (h : kind.construct e = .ok q) :
    q.DescribedBy e := by
  obtain ⟨vhost, name, p, p₁, p₂, hvhost, hname, hp, h₁, h₂, h₃⟩ := construct_eq_ok h
  obtain ⟨htarget, hrule⟩ := describedBy_of_constructRule hp
  have hkind : p.kind = kind := kind_of_constructRule hp
  -- the three common arguments are written in turn over the target that the rule left
  let made (scope : Scope) (priority tag : String) : Policy :=
    ⟨{ p.target with scope, priority, typeTag := tag }, p.rule⟩
  obtain ⟨scope, hscope, rfl⟩ := Entry.gives_of_change h₁
    (made · p.target.priority p.target.typeTag) (fun v scope => v = .string scope.name)
    p.target.scope rfl
    fun v s => Coercion.eq_string_of_word Scope.parse_eq_ok_iff Scope.isWord_name
  obtain ⟨priority, hpriority, rfl⟩ := Entry.gives_of_change h₂ (made scope · p.target.typeTag)
    (fun v s => v.spelling? = some s) p.target.priority rfl
    fun v s hv hq => ⟨s, Coercion.string_eq_ok_iff.1 hv, (Except.ok.inj hq).symm⟩
  obtain ⟨tag, htag, rfl⟩ := Entry.gives_of_change h₃ (made scope priority ·)
    (fun v s => v.spelling? = some s) p.target.typeTag rfl
    fun v s hv hq => ⟨s, Coercion.string_eq_ok_iff.1 hv, (Except.ok.inj hq).symm⟩
  -- a type that is given names the kind, and the tag the kind brings is kept otherwise
  have htypeTag : tag = kind.tag := by
    rw [htarget] at htag
    unfold Entry.Gives at htag
    rcases hnamed with hget | ⟨hget, -⟩
    · rw [hget] at htag
      exact (Option.some.inj htag).symm
    · rw [hget] at htag
      exact htag
  rw [htarget] at hscope hpriority
  exact {
    kind := hkind.symm ▸ hnamed
    typeTag := htypeTag.trans (congrArg Kind.tag hkind.symm)
    vhost := (Entry.text_eq_ok_iff.1 hvhost).trans (congrArg (some ·.vhost) htarget.symm)
    name := (Entry.text_eq_ok_iff.1 hname).trans (congrArg (some ·.name) htarget.symm)
    pattern := congrArg Target.pattern htarget
    scope := hscope
    priority := hpriority
    rule := hrule }

end Kind

/-! ### Reading an entry -/

namespace Policy

variable {e : Entry}

/-- An entry makes a policy exactly if it is grammatical for some kind. -/
lemma exists_ofEntry_iff : (∃ p, ofEntry e = .ok p) ↔ ∃ kind : Kind, kind.Grammatical e := by
  constructor
  · rintro ⟨p, h⟩
    obtain ⟨kind, hkind, h⟩ := Results.bind_eq_ok_iff.1 h
    have hnamed := Kind.ofEntry_eq_ok_iff.1 hkind
    have hfaults := (Kind.reports_construct hnamed).exists_ok_iff.1 ⟨p, h⟩
    exact ⟨kind, (Kind.faults_eq_nil_iff hnamed).1 hfaults⟩
  · rintro ⟨kind, h⟩
    have hfaults := (Kind.faults_eq_nil_iff h.named).2 h
    obtain ⟨p, hp⟩ := (Kind.reports_construct h.named).exists_ok_iff.2 hfaults
    exact ⟨p, Results.bind_eq_ok_iff.2 ⟨kind, Kind.ofEntry_eq_ok_iff.2 h.named, hp⟩⟩

/-- The error is the first fault: one of the kind, or else the first of the arguments. -/
lemma ofEntry_eq_error_iff {error : PolicyError} :
    ofEntry e = .error error ↔ e.kindFaults.head? = some error ∨
      ∃ kind, e.Names kind ∧ (kind.faults e).head? = some error := by
  rw [← Kind.reports_ofEntry e error, ofEntry]
  -- the kind comes first: its faults hide all others, and without them there is one kind named
  cases hkind : Kind.ofEntry e with
  | error first =>
      have hnone : ¬∃ kind, e.Names kind ∧ (kind.faults e).head? = some error := by
        rintro ⟨kind, hnamed, -⟩
        rw [Kind.ofEntry_eq_ok_iff.2 hnamed] at hkind
        cases hkind
      rw [or_iff_left hnone]
      exact ⟨fun h => congrArg Except.error (Except.error.inj h),
        fun h => congrArg Except.error (Except.error.inj h)⟩
  | ok kind =>
      have hnamed := Kind.ofEntry_eq_ok_iff.1 hkind
      have hunique : ∀ other, e.Names other → other = kind := fun other hother =>
        Except.ok.inj ((Kind.ofEntry_eq_ok_iff.2 hother).symm.trans hkind)
      rw [or_iff_right (by simp)]
      constructor
      · intro h
        exact ⟨kind, hnamed, (Kind.reports_construct hnamed error).1 h⟩
      · rintro ⟨other, hother, h⟩
        obtain rfl := hunique other hother
        exact (Kind.reports_construct hnamed error).2 h

/-- **The entries that are accepted, what they describe and why others are refused.** -/
theorem ofEntry_grammar (e : Entry) :
    ((∃ p, ofEntry e = .ok p) ↔ ∃ kind : Kind, kind.Grammatical e) ∧
      (∀ p, ofEntry e = .ok p → p.DescribedBy e) ∧
      ∀ error, ofEntry e = .error error ↔ e.kindFaults.head? = some error ∨
        ∃ kind, e.Names kind ∧ (kind.faults e).head? = some error := by
  refine ⟨exists_ofEntry_iff, fun p h => ?_, fun error => ofEntry_eq_error_iff⟩
  obtain ⟨kind, hkind, h⟩ := Results.bind_eq_ok_iff.1 h
  exact Kind.describedBy_of_construct (Kind.ofEntry_eq_ok_iff.1 hkind) h

end Policy

end BrokerPolicy
