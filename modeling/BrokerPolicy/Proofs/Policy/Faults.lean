import BrokerPolicy.Proofs.Policy.Entry
import BrokerPolicy.Proofs.Policy.Spelling

/-!
What is wrong with an entry.

`Kind.faults` is all that is wrong with an entry of a kind, in the order in which it is looked for.
A reading `Reports` its faults if it fails with the first of them and succeeds when there is none;
readings one after the other report the faults of both (`Reports.bind`). So each value, each
argument and each kind has its faults and a lemma that they are what is reported:
`reports_construct`.
-/

namespace BrokerPolicy

open Json

/-! ### Readings and their faults -/

section Reports

variable {α β : Type} {x : Except PolicyError α} {faults more : List PolicyError}

/-- The reading fails with the first of the faults, and succeeds if there is none. -/
def Reports (x : Except PolicyError α) (faults : List PolicyError) : Prop :=
  ∀ error, x = .error error ↔ faults.head? = some error

namespace Reports

lemma ok (a : α) : Reports (.ok a) [] :=
  fun error => by simp

lemma error (error : PolicyError) : Reports (.error error : Except PolicyError α) [error] :=
  fun other => by simp

/-- What reports no faults ends well, and nothing else does. -/
lemma exists_ok_iff (h : Reports x faults) : (∃ a, x = .ok a) ↔ faults = [] := by
  cases x with
  | ok a =>
      cases faults with
      | nil => simp
      | cons first rest => cases (h first).2 rfl
  | error error =>
      cases faults with
      | nil => cases (h error).1 rfl
      | cons first rest => simp

lemma map (h : Reports x faults) (f : α → β) : Reports (x.map f) faults := by
  intro error
  rw [← h error]
  cases x <;> simp [Except.map]

/-- A failure is the same whatever was to be read. -/
lemma of_error {first : PolicyError} (h : Reports (.error first : Except PolicyError α) faults) :
    Reports (.error first : Except PolicyError β) faults := by
  intro error
  rw [← h error, Except.error.injEq, Except.error.injEq]

/-- What comes later is read only if nothing was wrong before. -/
lemma bind {f : α → Except PolicyError β} (h : Reports x faults)
    (hf : ∀ a, x = .ok a → Reports (f a) more) : Reports (x >>= f) (faults ++ more) := by
  cases x with
  | ok a =>
      obtain rfl := h.exists_ok_iff.1 ⟨a, rfl⟩
      exact hf a rfl
  | error first =>
      cases faults with
      | nil => cases (h first).1 rfl
      | cons fault rest => exact h.of_error

end Reports

end Reports

/-! ### Faults of values -/

namespace Json.Value

/-- The text of a definition, which is a string or an object. -/
def document? : Value → Option String
  | .string s => some s
  | .object members => some (Value.object members).text
  | _ => none

/-- What is wrong with a value that has to stand for a text. -/
def textFaults (field : String) (v : Value) : List PolicyError :=
  match v.spelling? with
  | some _ => []
  | none => [.notConvertible field v.text .string]

/-- What is wrong with the definition of a generic policy. -/
def documentFaults (v : Value) : List PolicyError :=
  if v.isNull ∨ v.document?.isSome then [] else [.notConvertible "definition" v.text .document]

/-- What is wrong with a value that has to stand for a signed word. -/
def wordFaults (field : String) (v : Value) : List PolicyError :=
  match Coercion.integer field v with
  | .ok _ => []
  | .error _ => [.notConvertible field v.text .integer]

end Json.Value

namespace Vocabulary

/-- The words of a vocabulary. -/
def words : Vocabulary → List String
  | .scope => [Scope.queues, .exchanges, .all].map Scope.name
  | .mirroring => [MirrorMode.all, .exactly, .nodes].map MirrorMode.name
  | .synchronisation => [SyncMode.automatic, .manual].map SyncMode.name

/-- What is wrong with a text that has to be a word of the vocabulary. -/
def textFaults (vocabulary : Vocabulary) (s : String) : List PolicyError :=
  if s ∈ vocabulary.words then [] else [.notInVocabulary vocabulary s]

/-- What is wrong with a value that has to stand for a word of the vocabulary. -/
def faults (vocabulary : Vocabulary) (field : String) (v : Value) : List PolicyError :=
  match v.spelling? with
  | some s => vocabulary.textFaults s
  | none => [.notConvertible field v.text .string]

end Vocabulary

lemma Coercion.reports_string (field : String) (v : Value) :
    Reports (string field v) (v.textFaults field) := by
  rw [string_eq, Value.textFaults]
  cases v.spelling? with
  | some s => exact .ok s
  | none => exact .error _

lemma Coercion.reports_optionalString (field : String) (v : Value) :
    Reports (optionalString field v) (if v.isNull then [] else v.textFaults field) := by
  cases v with
  | null => exact .ok none
  | bool b => exact (reports_string field (.bool b)).map some
  | number n => exact (reports_string field (.number n)).map some
  | string s => exact (reports_string field (.string s)).map some
  | array items => exact (reports_string field (.array items)).map some
  | object members => exact (reports_string field (.object members)).map some

lemma Coercion.reports_definition (v : Value) : Reports (definition v) v.documentFaults := by
  cases v with
  | null | string s | object members => exact .ok _
  | bool b | number n | array items => exact .error _

/-- Reading an integer has one fault at most, and says which value it was. -/
lemma Coercion.reports_integer (field : String) (v : Value) :
    Reports (integer field v) (v.wordFaults field) := by
  have herror : ∀ error, integer field v = .error error →
      error = .notConvertible field v.text .integer := by
    intro error h
    unfold integer at h
    dsimp only at h
    split at h
    · cases h
    · exact (Except.error.inj h).symm
  rw [Value.wordFaults]
  cases hv : integer field v with
  | ok n => exact .ok n
  | error error =>
      obtain rfl := herror error hv
      exact .error _

/-- A value is read as a text, which is then read as a word. -/
lemma Vocabulary.reports_change {α : Type} {vocabulary : Vocabulary}
    {parse : String → Except PolicyError α}
    (hparse : ∀ s, Reports (parse s) (vocabulary.textFaults s)) (field : String) (v : Value)
    (f : α → Policy) :
    Reports (Coercion.string field v >>= fun s => (parse s).map f) (vocabulary.faults field v) := by
  rw [Coercion.string_eq, Vocabulary.faults]
  cases v.spelling? with
  | some s => exact (hparse s).map f
  | none => exact .error _

/-- A word is refused if its vocabulary does not have it. -/
lemma Scope.reports_parse (s : String) : Reports (parse s) (Vocabulary.scope.textFaults s) := by
  rw [parse, Vocabulary.textFaults]
  repeat' split
  all_goals first | exact .ok _ | exact .error _ | simp_all [Vocabulary.words, name]

lemma MirrorMode.reports_parse (s : String) :
    Reports (parse s) (Vocabulary.mirroring.textFaults s) := by
  rw [parse, Vocabulary.textFaults]
  repeat' split
  all_goals first | exact .ok _ | exact .error _ | simp_all [Vocabulary.words, name]

lemma SyncMode.reports_parse (s : String) :
    Reports (parse s) (Vocabulary.synchronisation.textFaults s) := by
  rw [parse, Vocabulary.textFaults]
  repeat' split
  all_goals first | exact .ok _ | exact .error _ | simp_all [Vocabulary.words, name]

/-! ### Faults of arguments -/

namespace Entry

/-- The entry asks for this kind: its type is the tag, or it has none and the kind is generic. -/
def Names (e : Entry) (kind : Kind) : Prop :=
  e.get? "type" = some (.string kind.tag) ∨ e.get? "type" = none ∧ kind = .generic

/-- What is wrong with an argument that has to be there. -/
def requiredFaults (e : Entry) (name : String) (faults : Value → List PolicyError) :
    List PolicyError :=
  match e.get? name with
  | none => [.missingArgument name]
  | some v => faults v

/-- What is wrong with an argument that may be there. -/
def optionalFaults (e : Entry) (name : String) (faults : Value → List PolicyError) :
    List PolicyError :=
  match e.get? name with
  | none => []
  | some v => faults v

/-- The names of arguments that the kind does not read. -/
def unexpectedFaults (e : Entry) (kind : Kind) : List PolicyError :=
  ((e.map Prod.fst).filter fun name => !kind.accepts.contains name).map .unexpectedArgument

/-- What is wrong with the type of an entry. -/
def kindFaults (e : Entry) : List PolicyError :=
  match e.get? "type" with
  | none => []
  | some (.string tag) =>
    if tag ∈ [Kind.generic.tag, Kind.ttl.tag, Kind.ha.tag] then [] else [.unknownKind tag]
  | some v => [.unknownKind v.text]

end Entry

namespace Kind

/-- What is wrong with the arguments that only this kind reads. -/
def ruleFaults (kind : Kind) (e : Entry) : List PolicyError :=
  match kind with
  | .generic =>
    e.optionalFaults "pattern" (fun v => if v.isNull then [] else v.textFaults "pattern") ++
      e.optionalFaults "definition" Value.documentFaults
  | .ttl =>
    e.requiredFaults "pattern" (Value.textFaults "pattern") ++
      e.optionalFaults "ttl" (Value.wordFaults "ttl")
  | .ha =>
    e.requiredFaults "pattern" (Value.textFaults "pattern") ++
      (e.optionalFaults "mode" (Vocabulary.mirroring.faults "mode") ++
        e.optionalFaults "sync_mode" (Vocabulary.synchronisation.faults "sync_mode"))

/-- What is wrong with an entry of a kind, in the order in which it is looked for. -/
def faults (kind : Kind) (e : Entry) : List PolicyError :=
  e.unexpectedFaults kind ++ (e.requiredFaults "vhost" (Value.textFaults "vhost") ++
    (e.requiredFaults "name" (Value.textFaults "name") ++ (kind.ruleFaults e ++
      (e.optionalFaults "apply_to" (Vocabulary.scope.faults "apply_to") ++
        e.optionalFaults "priority" (Value.textFaults "priority")))))

end Kind

namespace Entry

variable {e : Entry} {name : String} {p : Policy}

lemma reports_text (e : Entry) (name : String) :
    Reports (e.text name) (e.requiredFaults name (Value.textFaults name)) := by
  rw [text, required, requiredFaults]
  cases e.get? name with
  | none => exact .error _
  | some v => exact Coercion.reports_string name v

section Change

variable {α : Type} {faults : Value → List PolicyError} {c : α → Change}

/-- An argument that is absent has no faults; one that is given has those of its change. -/
lemma reports_change {coerce : Value → Except PolicyError α}
    (h : ∀ v, Reports (coerce v >>= fun a => (c a).build p) (faults v)) :
    Reports (e.change name coerce c p) (e.optionalFaults name faults) := by
  rw [change, optional, optionalFaults]
  cases e.get? name with
  | none => exact .ok p
  | some v =>
      have hv := h v
      dsimp only
      cases hcoerce : coerce v with
      | ok a => rwa [hcoerce] at hv
      | error error => rwa [hcoerce] at hv

/-- A change that is never refused has the faults of its argument. -/
lemma reports_change_of_ok {coerce : Value → Except PolicyError α}
    (h : ∀ v, Reports (coerce v) (faults v)) (hc : ∀ a, ∃ q, (c a).build p = .ok q) :
    Reports (e.change name coerce c p) (e.optionalFaults name faults) := by
  refine reports_change fun v => ?_
  rw [← List.append_nil (faults v)]
  refine (h v).bind fun a _ => ?_
  obtain ⟨q, hq⟩ := hc a
  rw [hq]
  exact .ok q

/-- The same holds of an argument that may be null, if its change cannot fail. -/
lemma reports_changeIfAny {coerce : Value → Except PolicyError (Option α)}
    (h : ∀ v, Reports (coerce v) (faults v)) (hc : ∀ a, ∃ q, (c a).build p = .ok q) :
    Reports (e.changeIfAny name coerce c p) (e.optionalFaults name faults) := by
  rw [changeIfAny, optional, optionalFaults]
  cases e.get? name with
  | none => exact .ok p
  | some v =>
      have hv := h v
      dsimp only
      cases hcoerce : coerce v with
      | error first =>
          rw [hcoerce] at hv
          exact hv.of_error
      -- a value that was read has no faults, and `hc` leaves none to the change that is made with
      -- it
      | ok a? =>
          rw [hcoerce] at hv
          rw [hv.exists_ok_iff.1 ⟨a?, rfl⟩]
          cases a? with
          | none => exact .ok p
          | some a =>
              obtain ⟨q, hq⟩ := hc a
              exact fun error => by rw [← (Reports.ok q) error, ← hq]; rfl

end Change

end Entry

namespace Kind

variable {kind : Kind} {e : Entry}

/-- The kind of an entry is found out with the faults of its name. -/
lemma reports_ofEntry (e : Entry) : Reports (ofEntry e) e.kindFaults := by
  rw [ofEntry, Entry.kindFaults]
  cases e.get? "type" with
  | none => exact .ok _
  | some v =>
      cases v with
      | string tag =>
          dsimp only
          rw [parse]
          repeat' split
          all_goals first | exact .ok _ | exact .error _ | simp_all [Kind.tag]
      | null | bool b | number n | array items | object members => exact .error _

/-- An entry is of the kind that it names. -/
lemma ofEntry_eq_ok_iff : ofEntry e = .ok kind ↔ e.Names kind := by
  rw [ofEntry, Entry.Names]
  cases e.get? "type" with
  | none => simp [eq_comm]
  | some v => cases v <;> simp [parse_eq_ok_iff]

/-- Each kind reads its own arguments in order, and reports their faults in this order. -/
lemma reports_constructRule (kind : Kind) (e : Entry) (vhost name : String) :
    Reports (kind.constructRule e vhost name) (kind.ruleFaults e) := by
  cases kind with
  | generic =>
      refine .bind ?_ fun p _ => ?_
      · exact Entry.reports_changeIfAny (Coercion.reports_optionalString "pattern")
          fun s => ⟨_, rfl⟩
      · exact Entry.reports_changeIfAny Coercion.reports_definition fun s => ⟨_, rfl⟩
  | ttl =>
      refine .bind (e.reports_text "pattern") fun pattern _ => ?_
      rw [← List.append_nil (e.optionalFaults "ttl" _)]
      refine .bind ?_ fun p _ => ?_
      · exact Entry.reports_change_of_ok (Coercion.reports_integer "ttl") fun n => ⟨_, rfl⟩
      · -- a truth value is always read, so the last argument has no faults to report
        have hnone : e.optionalFaults "message_ttl" (fun _ => []) = [] := by
          rw [Entry.optionalFaults]
          cases e.get? "message_ttl" <;> rfl
        rw [← hnone]
        exact Entry.reports_change_of_ok (fun v => .ok _) fun b => ⟨_, rfl⟩
  | ha =>
      refine .bind (e.reports_text "pattern") fun pattern _ => ?_
      refine .bind ?_ fun p _ => ?_
      · exact Entry.reports_change fun v =>
          Vocabulary.reports_change MirrorMode.reports_parse "mode" v _
      rw [← List.append_nil (e.optionalFaults "sync_mode" _)]
      refine .bind ?_ fun p _ => .ok _
      exact Entry.reports_change fun v =>
        Vocabulary.reports_change SyncMode.reports_parse "sync_mode" v _

/-- An entry that names its kind fails with the first of the faults. -/
lemma reports_construct (hnamed : e.Names kind) : Reports (kind.construct e) (kind.faults e) := by
  -- the type is read a second time at the end, when it is known to be absent or the tag itself
  have htype (p : Policy) :
      Reports (e.change "type" (Coercion.string "type") .typeTag p) [] := by
    rw [Entry.change, Entry.optional]
    rcases hnamed with htag | ⟨habsent, -⟩
    · rw [htag]
      exact .ok _
    · rw [habsent]
      exact .ok _
  have hfind : e.unexpected? kind =
      ((e.map Prod.fst).filter fun name => !kind.accepts.contains name).head? :=
    List.head?_filter.symm
  rw [construct, faults, Entry.unexpectedFaults, hfind]
  cases (e.map Prod.fst).filter fun name => !kind.accepts.contains name with
  -- the search for one unexpected argument and the list of all of them begin alike
  | cons argument rest =>
      exact fun error => by simp [throw, throwThe, MonadExceptOf.throw, bind, Except.bind]
  | nil =>
      rw [List.map_nil, List.nil_append]
      refine .bind (e.reports_text "vhost") fun vhost _ => ?_
      refine .bind (e.reports_text "name") fun name _ => ?_
      refine .bind (kind.reports_constructRule e vhost name) fun p _ => ?_
      refine .bind ?_ fun p₁ _ => ?_
      · exact Entry.reports_change fun v =>
          Vocabulary.reports_change Scope.reports_parse "apply_to" v _
      rw [← List.append_nil (e.optionalFaults "priority" _)]
      refine .bind ?_ fun p₂ _ => htype p₂
      exact Entry.reports_change_of_ok (Coercion.reports_string "priority") fun s => ⟨_, rfl⟩

end Kind

end BrokerPolicy
