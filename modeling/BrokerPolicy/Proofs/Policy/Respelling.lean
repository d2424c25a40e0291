import BrokerPolicy.Proofs.Policy.Faults
import BrokerPolicy.Proofs.Policy.Integer

/-!
Numbers and truth values given as texts.

`Entry.Respelled e e'` says that `e'` is the entry `e` with the texts of some of its numbers and
truth values in their places. Whoever reads a text from an argument reads the same
(`Respelled.string_eq`), and so the same policy or the same error comes of both entries, argument by
argument. The one exception is a time that is not a signed word: it is refused both times, but the
message shows the value as it was given. `Alike` allows for this difference and for no other, and
two readings one after the other are alike if each of them is (`Alike.bind`). Together:
`ofEntry_respelled`.
-/

namespace BrokerPolicy

open Json

/-! ### Entries spelled in another way -/

/-- The arguments that are read as texts, whatever else they may be given as. -/
def Entry.textArguments : List String :=
  ["vhost", "name", "pattern", "apply_to", "priority", "mode", "sync_mode", "type"]

/-- A value of an argument, and the same value or its text: of a number or a truth value where a
text is read, and of an integer where a time is. -/
inductive Json.Value.Respelled (name : String) : Value → Value → Prop
  | same (v : Value) : Respelled name v v
  | number (n : Number) (h : name ∈ Entry.textArguments) :
      Respelled name (.number n) (.string (Value.number n).text)
  | bool (b : Bool) (h : name ∈ Entry.textArguments) :
      Respelled name (.bool b) (.string (Value.bool b).text)
  | time (n : Json.Integer) (h : name = "ttl") :
      Respelled name (.number (.integer n)) (.string (Value.number (.integer n)).text)

/-- The entries have the same arguments, each with the same value or the text of it. -/
def Entry.Respelled (e e' : Entry) : Prop :=
  List.Forall₂ (fun m m' => m.1 = m'.1 ∧ m.2.Respelled m.1 m'.2) e e'

/-! ### Values -/

namespace Json.Value.Respelled

variable {name : String} {v v' : Value}

/-- Where neither a text nor a time is read, nothing can be spelled in another way. -/
lemma eq_of_not_mem (h : v.Respelled name v') (htext : name ∉ Entry.textArguments)
    (htime : name ≠ "ttl") : v = v' := by
  cases h with
  | same v => rfl
  | number n h | bool b h => exact absurd h htext
  | time n h => exact absurd h htime

lemma string_eq (h : v.Respelled name v') (field : String) :
    Coercion.string field v = Coercion.string field v' := by
  cases h with
  | same v => rfl
  | number n h | time n h => rfl
  | bool b h => cases b <;> rfl

lemma optionalString_eq (h : v.Respelled name v') (field : String) :
    Coercion.optionalString field v = Coercion.optionalString field v' := by
  cases h with
  | same v => rfl
  | number n h | time n h => rfl
  | bool b h => cases b <;> rfl

/-- An integer and its text are the same time, or none. -/
lemma word?_eq (h : v.Respelled "ttl" v') : Coercion.word? v = Coercion.word? v' := by
  cases h with
  | same v => rfl
  | time n h => exact (Coercion.word?_text n).symm
  | number n h | bool b h => exact absurd h (by decide)

end Json.Value.Respelled

/-- No kind has a number or a truth value for its tag. -/
lemma Kind.isWord_tag (kind : Kind) : IsWord kind.tag := by
  cases kind <;> simp [IsWord, tag]

/-- What is not the tag of a kind is refused by name. -/
lemma Kind.parse_eq_error {s : String} (h : ∀ kind : Kind, s ≠ kind.tag) :
    parse s = .error (.unknownKind s) := by
  have hgeneric : s ≠ "generic" := h .generic
  have hha : s ≠ "ha" := h .ha
  have httl : s ≠ "ttl" := h .ttl
  rw [parse, if_neg hgeneric, if_neg hha, if_neg httl]

/-! ### Arguments -/

namespace Entry.Respelled

variable {e e' : Entry} {α : Type}

/-- Respelling keeps the names of the arguments and their order. -/
lemma map_fst (h : e.Respelled e') : e.map Prod.fst = e'.map Prod.fst := by
  induction h with
  | nil => rfl
  | cons hm h ih => rw [List.map_cons, List.map_cons, hm.1, ih]

/-- Neither entry has the argument, or both have it. -/
lemma get? (h : e.Respelled e') (name : String) : (e.get? name = none ∧ e'.get? name = none) ∨
    ∃ v v', e.get? name = some v ∧ e'.get? name = some v' ∧ v.Respelled name v' := by
  unfold Members.get?
  induction h with
  | nil => exact .inl ⟨rfl, rfl⟩
  | @cons m m' e e' hm h ih =>
      obtain ⟨key, v⟩ := m
      obtain ⟨key', v'⟩ := m'
      obtain ⟨rfl, hv⟩ : key = key' ∧ v.Respelled key v' := hm
      rw [List.lookup_cons, List.lookup_cons]
      split
      · next heq =>
        obtain rfl := eq_of_beq heq
        exact .inr ⟨v, v', rfl, rfl, hv⟩
      · exact ih

/-- So the same argument, if any, is unexpected. -/
lemma unexpected?_eq (h : e.Respelled e') (kind : Kind) :
    e.unexpected? kind = e'.unexpected? kind := by
  rw [Entry.unexpected?, Entry.unexpected?, h.map_fst]

lemma text_eq (h : e.Respelled e') (name : String) : e.text name = e'.text name := by
  rw [Entry.text, Entry.text, Entry.required, Entry.required]
  obtain ⟨hnone, hnone'⟩ | ⟨v, v', hsome, hsome', hv⟩ := h.get? name
  · rw [hnone, hnone']
  · rw [hsome, hsome']
    exact hv.string_eq name

/-- An argument that is read alike however it is spelled is the same in both entries. -/
lemma optional_eq (h : e.Respelled e') {name : String} {coerce : Value → Except PolicyError α}
    (hcoerce : ∀ {v v'}, Value.Respelled name v v' → coerce v = coerce v') :
    e.optional name coerce = e'.optional name coerce := by
  rw [Entry.optional, Entry.optional]
  obtain ⟨hnone, hnone'⟩ | ⟨v, v', hsome, hsome', hv⟩ := h.get? name
  · rw [hnone, hnone']
  · rw [hsome, hsome']
    exact congrArg (Except.map some) (hcoerce hv)

/-- An argument that is read alike makes the same change. -/
lemma change_eq (h : e.Respelled e') {name : String} {coerce : Value → Except PolicyError α}
    (hcoerce : ∀ {v v'}, Value.Respelled name v v' → coerce v = coerce v') (c : α → Change)
    (p : Policy) : e.change name coerce c p = e'.change name coerce c p := by
  rw [Entry.change, Entry.change, h.optional_eq hcoerce]

lemma changeIfAny_eq (h : e.Respelled e') {name : String}
    {coerce : Value → Except PolicyError (Option α)}
    (hcoerce : ∀ {v v'}, Value.Respelled name v v' → coerce v = coerce v') (c : α → Change)
    (p : Policy) : e.changeIfAny name coerce c p = e'.changeIfAny name coerce c p := by
  rw [Entry.changeIfAny, Entry.changeIfAny, h.optional_eq hcoerce]

/-- Parameters are never spelled in another way. -/
lemma params?_eq (h : e.Respelled e') : e.params? = e'.params? := by
  rw [Entry.params?, Entry.params?]
  obtain ⟨hnone, hnone'⟩ | ⟨v, v', hsome, hsome', hv⟩ := h.get? "params"
  · rw [hnone, hnone']
  · rw [hsome, hsome', hv.eq_of_not_mem (by decide) (by decide)]

/-- A type that is no string is no tag as a text either. -/
lemma ofEntry_eq (h : e.Respelled e') : Kind.ofEntry e = Kind.ofEntry e' := by
  have hparse {v : Value} {s : String} (hs : v.spelling? = some s) (hv : ∀ t, v ≠ .string t) :
      Kind.parse s = .error (.unknownKind s) := by
    refine Kind.parse_eq_error fun kind heq => hv kind.tag ?_
    exact (spelling?_eq_word_iff kind.isWord_tag).1 (heq ▸ hs)
  rw [Kind.ofEntry, Kind.ofEntry]
  obtain ⟨hnone, hnone'⟩ | ⟨v, v', hsome, hsome', hv⟩ := h.get? "type"
  · rw [hnone, hnone']
  · rw [hsome, hsome']
    cases hv with
    | same v => rfl
    | number n h => exact (hparse (v := .number n) rfl fun _ => Value.noConfusion).symm
    | bool b h => exact (hparse (v := .bool b) (by cases b <;> rfl) fun _ => Value.noConfusion).symm
    | time n h => exact absurd h (by decide)

end Entry.Respelled

/-! ### Readings that are alike -/

/-- The readings have the same result, or both refuse the time. -/
inductive Alike {α : Type} : Except PolicyError α → Except PolicyError α → Prop
  | same (x : Except PolicyError α) : Alike x x
  | refused (value value' : String) : Alike (.error (.notConvertible "ttl" value .integer))
      (.error (.notConvertible "ttl" value' .integer))

namespace Alike

variable {α β : Type} {x y : Except PolicyError α}

lemma of_eq (h : x = y) : Alike x y :=
  h ▸ .same x

lemma map (h : Alike x y) (f : α → β) : Alike (x.map f) (y.map f) := by
  cases h with
  | same x => exact .same _
  | refused value value' => exact .refused value value'

/-- Two readings that go alike go on alike. -/
lemma bind {f g : α → Except PolicyError β} (h : Alike x y) (hfg : ∀ a, Alike (f a) (g a)) :
    Alike (x >>= f) (y >>= g) := by
  cases h with
  | refused value value' => exact .refused value value'
  | same x =>
      cases x with
      | ok a => exact hfg a
      | error error => exact .same _

/-- Both give the same, or both fail with errors of the same class. -/
lemma same_class (h : Alike x y) : (∃ a, x = .ok a ∧ y = .ok a) ∨
    ∃ error error', x = .error error ∧ y = .error error' ∧ error.code = error'.code := by
  cases h with
  | refused value value' => exact .inr ⟨_, _, rfl, rfl, rfl⟩
  | same x =>
      cases x with
      | ok a => exact .inl ⟨a, rfl, rfl⟩
      | error error => exact .inr ⟨error, error, rfl, rfl, rfl⟩

end Alike

/-- A time is read as the same integer, or refused with another text in the message. -/
lemma Json.Value.Respelled.alike_integer {v v' : Value} (h : v.Respelled "ttl" v') :
    Alike (Coercion.integer "ttl" v) (Coercion.integer "ttl" v') := by
  rw [Coercion.integer_eq, Coercion.integer_eq, ← h.word?_eq]
  cases Coercion.word? v with
  | some n => exact .same _
  | none => exact .refused _ _

namespace Entry.Respelled

variable {e e' : Entry}

/-- The time is the only argument whose errors can differ. -/
lemma alike_time (h : e.Respelled e') (p : Policy) :
    Alike (e.change "ttl" (Coercion.integer "ttl") .ttl p)
      (e'.change "ttl" (Coercion.integer "ttl") .ttl p) := by
  refine .bind ?_ fun n? => .same _
  rw [Entry.optional, Entry.optional]
  obtain ⟨hnone, hnone'⟩ | ⟨v, v', hsome, hsome', hv⟩ := h.get? "ttl"
  · rw [hnone, hnone']
    exact .same _
  · rw [hsome, hsome']
    exact hv.alike_integer.map some

/-- Whatever its kind, the rule is read alike. -/
lemma alike_constructRule (h : e.Respelled e') (kind : Kind) (vhost name : String) :
    Alike (kind.constructRule e vhost name) (kind.constructRule e' vhost name) := by
  -- only the time may fail with another text; every other argument reads as the same value
  cases kind with
  | generic =>
      refine .bind (.of_eq ?_) fun p => .of_eq ?_
      · exact h.changeIfAny_eq (fun hv => hv.optionalString_eq "pattern") _ _
      · exact h.changeIfAny_eq (fun hv => by rw [hv.eq_of_not_mem (by decide) (by decide)]) _ _
  | ttl =>
      refine .bind (.of_eq (h.text_eq "pattern")) fun pattern => ?_
      refine .bind (h.alike_time _) fun p => .of_eq ?_
      exact h.change_eq (fun hv => by rw [hv.eq_of_not_mem (by decide) (by decide)]) _ _
  | ha =>
      refine .bind (.of_eq (h.text_eq "pattern")) fun pattern => ?_
      refine .bind (.of_eq (h.change_eq (fun hv => hv.string_eq "mode") _ _)) fun p => ?_
      refine .bind (.of_eq (h.change_eq (fun hv => hv.string_eq "sync_mode") _ _)) fun p => ?_
      rw [h.params?_eq]
      exact .same _

/-- The arguments around the rule are read the same. -/
lemma alike_construct (h : e.Respelled e') (kind : Kind) :
    Alike (kind.construct e) (kind.construct e') := by
  rw [Kind.construct, Kind.construct, h.unexpected?_eq]
  cases e'.unexpected? kind with
  | some argument => exact .same _
  | none =>
      refine .bind (.of_eq (h.text_eq "vhost")) fun vhost => ?_
      refine .bind (.of_eq (h.text_eq "name")) fun name => ?_
      refine .bind (h.alike_constructRule kind vhost name) fun p => ?_
      refine .bind (.of_eq (h.change_eq (fun hv => hv.string_eq "apply_to") _ _)) fun p => ?_
      refine .bind (.of_eq (h.change_eq (fun hv => hv.string_eq "priority") _ _)) fun p => ?_
      exact .of_eq (h.change_eq (fun hv => hv.string_eq "type") _ _)

lemma alike_ofEntry (h : e.Respelled e') : Alike (Policy.ofEntry e) (Policy.ofEntry e') :=
  .bind (.of_eq h.ofEntry_eq) fun kind => h.alike_construct kind

end Entry.Respelled

namespace Policy

/-- **Numbers and truth values can be given as texts**: an entry and the same entry with the texts
of some of its numbers and truth values in their places are read as the same policy, or refused with
errors of the same class. -/
theorem ofEntry_respelled {e e' : Entry} (h : e.Respelled e') :
    (∃ p, ofEntry e = .ok p ∧ ofEntry e' = .ok p) ∨
      ∃ error error', ofEntry e = .error error ∧ ofEntry e' = .error error' ∧
        error.code = error'.code :=
  h.alike_ofEntry.same_class

/-- An expiry whose name and priority are a number and a truth value, as values and as texts: a time
that is a signed word is taken in both spellings, the least that is none in neither. -/
theorem ofEntry_respelled_sample :
    let entry (ttl : Json.Integer) : Entry := [("type", .string "ttl"), ("vhost", .string "/"),
      ("name", .number (.integer ⟨7, by decide, by decide⟩)), ("pattern", .string "^"),
      ("priority", .bool true), ("ttl", .number (.integer ttl))]
    let spelled (ttl : String) : Entry := [("type", .string "ttl"), ("vhost", .string "/"),
      ("name", .string "7"), ("pattern", .string "^"), ("priority", .string "true"),
      ("ttl", .string ttl)]
    let hour : Json.Integer := ⟨3600000, by decide, by decide⟩
    let large : Json.Integer := ⟨0x8000000000000000, by decide, by decide⟩
    (entry hour).Respelled (spelled "3600000") ∧
      (entry large).Respelled (spelled "9223372036854775808") ∧
      (∃ p, ofEntry (entry hour) = .ok p ∧ ofEntry (spelled "3600000") = .ok p) ∧
      ∃ error error', ofEntry (entry large) = .error error ∧
        ofEntry (spelled "9223372036854775808") = .error error' ∧ error.code = error'.code := by
  intro entry spelled hour large
  have hspelled (ttl : Json.Integer) :
      (entry ttl).Respelled (spelled (Value.number (.integer ttl)).text) :=
    .cons ⟨rfl, .same _⟩ <| .cons ⟨rfl, .same _⟩ <| .cons ⟨rfl, .number _ (by decide)⟩ <|
      .cons ⟨rfl, .same _⟩ <| .cons ⟨rfl, .bool true (by decide)⟩ <|
      .cons ⟨rfl, .time ttl rfl⟩ .nil
  have hhour := hspelled hour
  rw [show (Value.number (.integer hour)).text = "3600000" by decide] at hhour
  have hlarge := hspelled large
  rw [show (Value.number (.integer large)).text = "9223372036854775808" by decide] at hlarge
  refine ⟨hhour, hlarge, (ofEntry_respelled hhour).resolve_right ?_,
    (ofEntry_respelled hlarge).resolve_left ?_⟩
  · rintro ⟨error, error', herror, -, -⟩
    cases herror
  · rintro ⟨p, hp, -⟩
    cases hp

end Policy

end BrokerPolicy
