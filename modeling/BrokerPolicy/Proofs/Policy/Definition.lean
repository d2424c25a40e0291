import BrokerPolicy.Proofs.Json.ReadBack
import BrokerPolicy.Proofs.Policy.Entry

/-!
What the definition of a policy denotes.

The definition of a mirroring or an expiry is the text of an object with fixed keys
(`haDefinition_eq_object`), and that of a generic policy the text of the object that its entry gives
(`DefinedBy`). Such a text is read back as the object, so the values in it cannot bring in another
member or change one. Generic policies have the same definition if and only if their objects are the
same, in whatever order the members were written: `definition_readBack`.
-/

namespace BrokerPolicy

open Json

/-- A value whose numbers are integers, of at most this depth and with its members in order, as
every value has them that was read or put together member by member. -/
structure Json.Value.Plain (depth : ℕ) (v : Value) : Prop where
  whole : v.Whole
  ordered : v.Ordered
  depth_le : v.depth ≤ depth

/-- An object as it may be written: its numbers are integers and no key stands twice, but members
stand in any order. -/
structure Json.Value.WrittenObject (v : Value) : Prop where
  exists_members : ∃ members, v = .object members
  whole : v.Whole
  distinct : v.Distinct

lemma Json.Value.Plain.parse?_text {v : Value} (h : v.Plain depthLimit) :
    Value.parse? v.text = some v :=
  Json.parse?_text h.whole h.ordered h.depth_le

/-! ### Mirroring and expiry -/

section Mirroring

variable (mode : MirrorMode) (sync : SyncMode) {params : Option Value}

/-- The members by which a mirroring is defined. -/
lemma haDefinition_eq_object (params : Option Value) :
    ∃ members, haDefinition mode sync params = .object members ∧ Members.Sorted members ∧
      ∀ m, m ∈ members ↔ m = ("ha-mode", .string mode.name) ∨
        m = ("ha-sync-mode", .string sync.name) ∨
          mode ≠ .all ∧ m = ("ha-params", params.getD .null) := by
  -- the three keys stand in order as the rule writes them, so the mode decides only whether the
  -- middle one is there
  refine ⟨_, rfl, Members.sorted_iff.2 ?_, ?_⟩
  · cases mode with
    | all =>
        change ["ha-mode", "ha-sync-mode"].Pairwise (· < ·)
        decide
    | «exactly» | nodes =>
        change ["ha-mode", "ha-params", "ha-sync-mode"].Pairwise (· < ·)
        decide
  · cases mode with
    | all => simp
    | «exactly» | nodes => simp [or_comm]

/-- The definition of a mirroring is plain if its parameters are, one level deeper than these. -/
lemma plain_haDefinition {depth : ℕ} (h : ∀ v ∈ params, v.Plain depth) :
    (haDefinition mode sync params).Plain (depth + 1) := by
  have hparams : (params.getD .null).Plain depth := by
    cases params with
    | none => exact ⟨trivial, trivial, Nat.zero_le _⟩
    | some v => exact h v rfl
  obtain ⟨members, heq, hsorted, hmem⟩ := haDefinition_eq_object mode sync params
  have hplain : ∀ m ∈ members, m.2.Plain depth := by
    intro m hm
    rcases (hmem m).1 hm with rfl | rfl | ⟨-, rfl⟩
    · exact ⟨trivial, trivial, Nat.zero_le _⟩
    · exact ⟨trivial, trivial, Nat.zero_le _⟩
    · exact hparams
  rw [heq]
  constructor
  · exact membersWhole_iff.2 fun m hm => (hplain m hm).whole
  · exact ⟨hsorted, membersOrdered_iff.2 fun m hm => (hplain m hm).ordered⟩
  · exact Nat.succ_le_succ (membersDepth_le_iff.2 fun m hm => (hplain m hm).depth_le)

end Mirroring

/-- The definition of an expiry is plain. -/
lemma plain_ttlDefinition (n : Int64) (ofMessages : Bool) :
    (ttlDefinition n ofMessages).Plain 1 where
  whole := ⟨trivial, trivial⟩
  ordered := ⟨List.pairwise_singleton _ _, trivial, trivial⟩
  depth_le := le_rfl

namespace Policy

/-! ### Generic policies -/

/-- A generic policy that is made of an entry with this definition. -/
def DefinedBy (p : Policy) (v : Value) : Prop :=
  ∃ e, ofEntry e = .ok p ∧ p.kind = .generic ∧ e.get? "definition" = some v

lemma DefinedBy.definition_eq {p : Policy} {members : Members}
    (h : p.DefinedBy (.object members)) : p.definition = some (Value.object members).text := by
  obtain ⟨e, hentry, hkind, hdefinition⟩ := h
  rw [definition, rule_of_ofEntry hentry hkind hdefinition, Rule.definition]

/-- **Definitions are read back as what they were made of.** Of a mirroring that is the object with
its mode, its synchronisation and, unless it mirrors to all nodes, its parameters; of an expiry the
object with its time; of a generic policy the object in its entry, and two of these have the same
text if and only if they are the same, in whatever order their members were written. -/
theorem definition_readBack :
    (∀ (p : Policy) (mode : MirrorMode) (sync : SyncMode) (params : Option Value),
      p.rule = .ha mode sync params → (∀ v ∈ params, v.Plain 126) →
      ∃ text members, p.definition = some text ∧ Value.parse? text = some (.object members) ∧
        Members.Distinct members ∧ ∀ m, m ∈ members ↔ m = ("ha-mode", .string mode.name) ∨
          m = ("ha-sync-mode", .string sync.name) ∨
            mode ≠ .all ∧ m = ("ha-params", params.getD .null)) ∧
    (∀ (p : Policy) (n : Int64) (ofMessages : Bool), p.rule = .ttl n ofMessages →
      ∃ text, p.definition = some text ∧ Value.parse? text = some (.object
        [(if ofMessages then "message-ttl" else "experies", .number (.integer (.ofInt64 n)))])) ∧
    (∀ (p : Policy) (members : Members), p.DefinedBy (.object members) →
      (Value.object members).Plain 127 →
      ∃ text, p.definition = some text ∧ Value.parse? text = some (.object members)) ∧
    ∀ v w : Value, v.WrittenObject → w.WrittenObject →
      (v.depth ≤ 127 → Value.parse? v.text = some v.sorted) ∧
      ∀ p q : Policy, p.DefinedBy v.sorted → q.DefinedBy w.sorted →
        (p.definition = q.definition ↔ v.Same w) := by
  refine ⟨?_, ?_, ?_, ?_⟩
  · intro p mode sync params hrule hparams
    obtain ⟨members, heq, hsorted, hmem⟩ := haDefinition_eq_object mode sync params
    have hparse := (plain_haDefinition mode sync hparams).parse?_text
    refine ⟨_, members, ?_, hparse.trans (congrArg some heq), .of_sorted hsorted, hmem⟩
    rw [definition, hrule, Rule.definition]
  · intro p n ofMessages hrule
    have hplain := plain_ttlDefinition n ofMessages
    refine ⟨_, ?_, parse?_text hplain.whole hplain.ordered (hplain.depth_le.trans (by decide))⟩
    rw [definition, hrule, Rule.definition]
    rfl
  · intro p members hdefined hplain
    exact ⟨_, hdefined.definition_eq, hplain.parse?_text⟩
  · intro v w hv hw
    -- reading needs the depth bounded, comparing two texts does not
    refine ⟨fun hdepth => parse?_written hv.whole hdepth, fun p q hp hq => ?_⟩
    obtain ⟨ms, rfl⟩ := hv.exists_members
    obtain ⟨ns, rfl⟩ := hw.exists_members
    rw [hp.definition_eq, hq.definition_eq, Option.some.injEq]
    exact text_sorted_eq_iff hv.whole hw.whole hv.distinct hw.distinct

/-- Parameters with a quote and a line break in them, and a definition whose members, on both
levels, are written in two orders. -/
theorem definition_readBack_sample :
    let params : Value := .object [("\"", .array [.string "\n", .bool true])]
    let p : Policy := ((mirrored "/" "mirror" "^").setMode .exactly).setParams (some params)
    let v : Value := .object [("b", .null), ("a", .object [("d", .null), ("c", params)])]
    let w : Value := .object [("a", .object [("c", params), ("d", .null)]), ("b", .null)]
    let plain (v : Value) : Policy := (generic "/" "plain").setDefinition v.text
    (∃ text members, p.definition = some text ∧ Value.parse? text = some (.object members) ∧
      ("ha-params", params) ∈ members) ∧
    (∃ text, (timeToLive "/" "ttl" "^").definition = some text ∧ Value.parse? text =
      some (.object [("message-ttl", .number (.integer (.ofInt64 3600000)))])) ∧
    (∃ text, (plain params).definition = some text ∧ Value.parse? text = some params) ∧
    Value.parse? v.text = some v.sorted ∧
      (plain v.sorted).definition = (plain w.sorted).definition := by
  intro params p v w plain
  obtain ⟨hha, httl, hgeneric, hwritten⟩ := definition_readBack
  have hparams (depth : ℕ) (h : 2 ≤ depth) : params.Plain depth :=
    ⟨by simp [params, Value.Whole, membersWhole, itemsWhole],
      by simp [params, Value.Ordered, Members.Sorted, membersOrdered, itemsOrdered], h⟩
  have hplain (v : Value) (members : Members) (hv : v = .object members) :
      (plain v).DefinedBy v := by
    refine ⟨[("definition", v), ("name", .string "plain"), ("vhost", .string "/")], ?_, rfl, rfl⟩
    dsimp only [plain]
    rw [hv]
    rfl
  have hv : v.WrittenObject := ⟨⟨_, rfl⟩,
    by simp [v, params, Value.Whole, membersWhole, itemsWhole],
    by simp [v, params, Value.Distinct, Members.Distinct, membersDistinct, itemsDistinct]⟩
  have hw : w.WrittenObject := ⟨⟨_, rfl⟩,
    by simp [w, params, Value.Whole, membersWhole, itemsWhole],
    by simp [w, params, Value.Distinct, Members.Distinct, membersDistinct, itemsDistinct]⟩
  -- `v` and `w` hold the same members in another order, at the top and one level down
  have hself : params.Same params := ⟨rfl, ⟨_, rfl, rfl, rfl, trivial⟩, trivial⟩
  have hinner : (Value.object [("d", .null), ("c", params)]).Same
      (.object [("c", params), ("d", .null)]) :=
    ⟨rfl, ⟨.null, rfl, rfl⟩, ⟨params, rfl, hself⟩, trivial⟩
  have hsame : v.Same w := ⟨rfl, ⟨.null, rfl, rfl⟩, ⟨_, rfl, hinner⟩, trivial⟩
  obtain ⟨text, members, htext, hparse, -, hmem⟩ := hha p .exactly .automatic (some params) rfl
    (by rintro _ ⟨⟩; exact hparams 126 (by decide))
  obtain ⟨hread, hequal⟩ := hwritten v w hv hw
  refine ⟨⟨text, members, htext, hparse, (hmem _).2 (.inr (.inr ⟨by decide, rfl⟩))⟩,
    httl _ 3600000 true rfl, hgeneric _ _ (hplain _ _ rfl) (hparams 127 (by decide)),
    hread (by decide), ?_⟩
  exact (hequal _ _ (hplain _ _ rfl) (hplain _ _ rfl)).2 hsame

end Policy

end BrokerPolicy
