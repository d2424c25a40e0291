import BrokerPolicy.Proofs.Yaml.Scan
import BrokerPolicy.Proofs.Yaml.Tree

/-!
Spellings of JSON, read as YAML.

* **Tokens.** `Scans keyed cs ts rest` says that inside brackets the scanner takes the tokens `ts`
  from a text that begins with `cs` after blanks and goes on with `rest`. A sequence is scanned if
  its items are, by induction on the spelling of the sequence (`reaches_sequence`,
  `scans_brackets`), and a pair if its value is (`scans_pair`).
* **Values.** `Loads` says which data is taken from tokens, put together first. By induction on the
  depth, for whatever is spelled there are tokens that are scanned and that the value is taken from:
  `loads_value`. Here `SpellsSequence.exists_forall₂` turns the spelling of values into one of
  tokens.
-/

namespace BrokerPolicy.Yaml

open Json Scanner

variable {cs rest : List Char} {ts : List Token}

/-! ### Tokens -/

/-- A comma or a bracket comes next, after blanks. -/
def MarkNext (cs : List Char) : Prop :=
  ∃ c r, skipSpace cs = c :: r ∧ isFlowMark c = true

/-- Inside brackets these tokens are taken, whatever came before. `keyed` says that the text begins
where a key may begin. A word is taken with the blanks behind it, so what comes before and behind is
the text but for blanks. -/
def Scans (keyed : Bool) (cs : List Char) (ts : List Token) (rest : List Char) : Prop :=
  ∀ ⦃s depth tokens before⦄, Inside s (depth + 1) tokens before →
    (keyed = true → s.keyAllowed = true) → skipSpace before = cs → MarkNext rest →
    ∃ s' behind, Scanner.Reaches s s' ∧ Inside s' (depth + 1) (tokens ++ ts) behind ∧
      skipSpace behind = skipSpace rest

/-- A word is scanned as a plain scalar. -/
lemma scans_word (word : List Char) (hbegins : BeginsWord (word ++ rest)) (hne : word ≠ [])
    (hword : ∀ c ∈ word, IsWordChar c) :
    Scans false (word ++ rest) [.scalar .plain (String.ofList word)] rest := by
  rintro s depth tokens before hs - hbefore ⟨c, r, hrest, hc⟩
  obtain ⟨s', behind, hstep, hs', hbehind⟩ := hs.step_word hbefore hbegins hne hword hrest hc
  exact ⟨s', behind, .single hstep, hs', hbehind.trans hrest.symm⟩

/-- A string is scanned as a double-quoted scalar, which can be a key. -/
lemma scans_string {text : List Char} (h : SpellsText cs text rest) :
    Scans false ('"' :: cs) [.scalar .doubleQuoted (String.ofList text)] rest := by
  rintro s depth tokens before hs - hbefore -
  obtain ⟨s', hstep, hs', -⟩ := hs.step_string hbefore h
  exact ⟨s', rest, .single hstep, hs', rfl⟩

/-- A closing bracket and its token. -/
def Closes (close : Char) (t : Token) : Prop :=
  close = ']' ∧ t = .flowSequenceEnd ∨ close = '\x7d' ∧ t = .flowMappingEnd

section Sequence

variable {keyed : Bool} {close : Char} {t : Token} {tss : List (List Token)} {s : Scanner}
  {depth : ℕ} {tokens : List Token} {before : List Char}

/-- Behind an item stands a comma or the bracket that closes. -/
lemma Closes.markNext (hclose : Closes close t) (h : SpellsMore (Scans keyed) close cs tss rest) :
    MarkNext cs := by
  cases h with
  | close hcs => exact ⟨_, _, hcs, by rcases hclose with ⟨rfl, -⟩ | ⟨rfl, -⟩ <;> rfl⟩
  | comma hcs _ _ => exact ⟨_, _, hcs, rfl⟩

/-- What follows an item is scanned up to the closing bracket. -/
lemma reaches_more (hclose : Closes close t) (h : SpellsMore (Scans keyed) close cs tss rest)
    (hs : Inside s (depth + 1) tokens before) (hbefore : skipSpace before = skipSpace cs) :
    ∃ s', Scanner.Reaches s s' ∧ Inside s' depth (tokens ++ moreTokens t tss) rest := by
  -- on the spelling; the place of the next token is the same however many blanks are left before it
  induction h generalizing s tokens before with
  | close hcs =>
      obtain ⟨s', hstep, hs'⟩ := hs.step_flowEnd (hbefore.trans hcs) hclose
      exact ⟨s', .single hstep, hs'⟩
  | @comma cs after more rest ts tss hcomma hts htss ih =>
      obtain ⟨s₁, hstep, hs₁, hallowed⟩ := hs.step_flowEntry (hbefore.trans hcomma)
      obtain ⟨s₂, behind, hitem, hs₂, hbehind⟩ :=
        hts hs₁ (fun _ => hallowed) rfl (hclose.markNext htss)
      obtain ⟨s₃, hmore, hs₃⟩ := ih hs₂ hbehind
      refine ⟨s₃, .head hstep (hitem.trans hmore), ?_⟩
      simpa [moreTokens] using hs₃

/-- Whatever is taken for one item, a sequence of them is taken. -/
lemma reaches_sequence (hclose : Closes close t)
    (h : SpellsSequence (Scans keyed) close cs tss rest) (hs : Inside s (depth + 1) tokens before)
    (hallowed : s.keyAllowed = true) (hbefore : skipSpace before = skipSpace cs) :
    ∃ s', Scanner.Reaches s s' ∧ Inside s' depth (tokens ++ sequenceTokens t tss) rest := by
  cases h with
  | empty hcs =>
      obtain ⟨s', hstep, hs'⟩ := hs.step_flowEnd (hbefore.trans hcs) hclose
      exact ⟨s', .single hstep, hs'⟩
  | items hts htss =>
      obtain ⟨s₁, behind, hitem, hs₁, hbehind⟩ :=
        hts hs (fun _ => hallowed) hbefore (hclose.markNext htss)
      obtain ⟨s₂, hmore, hs₂⟩ := reaches_more hclose htss hs₁ hbehind
      refine ⟨s₂, hitem.trans hmore, ?_⟩
      simpa [sequenceTokens] using hs₂

/-- A sequence between its brackets. -/
lemma scans_brackets {opening : Char} {t' : Token} (hclose : Closes close t)
    (hopen : opening = '[' ∧ t' = .flowSequence ∨ opening = '\x7b' ∧ t' = .flowMapping)
    (h : SpellsSequence (Scans keyed) close cs tss rest) :
    Scans false (opening :: cs) (t' :: sequenceTokens t tss) rest := by
  rintro s depth tokens before hs - hbefore -
  obtain ⟨s₁, hstep, hs₁, hallowed⟩ := hs.step_flowStart hbefore hopen
  obtain ⟨s₂, hitems, hs₂⟩ := reaches_sequence hclose h hs₁ hallowed rfl
  refine ⟨s₂, rest, .head hstep hitems, ?_, rfl⟩
  simpa using hs₂

end Sequence

/-- A key in quotes with its colon, and a value. -/
lemma scans_pair {key after colon : List Char} (hkey : SpellsText cs key after)
    (hcolon : after.dropWhile isBlank = ':' :: colon)
    (hlength : byteLength ('"' :: cs) ≤ byteLength (':' :: colon) + maxKeyLength)
    (hvalue : Scans false (skipSpace colon) ts rest) :
    Scans true ('"' :: cs) (pairTokens (String.ofList key) ts) rest := by
  intro s depth tokens before hs hallowed hbefore hrest
  obtain ⟨s₁, hstring, hs₁, hpossible⟩ := hs.step_string hbefore hkey
  obtain ⟨k, hk, hposition, hline⟩ := hpossible (hallowed rfl)
  obtain ⟨s₂, hstep, hs₂⟩ := hs₁.step_value hcolon hk hposition hline hlength
  obtain ⟨s₃, behind, hmore, hs₃, hbehind⟩ := hvalue hs₂ (by simp) rfl hrest
  refine ⟨s₃, behind, .head hstring (.head hstep hmore), ?_, hbehind⟩
  simpa [pairTokens] using hs₃

/-- A key without escapes, right before its colon. -/
lemma scans_pair_verbatim (key : String) {colon : List Char}
    (hkey : ∀ c ∈ key.toList, IsVerbatim c) (hlength : byteLength key.toList + 2 ≤ maxKeyLength)
    (hvalue : Scans false (skipSpace colon) ts rest) :
    Scans true ('"' :: (key.toList ++ '"' :: ':' :: colon)) (pairTokens key ts) rest := by
  have hbytes := byteLength_key key colon
  have hpair := scans_pair (spellsText_verbatim hkey (':' :: colon)) rfl (by omega) hvalue
  rwa [String.ofList_toList] at hpair

/-! ### Values -/

/-- The tokens are those of something that data is taken from. -/
def Loads {α β : Type} (parses : List Token → β → Prop) (load : β → Load α) (ts : List Token)
    (x : α) : Prop :=
  ∃ n, parses ts n ∧ load n = pure x

/-- Whatever is spelled so is taken from tokens that are scanned. -/
def LoadedBy {α : Type} (load : Node → Load α) (item : List Char → α → List Char → Prop) : Prop :=
  ∀ ⦃cs x rest⦄, item cs x rest → ∃ ts, Scans false cs ts rest ∧ Loads Parses load ts x

/-- A pair as a member. -/
def loadPair (load : Node → Load Value) (p : Node × Node) : Load (String × Value) := do
  let key ← Load.text p.1
  let value ← load p.2
  return (key, value)

lemma eachPair_eq_mapM (load : Node → Load Value) (ps : List (Node × Node)) :
    Load.eachPair load ps = ps.mapM (loadPair load) := by
  induction ps with
  | nil => rfl
  | cons p ps ih => simp [Load.eachPair, loadPair, ih]

/-- Data is taken from several things one by one. -/
lemma exists_mapM_of_loads {α β : Type} {parses : List Token → β → Prop} {load : β → Load α}
    {tss : List (List Token)} {xs : List α} (h : List.Forall₂ (Loads parses load) tss xs) :
    ∃ ns, List.Forall₂ parses tss ns ∧ ns.mapM load = pure xs := by
  induction h with
  | nil => exact ⟨[], .nil, rfl⟩
  | cons hx _ ih =>
      obtain ⟨n, hn, hload⟩ := hx
      obtain ⟨ns, hns, hloads⟩ := ih
      exact ⟨n :: ns, .cons hn hns, by simp [hload, hloads]⟩

/-- A scalar is loaded as what it resolves to. -/
lemma value_scalar {style : Style} {text : String} {v : Value}
    (h : scalarValue? none style text = some v) (depth : ℕ) :
    Load.value depth (.scalar {} style text) = pure v := by
  have hlift : (liftM (scalarValue? none style text) : Load Value) = pure v := by rw [h]; rfl
  cases depth <;> exact hlift

/-- Whatever does not nest is loaded as it is spelled. -/
lemma loads_scalar (depth : ℕ) : LoadedBy (Load.value depth) SpellsScalar := by
  intro cs v rest h
  cases h with
  | word h =>
      obtain ⟨hbegins, word, rfl, hne, hword, hvalue⟩ := h.exists_word
      have hplain : scalarValue? none .plain (String.ofList word) = some v := hvalue
      exact ⟨_, scans_word _ hbegins hne hword, _, parses_scalar .plain _,
        value_scalar hplain depth⟩
  | string h => exact ⟨_, scans_string h, _, parses_scalar .doubleQuoted _, value_scalar rfl depth⟩

/-- A member is loaded as it is spelled, if its value is. -/
lemma loads_member {value : List Char → Value → List Char → Prop} {load : Node → Load Value}
    (hvalue : LoadedBy load value) {m : String × Value} (h : SpellsMember value cs m rest) :
    ∃ ts, Scans true cs ts rest ∧ Loads ParsesPair (loadPair load) ts m := by
  cases h with
  | @member key s after colon rest v hkey hcolon hlength hv =>
      obtain ⟨ts, hscans, n, hn, hload⟩ := hvalue hv
      refine ⟨_, scans_pair hkey hcolon hlength hscans, _, .pair hn, ?_⟩
      have htext : Load.text (keyNode (String.ofList s)) = pure (String.ofList s) := rfl
      simp [loadPair, htext, hload]

/-- The members of an object are taken from a mapping. -/
lemma loads_members {value : List Char → Value → List Char → Prop} {load : Node → Load Value}
    (hvalue : LoadedBy load value) {ms : List (String × Value)}
    (h : SpellsSequence (SpellsMember value) '\x7d' cs ms rest) :
    ∃ ts pairs, Scans false ('\x7b' :: cs) ts rest ∧ Parses ts (.mapping {} pairs) ∧
      Load.eachPair load pairs = pure ms := by
  obtain ⟨tss, hscans, hloads⟩ := h.exists_forall₂ (loads_member hvalue)
  obtain ⟨pairs, hparses, hload⟩ := exists_mapM_of_loads hloads
  exact ⟨_, pairs, scans_brackets (.inr ⟨rfl, rfl⟩) (.inr ⟨rfl, rfl⟩) hscans,
    parses_mapping hparses, (eachPair_eq_mapM load pairs).trans hload⟩

/-- The items of an array are taken from a sequence. -/
lemma loads_items {α : Type} {item : List Char → α → List Char → Prop} {load : Node → Load α}
    (hitem : LoadedBy load item) {xs : List α} (h : SpellsSequence item ']' cs xs rest) :
    ∃ ts nodes, Scans false ('[' :: cs) ts rest ∧ Parses ts (.sequence {} nodes) ∧
      nodes.mapM load = pure xs := by
  obtain ⟨tss, hscans, hloads⟩ := h.exists_forall₂ fun h => hitem h
  obtain ⟨nodes, hparses, hload⟩ := exists_mapM_of_loads hloads
  exact ⟨_, nodes, scans_brackets (.inl ⟨rfl, rfl⟩) (.inl ⟨rfl, rfl⟩) hscans,
    parses_sequence hparses, hload⟩

/-- **The value that is spelled is taken from what is scanned.** -/
theorem loads_value (depth : ℕ) : LoadedBy (Load.value depth) (Spells depth) := by
  -- on the depth, as the spelling is: a collection is loaded from what its items load to
  induction depth with
  | zero => exact loads_scalar 0
  | succ depth ih =>
      intro cs v rest h
      rcases h with h | ⟨inner, vs, rfl, rfl, h⟩ | ⟨inner, ms, rfl, rfl, h⟩
      · exact loads_scalar (depth + 1) h
      · obtain ⟨ts, nodes, hscans, hparses, hload⟩ := loads_items ih h
        refine ⟨ts, hscans, _, hparses, ?_⟩
        have hvalue : Load.value (depth + 1) (.sequence {} nodes) =
            (do return .array (← nodes.mapM (Load.value depth))) := rfl
        rw [hvalue, hload, pure_bind]
      · obtain ⟨ts, pairs, hscans, hparses, hload⟩ := loads_members ih h
        refine ⟨ts, hscans, _, hparses, ?_⟩
        have hvalue : Load.value (depth + 1) (.mapping {} pairs) =
            (do return .object (Members.ofList (← Load.eachPair (Load.value depth) pairs))) := rfl
        rw [hvalue, hload, pure_bind]

end BrokerPolicy.Yaml
