import BrokerPolicy.Proofs.Results
import BrokerPolicy.Yaml.Load

/-!
Nodes in brackets, put together from their tokens.

`Parses ts n` says that the tokens `ts` are those of the node `n`: with as much fuel as there are
tokens, the parser takes them and no more, wherever the node stands. Items and pairs are separated
alike (`sequenceTokens`), so with `Parses` for each item there is `Parses` for the sequence
(`parses_sequence`), and with `ParsesPair` for each pair for the mapping (`parses_mapping`).
-/

namespace BrokerPolicy.Yaml

open Parse

/-! ### Tokens -/

/-- The tokens after an item: further items after commas, and the closing bracket. -/
def moreTokens (close : Token) : List (List Token) → List Token
  | [] => [close]
  | ts :: tss => .flowEntry :: (ts ++ moreTokens close tss)

/-- The tokens of items separated by commas, and the closing bracket. -/
def sequenceTokens (close : Token) : List (List Token) → List Token
  | [] => [close]
  | ts :: tss => ts ++ moreTokens close tss

/-- The tokens of a pair with a key in quotes. -/
def pairTokens (key : String) (ts : List Token) : List Token :=
  .key :: .scalar .doubleQuoted key :: .value :: ts

/-- A token that begins a node inside brackets. -/
def BeginsNode (t : Token) : Prop :=
  (∃ style text, t = .scalar style text) ∨ t = .flowSequence ∨ t = .flowMapping

/-- The tokens are those of a node, wherever it stands and whatever comes after it. -/
structure Parses (ts : List Token) (n : Node) : Prop where
  begins : ∃ t ts', ts = t :: ts' ∧ BeginsNode t
  node : ∀ {handles position fuel names rest}, ts.length ≤ fuel →
    node handles position fuel ⟨ts ++ rest, names⟩ = some (n, ⟨rest, names⟩)

variable {handles : Handles} {position : Position} {fuel : ℕ} {names : List (String × ℕ)}
  {rest : List Token} {r : Reading} {t : Token}

/-- There is a token at least, the one that closes. -/
lemma length_moreTokens_pos (close : Token) (tss : List (List Token)) :
    0 < (moreTokens close tss).length := by
  cases tss <;> simp [moreTokens]

/-! ### Single nodes -/

lemma node_scalar (handles : Handles) (position : Position) (fuel : ℕ) (style : Style)
    (text : String) (rest : List Token) (names : List (String × ℕ)) :
    Parse.node handles position (fuel + 1) ⟨.scalar style text :: rest, names⟩ =
      some (.scalar {} style text, ⟨rest, names⟩) :=
  rfl

/-- A sequence in brackets is a node. -/
lemma node_flowSequence {items : List Node}
    (h : flowItems handles true fuel ⟨rest, names⟩ = some (items, r)) :
    Parse.node handles position (fuel + 1) ⟨.flowSequence :: rest, names⟩ =
      some (.sequence {} items, r) := by
  have hnode : Parse.node handles position (fuel + 1) ⟨.flowSequence :: rest, names⟩ =
      (flowItems handles true fuel ⟨rest, names⟩).bind fun x => some (.sequence {} x.1, x.2) := rfl
  rw [hnode, h]
  rfl

/-- So is a mapping. -/
lemma node_flowMapping {pairs : List (Node × Node)}
    (h : flowPairs handles true fuel ⟨rest, names⟩ = some (pairs, r)) :
    Parse.node handles position (fuel + 1) ⟨.flowMapping :: rest, names⟩ =
      some (.mapping {} pairs, r) := by
  have hnode : Parse.node handles position (fuel + 1) ⟨.flowMapping :: rest, names⟩ =
      (flowPairs handles true fuel ⟨rest, names⟩).bind fun x => some (.mapping {} x.1, x.2) := rfl
  rw [hnode, h]
  rfl

/-! ### Items -/

lemma flowItems_close (isFirst : Bool) :
    flowItems handles isFirst (fuel + 1) ⟨.flowSequenceEnd :: rest, names⟩ =
      some ([], ⟨rest, names⟩) :=
  rfl

/-- The first item of a sequence. -/
lemma flowItems_first {ts : List Token} {n : Node} {items : List Node} (ht : BeginsNode t)
    (hn : Parse.node handles .flow fuel ⟨t :: ts, names⟩ = some (n, ⟨rest, names⟩))
    (hitems : flowItems handles false fuel ⟨rest, names⟩ = some (items, r)) :
    flowItems handles true (fuel + 1) ⟨t :: ts, names⟩ = some (n :: items, r) := by
  have hstep : flowItems handles true (fuel + 1) ⟨t :: ts, names⟩ =
      (Parse.node handles .flow fuel ⟨t :: ts, names⟩).bind fun x =>
        (flowItems handles false fuel x.2).bind fun y => some (x.1 :: y.1, y.2) := by
    rcases ht with ⟨style, text, rfl⟩ | rfl | rfl <;> rfl
  rw [hstep, hn, Option.bind_some, hitems]
  rfl

/-- An item after a comma. -/
lemma flowItems_next {ts : List Token} {n : Node} {items : List Node} (ht : BeginsNode t)
    (hn : Parse.node handles .flow fuel ⟨t :: ts, names⟩ = some (n, ⟨rest, names⟩))
    (hitems : flowItems handles false fuel ⟨rest, names⟩ = some (items, r)) :
    flowItems handles false (fuel + 1) ⟨.flowEntry :: t :: ts, names⟩ = some (n :: items, r) := by
  have hstep : flowItems handles false (fuel + 1) ⟨.flowEntry :: t :: ts, names⟩ =
      (Parse.node handles .flow fuel ⟨t :: ts, names⟩).bind fun x =>
        (flowItems handles false fuel x.2).bind fun y => some (x.1 :: y.1, y.2) := by
    rcases ht with ⟨style, text, rfl⟩ | rfl | rfl <;> rfl
  rw [hstep, hn, Option.bind_some, hitems]
  rfl

/-- Further items are parsed one by one, each behind its comma. -/
lemma flowItems_more {tss : List (List Token)} {items : List Node}
    (h : List.Forall₂ Parses tss items)
    (hfuel : (moreTokens .flowSequenceEnd tss).length ≤ fuel) :
    flowItems handles false fuel ⟨moreTokens .flowSequenceEnd tss ++ rest, names⟩ =
      some (items, ⟨rest, names⟩) := by
  induction h generalizing fuel with
  | nil =>
      obtain ⟨fuel, rfl⟩ := Nat.exists_eq_add_of_le' hfuel
      exact flowItems_close false
  | @cons ts n tss items hts _ ih =>
      obtain ⟨⟨t, ts, rfl, ht⟩, hnode⟩ := hts
      simp only [moreTokens, List.length_cons, List.length_append] at hfuel
      obtain ⟨fuel, rfl⟩ : ∃ m, fuel = m + 1 := Nat.exists_eq_succ_of_ne_zero (by omega)
      simp only [moreTokens, List.cons_append, List.append_assoc]
      exact flowItems_next ht (hnode (by simp only [List.length_cons]; omega)) (ih (by omega))

/-- The first item has no comma in front. -/
lemma flowItems_sequence {tss : List (List Token)} {items : List Node}
    (h : List.Forall₂ Parses tss items)
    (hfuel : (sequenceTokens .flowSequenceEnd tss).length ≤ fuel) :
    flowItems handles true fuel ⟨sequenceTokens .flowSequenceEnd tss ++ rest, names⟩ =
      some (items, ⟨rest, names⟩) := by
  cases h with
  | nil =>
      obtain ⟨fuel, rfl⟩ := Nat.exists_eq_add_of_le' hfuel
      exact flowItems_close true
  | @cons ts n tss items hts htss =>
      -- the first item has no comma before it; the rest is `flowItems_more`
      obtain ⟨⟨t, ts, rfl, ht⟩, hnode⟩ := hts
      have hmore := length_moreTokens_pos .flowSequenceEnd tss
      simp only [sequenceTokens, List.length_cons, List.length_append] at hfuel
      obtain ⟨fuel, rfl⟩ : ∃ m, fuel = m + 1 := Nat.exists_eq_succ_of_ne_zero (by omega)
      simp only [sequenceTokens, List.cons_append, List.append_assoc]
      exact flowItems_first ht (hnode (by simp only [List.length_cons]; omega))
        (flowItems_more htss (by omega))

/-- A sequence in brackets. -/
lemma parses_sequence {tss : List (List Token)} {items : List Node}
    (h : List.Forall₂ Parses tss items) :
    Parses (.flowSequence :: sequenceTokens .flowSequenceEnd tss) (.sequence {} items) where
  begins := ⟨_, _, rfl, .inr (.inl rfl)⟩
  node := by
    intro handles position fuel names rest hfuel
    rw [List.length_cons] at hfuel
    obtain ⟨fuel, rfl⟩ : ∃ m, fuel = m + 1 := Nat.exists_eq_succ_of_ne_zero (by omega)
    exact node_flowSequence (flowItems_sequence h (by omega))

/-! ### Pairs -/

/-- A key in quotes. -/
def keyNode (key : String) : Node :=
  .scalar {} .doubleQuoted key

/-- The tokens are those of a pair. -/
inductive ParsesPair : List Token → Node × Node → Prop
  | pair {key : String} {ts : List Token} {n : Node} (h : Parses ts n) :
      ParsesPair (pairTokens key ts) (keyNode key, n)

lemma flowPairs_close (isFirst : Bool) :
    flowPairs handles isFirst (fuel + 1) ⟨.flowMappingEnd :: rest, names⟩ =
      some ([], ⟨rest, names⟩) :=
  rfl

/-- The value of a pair is a node behind its mark. -/
lemma flowValue_node {ts : List Token} {n : Node} (ht : BeginsNode t)
    (hn : Parse.node handles .flow fuel ⟨t :: ts, names⟩ = some (n, r)) :
    flowValue handles .flowMappingEnd (fuel + 2) ⟨.value :: t :: ts, names⟩ = some (n, r) := by
  have hstep : flowValue handles .flowMappingEnd (fuel + 2) ⟨.value :: t :: ts, names⟩ =
      Parse.node handles .flow fuel ⟨t :: ts, names⟩ := by
    rcases ht with ⟨style, text, rfl⟩ | rfl | rfl <;> rfl
  rw [hstep, hn]

/-- The first pair of a mapping. -/
lemma flowPairs_first {key : String} {ts : List Token} {n : Node} {pairs : List (Node × Node)}
    (ht : BeginsNode t)
    (hn : Parse.node handles .flow fuel ⟨t :: ts, names⟩ = some (n, ⟨rest, names⟩))
    (hpairs : flowPairs handles false (fuel + 2) ⟨rest, names⟩ = some (pairs, r)) :
    flowPairs handles true (fuel + 3) ⟨pairTokens key (t :: ts), names⟩ =
      some ((keyNode key, n) :: pairs, r) := by
  have hstep : flowPairs handles true (fuel + 3) ⟨pairTokens key (t :: ts), names⟩ =
      (flowValue handles .flowMappingEnd (fuel + 2) ⟨.value :: t :: ts, names⟩).bind fun x =>
        (flowPairs handles false (fuel + 2) x.2).bind fun y =>
          some ((keyNode key, x.1) :: y.1, y.2) := rfl
  rw [hstep, flowValue_node ht hn, Option.bind_some, hpairs]
  rfl

/-- A pair after a comma. -/
lemma flowPairs_next {key : String} {ts : List Token} {n : Node} {pairs : List (Node × Node)}
    (ht : BeginsNode t)
    (hn : Parse.node handles .flow fuel ⟨t :: ts, names⟩ = some (n, ⟨rest, names⟩))
    (hpairs : flowPairs handles false (fuel + 2) ⟨rest, names⟩ = some (pairs, r)) :
    flowPairs handles false (fuel + 3) ⟨.flowEntry :: pairTokens key (t :: ts), names⟩ =
      some ((keyNode key, n) :: pairs, r) := by
  have hstep : flowPairs handles false (fuel + 3) ⟨.flowEntry :: pairTokens key (t :: ts), names⟩ =
      (flowValue handles .flowMappingEnd (fuel + 2) ⟨.value :: t :: ts, names⟩).bind fun x =>
        (flowPairs handles false (fuel + 2) x.2).bind fun y =>
          some ((keyNode key, x.1) :: y.1, y.2) := rfl
  rw [hstep, flowValue_node ht hn, Option.bind_some, hpairs]
  rfl

/-- Further pairs are parsed one by one, each behind its comma. -/
lemma flowPairs_more {tss : List (List Token)} {pairs : List (Node × Node)}
    (h : List.Forall₂ ParsesPair tss pairs)
    (hfuel : (moreTokens .flowMappingEnd tss).length ≤ fuel) :
    flowPairs handles false fuel ⟨moreTokens .flowMappingEnd tss ++ rest, names⟩ =
      some (pairs, ⟨rest, names⟩) := by
  induction h generalizing fuel with
  | nil =>
      obtain ⟨fuel, rfl⟩ := Nat.exists_eq_add_of_le' hfuel
      exact flowPairs_close false
  | @cons ts pair tss pairs hts _ ih =>
      cases hts with
      | @pair key ts n hts =>
          obtain ⟨⟨t, ts, rfl, ht⟩, hnode⟩ := hts
          simp only [moreTokens, pairTokens, List.length_cons, List.length_append] at hfuel
          -- a pair takes three steps beside its value: the two marks and the key
          obtain ⟨fuel, rfl⟩ : ∃ m, fuel = m + 3 := Nat.exists_eq_add_of_le' (by omega)
          simp only [moreTokens, pairTokens, List.cons_append, List.append_assoc]
          exact flowPairs_next ht (hnode (by simp only [List.length_cons]; omega)) (ih (by omega))

/-- The first pair has no comma in front. -/
lemma flowPairs_sequence {tss : List (List Token)} {pairs : List (Node × Node)}
    (h : List.Forall₂ ParsesPair tss pairs)
    (hfuel : (sequenceTokens .flowMappingEnd tss).length ≤ fuel) :
    flowPairs handles true fuel ⟨sequenceTokens .flowMappingEnd tss ++ rest, names⟩ =
      some (pairs, ⟨rest, names⟩) := by
  cases h with
  | nil =>
      obtain ⟨fuel, rfl⟩ := Nat.exists_eq_add_of_le' hfuel
      exact flowPairs_close true
  | @cons ts pair tss pairs hts htss =>
      cases hts with
      | @pair key ts n hts =>
          obtain ⟨⟨t, ts, rfl, ht⟩, hnode⟩ := hts
          simp only [sequenceTokens, pairTokens, List.length_cons, List.length_append] at hfuel
          obtain ⟨fuel, rfl⟩ : ∃ m, fuel = m + 3 := Nat.exists_eq_add_of_le' (by omega)
          simp only [sequenceTokens, pairTokens, List.cons_append, List.append_assoc]
          exact flowPairs_first ht (hnode (by simp only [List.length_cons]; omega))
            (flowPairs_more htss (by omega))

/-- A mapping in braces. -/
lemma parses_mapping {tss : List (List Token)} {pairs : List (Node × Node)}
    (h : List.Forall₂ ParsesPair tss pairs) :
    Parses (.flowMapping :: sequenceTokens .flowMappingEnd tss) (.mapping {} pairs) where
  begins := ⟨_, _, rfl, .inr (.inr rfl)⟩
  node := by
    intro handles position fuel names rest hfuel
    rw [List.length_cons] at hfuel
    obtain ⟨fuel, rfl⟩ : ∃ m, fuel = m + 1 := Nat.exists_eq_succ_of_ne_zero (by omega)
    exact node_flowMapping (flowPairs_sequence h (by omega))

/-- A scalar is parsed from its token, in any position. -/
lemma parses_scalar (style : Style) (text : String) :
    Parses [.scalar style text] (.scalar {} style text) where
  begins := ⟨_, _, rfl, .inl ⟨style, text, rfl⟩⟩
  node := by
    intro handles position fuel names rest hfuel
    obtain ⟨fuel, rfl⟩ := Nat.exists_eq_add_of_le' hfuel
    exact node_scalar handles position fuel style text rest names

end BrokerPolicy.Yaml
