import BrokerPolicy.Proofs.Yaml.Spelled

/-!
A document in braces.

The first brace stands outside of all brackets, at the start of a line (`step_start`), and the text
ends outside of them again (`Inside.step_end`). Every step between takes a character, so the fuel of
the scan lasts (`run?_of_reaches`). With the pairs scanned and put together, the document is the
mapping of the pairs: `node_ofText?`.
-/

namespace BrokerPolicy.Yaml

open Json Parse

namespace Scanner

variable {s s' e : Scanner} {tokens : List Token} {cs : List Char}

/-! ### The first and the last step -/

/-- The scanner at the start of a text. -/
def start (cs : List Char) : Scanner :=
  { cursor := ⟨cs, {}⟩, limit := cs.length + 1 }

/-- The brace at the start of a text. -/
lemma step_start (cs : List Char) : ∃ s, Step (start ('\x7b' :: cs)) s ∧
    Inside s 1 [.flowMapping] cs ∧ s.keyAllowed = true := by
  let k : PossibleKey := ⟨0, {}, false⟩
  refine ⟨{ start ('\x7b' :: cs) with
    cursor := ⟨cs, Place.next {} '\x7b'⟩, tokens := #[.flowMapping], outerKeys := [some k] },
    ⟨rfl, Nat.lt_succ_self _⟩, ?_, rfl⟩
  exact {
    rest := rfl
    tokens := rfl
    depth := rfl
    key := fun k hk => by cases hk
    outerKeys := by simp [Optional, k]
    indent := rfl
    outerIndents := rfl
    limit := by simp [start] }

/-- The end of the text. -/
lemma Inside.step_end (h : Inside s 0 tokens []) :
    ∃ e, s.step? = some (true, e) ∧ e.tokens.toList = tokens ++ [.streamEnd] := by
  have hkeys := List.length_eq_zero_iff.1 h.depth
  have htoken : s.toToken s.limit = s := by
    obtain ⟨limit, hlimit⟩ := Nat.exists_eq_add_of_le' h.limit
    have hrest := h.rest
    obtain ⟨⟨rest, place⟩, limit, _, _, _, _, _, _⟩ := s
    obtain rfl : rest = [] := hrest
    obtain rfl : limit = _ := hlimit
    simp [toToken, Cursor.starts, Cursor.peek?, Cursor.skipWhile, Cursor.takeWhile,
      Cursor.skipComment]
  -- no block is open, so none is closed before the last token
  let s₁ : Scanner := { s with key? := fresh s.cursor.place s.key? }
  have hready : s.forgetStale? = some s₁ := by
    simp [forgetStale?, hkeys, refresh?_of_optional h.key, s₁]
  have hunroll (column : ℤ) : s₁.unroll column = s₁ := by
    simp [unroll, s₁, hkeys, unroll.go, h.outerIndents]
  have hdrop : s₁.dropKey? = some { s₁ with key? := none } :=
    dropKey?_of_optional (h.key.fresh s.cursor.place)
  refine ⟨({ s₁ with key? := none, keyAllowed := false } : Scanner).push .streamEnd, ?_, ?_⟩
  · rw [step?, htoken, hready]
    simp [hunroll, hdrop, streamEnd?, leaveDocument?, s₁, h.rest]
  · rw [← h.tokens]
    exact Array.toList_push

/-- The fuel lasts as long as there are characters. -/
lemma run?_of_reaches (h : Reaches s s') (hend : s'.step? = some (true, e)) {fuel : ℕ}
    (hfuel : s.cursor.rest.length < fuel) : run? fuel s = some e.tokens.toList := by
  induction h using Relation.ReflTransGen.head_induction_on generalizing fuel with
  | refl =>
      obtain ⟨fuel, rfl⟩ : ∃ n, fuel = n + 1 := Nat.exists_eq_succ_of_ne_zero (by omega)
      simp [run?, hend]
  | head hstep _ ih =>
      obtain ⟨hstep, hshorter⟩ := hstep
      obtain ⟨fuel, rfl⟩ : ∃ n, fuel = n + 1 := Nat.exists_eq_succ_of_ne_zero (by omega)
      simp only [run?, hstep]
      exact ih (by omega)

end Scanner

open Scanner

/-! ### The document -/

variable {text : String} {cs : List Char} {tss : List (List Token)} {ts : List Token} {n : Node}

/-- The tokens of a document in braces. -/
lemma ofText?_of_scans (hallowed : ∀ c ∈ text.toList, isAllowed c = true)
    (htext : text.toList = '\x7b' :: cs) (h : SpellsSequence (Scans true) '\x7d' cs tss []) :
    Token.ofText? text =
      some (.flowMapping :: sequenceTokens .flowMappingEnd tss ++ [.streamEnd]) := by
  obtain ⟨s, hstep, hs, hkey⟩ := step_start cs
  obtain ⟨s', hreaches, hs'⟩ := reaches_sequence (.inr ⟨rfl, rfl⟩) h hs hkey rfl
  obtain ⟨e, hend, htokens⟩ := hs'.step_end
  have hall : text.toList.all isAllowed = true := List.all_eq_true.2 hallowed
  have hrun := run?_of_reaches (.head hstep hreaches) hend (Nat.lt_succ_self _)
  rw [Token.ofText?, if_pos hall, htext]
  exact hrun.trans (congrArg some htokens)

/-- The only node of a document that begins with it. -/
lemma document?_of_parses (h : Parses ts n) : document? (ts ++ [.streamEnd]) = some (some n) := by
  obtain ⟨t, ts', rfl, ht⟩ := h.begins
  have hnode : Parse.node defaultHandles .block (4 * (t :: ts' ++ [Token.streamEnd]).length + 8)
      ⟨t :: ts' ++ [.streamEnd], []⟩ = some (n, ⟨[.streamEnd], []⟩) :=
    h.node (by simp only [List.length_append, List.length_cons]; omega)
  -- no directive and no mark of a document begins a node
  have hdocument : document? (t :: ts' ++ [.streamEnd]) =
      (Parse.node defaultHandles .block (4 * (t :: ts' ++ [Token.streamEnd]).length + 8)
        ⟨t :: ts' ++ [.streamEnd], []⟩).bind fun x =>
          if x.2.tokens.dropWhile (· == .documentEnd) = [.streamEnd] then some (some x.1)
          else none := by
    rcases ht with ⟨style, text, rfl⟩ | rfl | rfl <;> simp [document?, directives, StateT.run]
  rw [hdocument, hnode]
  rfl

/-- **A document in braces is read** if each of its pairs is scanned and put together. -/
theorem node_ofText? {pairs : List (Node × Node)} (hallowed : ∀ c ∈ text.toList, isAllowed c = true)
    (htext : text.toList = '\x7b' :: cs) (h : SpellsSequence (Scans true) '\x7d' cs tss [])
    (hpairs : List.Forall₂ ParsesPair tss pairs) :
    Node.ofText? text = some (some (.mapping {} pairs)) := by
  rw [Node.ofText?, ofText?_of_scans hallowed htext h]
  exact document?_of_parses (parses_mapping hpairs)

end BrokerPolicy.Yaml
