import BrokerPolicy.Proofs.Yaml.Scalar

/-!
JSON scanned as YAML, token by token.

`Inside s depth tokens cs` is what holds of the scanner between tokens of JSON: it is inside so many
brackets and no block, at the text `cs`, and has taken `tokens`; and no possible key has to be one.
Under it lines may end anywhere before a token, and keys that are too far back are forgotten without
an error (`Inside.ready`). One lemma for each token says that a step takes it and keeps `Inside`:

* `Inside.step_flowStart`, `Inside.step_flowEnd` and `Inside.step_flowEntry` for brackets and
  commas;
* `Inside.step_string` for a text, which may be a key, and `Inside.step_value` for the colon that
  makes it one: its token is put before that of the text (`toList_insertIdxIfInBounds`);
* `Inside.step_word` for a word.
-/

namespace BrokerPolicy.Yaml

open Json

namespace Cursor

/-- Skipping characters does not leave the line. -/
lemma sameLine_skipWhile (p : Char → Bool) (s : Cursor) : SameLine s (s.skipWhile p) := by
  obtain ⟨cs, place⟩ := s
  induction cs generalizing place with
  | nil => exact .refl _
  | cons c cs ih =>
      by_cases hc : p c = true
      · have hskip : (⟨c :: cs, place⟩ : Cursor).skipWhile p =
            (⟨cs, place.next c⟩ : Cursor).skipWhile p := by
          simp [skipWhile, takeWhile, hc]
        rw [hskip]
        exact (SameLine.next c cs place).trans (ih _)
      · have hskip : (⟨c :: cs, place⟩ : Cursor).skipWhile p = ⟨c :: cs, place⟩ := by
          simp [skipWhile, takeWhile, hc]
        rw [hskip]
        exact .refl _

end Cursor

namespace Scanner

variable {s : Scanner} {cs r : List Char} {c : Char}

/-- A token does not begin with any of these. -/
def IsMark (c : Char) : Prop :=
  isBreak c = false ∧ c ≠ '#' ∧ c ≠ '\uFEFF'

/-- Blanks in front of a gap belong to it. -/
lemma dropWhile_isBlank_skipSpace (cs : List Char) :
    skipSpace (cs.dropWhile isBlank) = skipSpace cs := by
  induction cs with
  | nil => rfl
  | cons d cs ih =>
      by_cases hd : isBlank d = true
      · have hspace : isSpace d = true := by
          simp only [isBlank, Bool.or_eq_true, beq_iff_eq] at hd
          rcases hd with rfl | rfl <;> rfl
        rw [List.dropWhile_cons_of_pos hd, ih, skipSpace_cons_of_isSpace hspace]
      · rw [List.dropWhile_cons_of_neg hd]

/-- A line end among the blanks before a token is passed over. -/
lemma skipBreak_of_skipSpace {t : Cursor} (h : skipSpace t.rest = c :: r)
    (hbreak : t.rest.head? = some '\n' ∨ t.rest.head? = some '\r') :
    skipSpace t.skipBreak.rest = c :: r ∧ t.skipBreak.rest.length < t.rest.length := by
  obtain ⟨cs, p⟩ := t
  cases cs with
  | nil => cases h
  | cons d cs =>
      rcases hbreak with hd | hd
      · obtain rfl : d = '\n' := Option.some.inj hd
        rw [skipSpace_cons_of_isSpace (by rfl)] at h
        exact ⟨h, Nat.lt_succ_self _⟩
      · obtain rfl : d = '\r' := Option.some.inj hd
        rw [skipSpace_cons_of_isSpace (by rfl)] at h
        -- a return and a feed after it are one break
        by_cases hfeed : ∃ cs', cs = '\n' :: cs'
        · obtain ⟨cs', rfl⟩ := hfeed
          rw [skipSpace_cons_of_isSpace (by rfl)] at h
          exact ⟨h, by simp [Cursor.skipBreak, Cursor.takeBreak]⟩
        · have hskip : (⟨'\r' :: cs, p⟩ : Cursor).skipBreak = ⟨cs, p.newLine 1⟩ := by
            rw [Cursor.skipBreak, Cursor.takeBreak]
            split
            · next heq => exact absurd ⟨_, (List.cons.inj heq).2⟩ hfeed
            · next heq =>
              obtain ⟨rfl, rfl⟩ := List.cons.inj heq
              rfl
            · next heq => cases heq
          rw [hskip]
          exact ⟨h, Nat.lt_succ_self _⟩

/-- Inside brackets the scanner comes to the next token whatever lines end before it. -/
lemma toToken_of_skipSpace (hflow : s.inFlow = true) (h : skipSpace s.cursor.rest = c :: r)
    (hc : IsMark c) {fuel : ℕ} (hfuel : s.cursor.rest.length < fuel) :
    ∃ p, s.toToken fuel = { s with cursor := ⟨c :: r, p⟩ } ∧
      (s.cursor.rest.dropWhile isBlank = c :: r → SameLine s.cursor ⟨c :: r, p⟩) := by
  have ⟨hbreak, hcomment, hbom⟩ := hc
  have hspace := skipSpace_of_cons h
  have hstarts {t : Cursor} (ht : skipSpace t.rest = c :: r) {d : Char} (hd : isSpace d = false)
      (hcd : c ≠ d) : t.starts d = false := by
    refine starts_eq_false t.place fun r' hr' => ?_
    rw [hr', skipSpace_cons r' hd] at ht
    exact hcd (List.cons.inj ht).1.symm
  -- each turn takes the blanks of one line and its break, which is what the fuel pays for
  induction fuel generalizing s with
  | zero => omega
  | succ fuel ih =>
      have hpred : (fun d => d == ' ' || ((s.inFlow || !s.keyAllowed) && d == '\t')) = isBlank := by
        simp only [hflow, Bool.true_or, Bool.true_and]
        rfl
      have hline := s.cursor.sameLine_skipWhile isBlank
      have hrest : (s.cursor.skipWhile isBlank).rest = s.cursor.rest.dropWhile isBlank := rfl
      have hhead := List.head?_dropWhile_not isBlank s.cursor.rest
      have hlength := (List.dropWhile_suffix isBlank (l := s.cursor.rest)).length_le
      have hbegins := hstarts h (d := '\uFEFF') (by rfl) hbom
      rw [← dropWhile_isBlank_skipSpace, ← hrest] at h
      rw [← hrest] at hhead hlength
      rw [toToken, ← hrest]
      simp only [hbegins, Bool.and_false, Bool.false_eq_true, if_false, hpred]
      generalize s.cursor.skipWhile isBlank = t at *
      have hskip : t.skipComment = t := by
        simp [Cursor.skipComment, hstarts h (d := '#') (by rfl) hcomment]
      rw [hskip]
      obtain ⟨rest, p⟩ := t
      cases rest with
      | nil => cases h
      | cons d rest =>
          by_cases hd : isSpace d = true
          -- what stopped the blanks is white space all the same, so a line ends here
          · have hblank : isBlank d = false := by simpa using hhead
            have hfeed : d = '\n' ∨ d = '\r' := by
              rcases isSpace_eq_true_iff.1 hd with rfl | rfl | rfl | rfl
              · cases hblank
              · cases hblank
              · exact .inl rfl
              · exact .inr rfl
            have hends : isBreak d = true := by rcases hfeed with rfl | rfl <;> rfl
            obtain ⟨hnext, hshorter⟩ := skipBreak_of_skipSpace h
              (hfeed.imp (congrArg some) (congrArg some))
            have hallowed : (s.keyAllowed || !s.inFlow) = s.keyAllowed := by simp [hflow]
            obtain ⟨p', hp', -⟩ := ih (s := { s with cursor := Cursor.skipBreak ⟨d :: rest, p⟩ })
              hflow hnext (by dsimp only at hshorter hlength ⊢; omega)
            refine ⟨p', ?_, fun heq => ?_⟩
            · simp only [Cursor.peek?, List.head?_cons, Option.any_some, hends, if_true, hallowed,
                hp']
            · obtain ⟨rfl, -⟩ := List.cons.inj heq
              exact absurd (hspace.symm.trans hd) (by decide)
          · rw [skipSpace_cons rest (by simpa using hd)] at h
            obtain ⟨rfl, rfl⟩ := List.cons.inj h
            refine ⟨p, ?_, fun _ => hline⟩
            simp [Cursor.peek?, hbreak]

/-! ### Keys -/

/-- No key has to be one. -/
def Optional (k? : Option PossibleKey) : Prop :=
  ∀ k ∈ k?, k.isRequired = false

/-- The keys that a colon at a place can still make one. -/
def fresh (p : Place) (k? : Option PossibleKey) : Option PossibleKey :=
  k?.filter fun k => !PossibleKey.isStale k p

lemma Optional.fresh {k? : Option PossibleKey} (h : Optional k?) (p : Place) :
    Optional (fresh p k?) :=
  fun k hk => h k (Option.filter_eq_some_iff.1 hk).1

/-- A key that need not come can always be given up. -/
lemma refresh?_of_optional {k? : Option PossibleKey} (h : Optional k?) (p : Place) :
    refresh? p k? = some (fresh p k?) := by
  cases k? with
  | none => rfl
  | some k =>
      have hk : k.isRequired = false := h k rfl
      by_cases hstale : PossibleKey.isStale k p = true
      · simp [refresh?, fresh, Option.filter, hstale, hk]
      · simp [refresh?, fresh, Option.filter, hstale]

/-- So can any number of them. -/
lemma mapM_refresh?_of_optional {ks : List (Option PossibleKey)} (h : ∀ k? ∈ ks, Optional k?)
    (p : Place) : ks.mapM (refresh? p) = some (ks.map (fresh p)) := by
  induction ks with
  | nil => rfl
  | cons k? ks ih =>
      obtain ⟨hk, hks⟩ := List.forall_mem_cons.1 h
      simp [List.mapM_cons, refresh?_of_optional hk, ih hks]

/-- An optional key is dropped without an error. -/
lemma dropKey?_of_optional (h : Optional s.key?) : s.dropKey? = some { s with key? := none } := by
  rw [dropKey?]
  cases hk : s.key? with
  | none => rfl
  | some k => simp [h k hk]

/-! ### Inside brackets -/

/-- The scanner is inside so many brackets, at a text, and has taken some tokens. -/
structure Inside (s : Scanner) (depth : ℕ) (tokens : List Token) (cs : List Char) : Prop where
  rest : s.cursor.rest = cs
  tokens : s.tokens.toList = tokens
  depth : s.outerKeys.length = depth
  key : Optional s.key?
  outerKeys : ∀ k? ∈ s.outerKeys, Optional k?
  indent : s.indent = -1
  outerIndents : s.outerIndents = []
  limit : cs.length < s.limit

namespace Inside

variable {depth : ℕ} {tokens : List Token}

/-- Between brackets the scanner is in flow context. -/
lemma inFlow (h : Inside s (depth + 1) tokens cs) : s.inFlow = true := by
  have hdepth := h.depth
  unfold Scanner.inFlow
  cases hkeys : s.outerKeys with
  | nil =>
      rw [hkeys] at hdepth
      cases hdepth
  | cons k? ks => rfl

/-- Before a token only blanks are passed over and keys forgotten. -/
lemma ready (h : Inside s (depth + 1) tokens cs) (hcs : skipSpace cs = c :: r) (hc : IsMark c) :
    ∃ s', (s.toToken s.limit).forgetStale? = some s' ∧ Inside s' (depth + 1) tokens (c :: r) ∧
      s'.keyAllowed = s.keyAllowed ∧ s'.key? = fresh s'.cursor.place s.key? ∧
      (cs.dropWhile isBlank = c :: r → SameLine s.cursor s'.cursor) := by
  obtain rfl := h.rest
  obtain ⟨p, hp, hline⟩ := toToken_of_skipSpace h.inFlow hcs hc h.limit
  -- going to the next token may make keys stale; inside a flow none of them is required
  let s' : Scanner := { s with
    cursor := ⟨c :: r, p⟩, key? := fresh p s.key?, outerKeys := s.outerKeys.map (fresh p) }
  refine ⟨s', ?_, ?_, rfl, rfl, hline⟩
  · simp only [hp, forgetStale?, refresh?_of_optional h.key, mapM_refresh?_of_optional h.outerKeys,
      Option.bind_eq_bind, Option.bind_some, Option.pure_def]
    rfl
  · have hshorter : (c :: r).length ≤ s.cursor.rest.length := hcs ▸ length_skipSpace_le _
    exact {
      rest := rfl
      tokens := h.tokens
      depth := (List.length_map _).trans h.depth
      key := h.key.fresh p
      outerKeys := List.forall_mem_map.2 fun k? hk => (h.outerKeys k? hk).fresh p
      indent := h.indent
      outerIndents := h.outerIndents
      limit := hshorter.trans_lt h.limit }

/-- The cursor as the place of a possible key. -/
lemma saveKey (h : Inside s (depth + 1) tokens cs) :
    ∃ s', s.saveKey? = some s' ∧ Inside s' (depth + 1) tokens cs ∧ s'.cursor = s.cursor ∧
      s'.limit = s.limit ∧
      (s.keyAllowed = true → s'.key? = some ⟨tokens.length, s.cursor.place, false⟩) := by
  have hflow := h.inFlow
  by_cases hallowed : s.keyAllowed = true
  · refine ⟨{ s with key? := some ⟨s.tokens.size, s.cursor.place, false⟩ }, ?_, ?_, rfl, rfl, ?_⟩
    · have hempty : s.outerKeys.isEmpty = false := by simpa [Scanner.inFlow] using hflow
      simp [saveKey?, hallowed, dropKey?_of_optional h.key, Scanner.inFlow, hempty]
    · exact { h with key := fun k hk => Option.some.inj hk ▸ rfl }
    · rw [← h.tokens]
      simp
  · exact ⟨s, by simp [saveKey?, hallowed], h, rfl, rfl, fun h => absurd h hallowed⟩

end Inside

/-! ### Steps -/

/-- A token is taken that is not the last. -/
def Step (s s' : Scanner) : Prop :=
  s.step? = some (false, s') ∧ s'.cursor.rest.length < s.cursor.rest.length

/-- Some tokens are taken. -/
def Reaches : Scanner → Scanner → Prop :=
  Relation.ReflTransGen Step

lemma unroll_of_inFlow (h : s.inFlow = true) (column : ℤ) : s.unroll column = s := by
  rw [unroll, if_pos h]

namespace Inside

variable {depth : ℕ} {tokens : List Token} {t : Token}

/-- A document mark takes the same character more than once. -/
lemma startsMark_eq_false (h : Inside s depth tokens cs) {d : Char} (hd : ∀ r, cs ≠ d :: d :: r) :
    s.cursor.startsMark d = false := by
  have htake : cs.take 3 ≠ [d, d, d] := by
    intro heq
    refine hd (d :: cs.drop 3) ?_
    rw [← List.take_append_drop 3 cs, heq]
    simp
  simp [Cursor.startsMark, h.rest, htake]

lemma startsMark_of_ne (h : Inside s depth tokens (c :: r)) {d : Char} (hd : c ≠ d) :
    s.cursor.startsMark d = false :=
  h.startsMark_eq_false fun _ heq => hd (List.cons.inj heq).1

/-- A mark of one character is taken. -/
lemma pushMark (h : Inside s depth tokens (c :: r)) (t : Token) :
    Inside (s.pushMark t 1) depth (tokens ++ [t]) r :=
  { h with
    rest := by
      have hskip : (s.pushMark t 1).cursor = s.cursor.skip := rfl
      rw [hskip, Cursor.skip, h.rest]
    tokens := by rw [Scanner.pushMark, Array.toList_push, h.tokens]
    limit := (Nat.lt_succ_self _).trans h.limit }

/-- An opening bracket. -/
lemma step_flowStart (h : Inside s (depth + 1) tokens cs) (hcs : skipSpace cs = c :: r)
    (hc : c = '[' ∧ t = .flowSequence ∨ c = '\x7b' ∧ t = .flowMapping) : ∃ s', Step s s' ∧
      Inside s' (depth + 2) (tokens ++ [t]) r ∧ s'.keyAllowed = true := by
  have hmark : IsMark c := by
    rcases hc with ⟨rfl, -⟩ | ⟨rfl, -⟩ <;> exact ⟨rfl, by decide, by decide⟩
  obtain ⟨s₁, hready, h₁, -⟩ := h.ready hcs hmark
  obtain ⟨s₂, hsave, h₂, -⟩ := h₁.saveKey
  have h₃ := h₂.pushMark t
  -- the key that is open stays behind the bracket until the bracket closes
  refine ⟨{ s₂.pushMark t 1 with
    key? := none, outerKeys := s₂.key? :: s₂.outerKeys, keyAllowed := true }, ⟨?_, ?_⟩, ?_, rfl⟩
  · rw [step?, hready]
    rcases hc with ⟨rfl, rfl⟩ | ⟨rfl, rfl⟩ <;>
      simp [unroll_of_inFlow h₁.inFlow, h₁.rest, h₁.startsMark_of_ne, flowStart?, hsave]
  · rw [h.rest]
    exact h₃.rest ▸ length_lt_of_skipSpace hcs
  · exact { h₃ with
      depth := congrArg Nat.succ h₂.depth
      key := fun k hk => by cases hk
      outerKeys := List.forall_mem_cons.2 ⟨h₂.key, h₂.outerKeys⟩ }

/-- A closing bracket. -/
lemma step_flowEnd (h : Inside s (depth + 1) tokens cs) (hcs : skipSpace cs = c :: r)
    (hc : c = ']' ∧ t = .flowSequenceEnd ∨ c = '\x7d' ∧ t = .flowMappingEnd) :
    ∃ s', Step s s' ∧ Inside s' depth (tokens ++ [t]) r := by
  have hmark : IsMark c := by
    rcases hc with ⟨rfl, -⟩ | ⟨rfl, -⟩ <;> exact ⟨rfl, by decide, by decide⟩
  obtain ⟨s₁, hready, h₁, -⟩ := h.ready hcs hmark
  have h₂ := h₁.pushMark t
  -- there is a bracket to close, since the depth is that of the keys behind brackets
  cases hkeys : s₁.outerKeys with
  | nil =>
      have hdepth := h₁.depth
      rw [hkeys] at hdepth
      cases hdepth
  | cons k? ks =>
      have houter := h₁.outerKeys
      have hdepth := h₁.depth
      rw [hkeys] at houter hdepth
      refine ⟨{ s₁.pushMark t 1 with key? := k?, outerKeys := ks, keyAllowed := false },
        ⟨?_, ?_⟩, ?_⟩
      · rw [step?, hready]
        rcases hc with ⟨rfl, rfl⟩ | ⟨rfl, rfl⟩ <;>
          simp [unroll_of_inFlow h₁.inFlow, h₁.rest, h₁.startsMark_of_ne, flowEnd?,
            dropKey?_of_optional h₁.key, hkeys, Scanner.pushMark]
      · rw [h.rest]
        exact h₂.rest ▸ length_lt_of_skipSpace hcs
      · exact { h₂ with
          depth := Nat.succ.inj hdepth
          key := (List.forall_mem_cons.1 houter).1
          outerKeys := (List.forall_mem_cons.1 houter).2 }

/-- A comma. -/
lemma step_flowEntry (h : Inside s (depth + 1) tokens cs) (hcs : skipSpace cs = ',' :: r) :
    ∃ s', Step s s' ∧ Inside s' (depth + 1) (tokens ++ [.flowEntry]) r ∧ s'.keyAllowed = true := by
  obtain ⟨s₁, hready, h₁, -⟩ := h.ready hcs ⟨rfl, by decide, by decide⟩
  have h₂ := h₁.pushMark .flowEntry
  refine ⟨{ s₁.pushMark .flowEntry 1 with key? := none, keyAllowed := true }, ⟨?_, ?_⟩, ?_, rfl⟩
  · rw [step?, hready]
    simp [unroll_of_inFlow h₁.inFlow, h₁.rest, h₁.startsMark_of_ne, flowEntry?,
      dropKey?_of_optional h₁.key, Scanner.pushMark]
  · rw [h.rest]
    exact h₂.rest ▸ length_lt_of_skipSpace hcs
  · exact { h₂ with key := fun k hk => by cases hk }

lemma cursor_eq (h : Inside s depth tokens cs) : s.cursor = ⟨cs, s.cursor.place⟩ := by
  obtain rfl := h.rest
  rfl

/-- A scalar with a cursor behind it. -/
lemma push (h : Inside s depth tokens cs) (t : Token) (cursor : Cursor) (allowed : Bool)
    (hcursor : cursor.rest.length < s.limit) :
    Inside { s.push t with cursor, keyAllowed := allowed } depth (tokens ++ [t]) cursor.rest :=
  { h with
    rest := rfl
    tokens := by
      show (s.tokens.push t).toList = tokens ++ [t]
      rw [Array.toList_push, h.tokens]
    limit := hcursor }

/-- A text between quotes. It may be a key. -/
lemma step_string {inner text rest : List Char} (h : Inside s (depth + 1) tokens cs)
    (hcs : skipSpace cs = '"' :: inner) (hinner : SpellsText inner text rest) : ∃ s', Step s s' ∧
      Inside s' (depth + 1) (tokens ++ [.scalar .doubleQuoted (String.ofList text)]) rest ∧
      (s.keyAllowed = true → ∃ k, s'.key? = some k ∧ k.position = tokens.length ∧
        SameLine ⟨'"' :: inner, k.place⟩ s'.cursor) := by
  obtain ⟨s₁, hready, h₁, hallowed, -⟩ := h.ready hcs ⟨rfl, by decide, by decide⟩
  obtain ⟨s₂, hsave, h₂, hcursor, hlimit, hkey⟩ := h₁.saveKey
  have hlength := h₂.limit
  rw [List.length_cons] at hlength
  obtain ⟨p, hquoted, hline⟩ := quotedFrom_of_spells hinner
    (column_next_ne_zero s₂.cursor.place '"') (Nat.lt_of_succ_lt hlength)
  have htake : Yaml.quotedScalar? false s₂.limit s₂.cursor =
      some { content := text, cursor := ⟨rest, p⟩ } := by
    rw [h₂.cursor_eq]
    exact hquoted
  have hrest := hinner.length_lt
  refine ⟨_, ⟨?_, ?_⟩, h₂.push (.scalar .doubleQuoted (String.ofList text)) ⟨rest, p⟩
    false (by dsimp only; omega), fun h => ?_⟩
  · rw [step?, hready]
    simp [unroll_of_inFlow h₁.inFlow, h₁.rest, h₁.startsMark_of_ne, Scanner.quotedScalar?, hsave,
      htake]
  · have hshorter := length_lt_of_skipSpace hcs
    rw [h.rest]
    dsimp only
    omega
  -- the key starts at the quote, on the line where the text ends
  · refine ⟨_, hkey (hallowed.trans h), rfl, ?_⟩
    have hquote := SameLine.next '"' inner s₂.cursor.place
    rw [← hcursor]
    exact hquote.trans hline

/-- The key token goes in right before the last token. -/
lemma toList_insertIdxIfInBounds {α : Type} {xs : Array α} {front : List α} {last : α}
    (h : xs.toList = front ++ [last]) (x : α) :
    (xs.insertIdxIfInBounds front.length x).toList = front ++ [x, last] := by
  have hinsert : (front ++ [last]).insertIdx front.length x = front ++ [x, last] := by
    clear h
    induction front with
    | nil => rfl
    | cons y front ih => simpa using ih
  have hsize : front.length ≤ xs.size := by
    rw [← Array.length_toList, h, List.length_append]
    exact Nat.le_add_right _ _
  rw [Array.insertIdxIfInBounds, dif_pos hsize, Array.toList_insertIdx, h, hinsert]

/-- A colon on the line of the possible key before it. -/
lemma step_value {k : PossibleKey} {start colon : List Char}
    (h : Inside s (depth + 1) (tokens ++ [t]) cs) (hcs : cs.dropWhile isBlank = ':' :: colon)
    (hkey : s.key? = some k) (hposition : k.position = tokens.length)
    (hline : SameLine ⟨start, k.place⟩ s.cursor)
    (hlength : byteLength start ≤ byteLength (':' :: colon) + maxKeyLength) : ∃ s', Step s s' ∧
      Inside s' (depth + 1) (tokens ++ [.key, t, .value]) colon := by
  have hskip : skipSpace cs = ':' :: colon := by
    rw [← dropWhile_isBlank_skipSpace, hcs, skipSpace_cons colon (by rfl)]
  obtain ⟨s₁, hready, h₁, -, hfresh, hsame⟩ := h.ready hskip ⟨rfl, by decide, by decide⟩
  have hline₁ := hline.trans (hsame hcs)
  -- the colon is on the line of the key and near enough, so the key still counts as one
  have hstale : PossibleKey.isStale k s₁.cursor.place = false := by
    have hindex := hline₁.index
    rw [h₁.rest] at hindex
    dsimp only at hindex
    have hnear : ¬k.place.index + maxKeyLength < s₁.cursor.place.index := by omega
    simp [PossibleKey.isStale, hline₁.line, hnear]
  have hkey₁ : s₁.key? = some k := by
    rw [hfresh, hkey]
    simp [fresh, Option.filter, hstale]
  have h₂ := h₁.pushMark .value
  refine ⟨{ s₁.pushMark .value 1 with
    tokens := (s₁.tokens.insertIdxIfInBounds k.position .key).push .value
    key? := none, keyAllowed := false }, ⟨?_, ?_⟩, ?_⟩
  · have hflow : s₁.outerKeys ≠ [] := by simpa [Scanner.inFlow] using h₁.inFlow
    rw [step?, hready]
    simp [unroll_of_inFlow h₁.inFlow, h₁.rest, h₁.startsMark_of_ne, value?, hkey₁, roll,
      Scanner.inFlow, hflow, Scanner.pushMark]
  · rw [h.rest]
    exact h₂.rest ▸ length_lt_of_skipSpace hskip
  -- the mark of a key is inserted before a token that has long been pushed
  · exact { h₂ with
      tokens := by
        rw [hposition, Array.toList_push, toList_insertIdxIfInBounds h₁.tokens]
        simp
      key := fun k hk => by cases hk }

/-- A word begins a plain scalar. -/
lemma step?_of_beginsWord {s₁ : Scanner} {d : Char}
    (hready : (s.toToken s.limit).forgetStale? = some s₁)
    (h : Inside s₁ (depth + 1) tokens (d :: r)) (hbegins : BeginsWord (d :: r)) :
    s.step? = s₁.plainScalar?.bind fun next => some (false, next) := by
  have hminus : s₁.cursor.startsMark '-' = false :=
    h.startsMark_eq_false (ne_minus_of_beginsWord hbegins)
  have hdot : s₁.cursor.startsMark '.' = false :=
    h.startsMark_eq_false fun r' => ne_cons_of_beginsWord hbegins (by rfl) (by decide) ('.' :: r')
  rw [step?, hready]
  -- no indicator is a letter or a digit, so every branch before the plain scalar is passed over
  cases hbegins with
  | alphanumeric hd =>
      have hne (e : Char) (he : e.isAlphanum = false) : d ≠ e := by
        rintro rfl
        exact absurd (he.symm.trans hd) (by decide)
      obtain ⟨hblank, hbreak, -⟩ := isPlain_of_isWordChar (.inl hd)
      have hplain : startsPlain d = true := by
        simp [startsPlain, hblank, hbreak, hne '-' rfl, hne '?' rfl, hne ':' rfl, hne ',' rfl,
          hne '[' rfl, hne ']' rfl, hne '\x7b' rfl, hne '\x7d' rfl, hne '#' rfl, hne '&' rfl,
          hne '*' rfl, hne '!' rfl, hne '|' rfl, hne '>' rfl, hne '\'' rfl, hne '"' rfl,
          hne '%' rfl, hne '@' rfl, hne '\x60' rfl]
      simp [unroll_of_inFlow h.inFlow, h.rest, hminus, hdot, hplain, hne '-' rfl, hne '?' rfl,
        hne ':' rfl, hne ',' rfl, hne '[' rfl, hne ']' rfl, hne '\x7b' rfl, hne '\x7d' rfl,
        hne '&' rfl, hne '*' rfl, hne '!' rfl, hne '|' rfl, hne '>' rfl, hne '\'' rfl,
        hne '"' rfl, hne '%' rfl]
  | @sign d r hd =>
      have hd' : IsWordChar d := .inl (by simp [Char.isAlphanum, hd])
      obtain ⟨hblank, hbreak, -⟩ := isPlain_of_isWordChar hd'
      simp [unroll_of_inFlow h.inFlow, h.rest, hminus, hdot, endsWord, hblank, hbreak]

/-- A word, with the blanks behind it. -/
lemma step_word {word after : List Char} (h : Inside s (depth + 1) tokens cs)
    (hcs : skipSpace cs = word ++ after) (hbegins : BeginsWord (word ++ after)) (hne : word ≠ [])
    (hword : ∀ c ∈ word, IsWordChar c) (hafter : skipSpace after = c :: r)
    (hc : isFlowMark c = true) : ∃ s' rest, Step s s' ∧
      Inside s' (depth + 1) (tokens ++ [.scalar .plain (String.ofList word)]) rest ∧
      skipSpace rest = c :: r := by
  obtain ⟨d, r', hbegin⟩ : ∃ d r', word ++ after = d :: r' := by
    generalize word ++ after = text at hbegins
    cases hbegins with
    | alphanumeric _ | sign _ => exact ⟨_, _, rfl⟩
  have hmark : IsMark d := by
    obtain ⟨e, word, rfl⟩ := List.exists_cons_of_ne_nil hne
    obtain ⟨rfl, -⟩ := List.cons.inj hbegin
    refine ⟨(isPlain_of_isWordChar (hword e List.mem_cons_self)).2.1, ?_, ?_⟩
    · rintro rfl
      exact ne_cons_of_beginsWord hbegins (by rfl) (by decide) _ hbegin
    · rintro rfl
      exact ne_cons_of_beginsWord hbegins (by rfl) (by decide) _ hbegin
  rw [hbegin] at hcs
  obtain ⟨s₁, hready, h₁, -⟩ := h.ready hcs hmark
  obtain ⟨s₂, hsave, h₂, -⟩ := h₁.saveKey
  rw [← hbegin] at h₂
  have hlength : 0 < word.length := List.length_pos_iff.2 hne
  have hafterLength := length_lt_of_skipSpace hafter
  have hlimit := h₂.limit
  rw [List.length_append] at hlimit
  obtain ⟨taken, htake, rfl, htaken, hshorter⟩ := plainScalar_of_word hbegins hne hword hafter hc
    (show 2 ≤ s₂.limit by omega) s₂.cursor.place
  rw [← h₂.cursor_eq] at htake
  -- inside a flow there is no indentation to keep to
  have hmargin : (s₂.indent + 1).toNat = 0 := by
    rw [h₂.indent]
    rfl
  have hrest := length_skipSpace_le cs
  rw [hcs, ← hbegin, List.length_append] at hrest
  refine ⟨_, taken.cursor.rest, ⟨?_, ?_⟩,
    h₂.push (.scalar .plain (String.ofList taken.content)) taken.cursor taken.broken (by omega),
    htaken⟩
  · rw [step?_of_beginsWord hready h₁ (hbegin ▸ hbegins), Scanner.plainScalar?, hsave]
    simp [h₂.inFlow, hmargin, htake]
  · rw [h.rest]
    dsimp only
    omega

end Inside

end Scanner

end BrokerPolicy.Yaml
