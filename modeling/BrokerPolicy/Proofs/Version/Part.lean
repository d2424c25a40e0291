import BrokerPolicy.Proofs.Version.Numeral

/-!
The order of releases and revisions, read off their stretches.

* **One round.** `passText` decides exactly as the ranks of the two texts do, each closed by a
  zero (`passText_eq_afterTexts`), because no byte of text has the weight zero
  (`weight_ne_zero`). So a round of `comparePart` compares the first stretches and goes on behind
  them: `comparePart_eq_then`.
* **All rounds.** `stretches n xs` are the first `n` stretches of a part. Any number of them that
  is not below the lengths of two parts decides their order, as lists:
  `comparePart_eq_compare_stretches`.
  The number can be the same for any finite number of parts, which is what transitivity needs.
* **The first difference.** Parts are equal in order when all their stretches are the same
  (`comparePart_eq_eq_iff`), and otherwise the first stretch that differs decides
  (`comparePart_eq_lt_iff`).
-/

namespace BrokerPolicy.Version

/-! ### The text at the start of a part -/

lemma isText_eq_true_iff {b : UInt8} : isText b = true ↔ isDigit b = false := by
  simp [isText, isNumeral_eq_isDigit]

/-- A digit ranks as the end of the text. -/
lemma weight_of_isDigit {b : UInt8} (h : isDigit b = true) : weight (some b) = 0 := by
  have htilde : b ≠ 0x7E := by rintro rfl; exact absurd h (by decide)
  simp [weight, h, htilde]

/-- No byte of text ranks as the end of the text. -/
lemma weight_ne_zero {b : UInt8} (h : isDigit b = false) : weight (some b) ≠ 0 := by
  simp only [weight, h, Bool.false_eq_true, if_false]
  split
  · decide
  · split
    · next hletter =>
      intro hzero
      have hb : b = 0 := UInt8.toNat_inj.1 (Int.ofNat.inj hzero)
      rw [hb] at hletter
      exact absurd hletter (by decide)
    · omega

lemma exists_cons_of_startsText {xs : List UInt8} (h : startsText xs = true) :
    ∃ b rest, xs = b :: rest := by
  cases xs with
  | nil => exact absurd h (by decide)
  | cons b rest => exact ⟨b, rest, rfl⟩

/-- Where text begins, the first byte has a rank of its own. -/
lemma weight_head_ne_zero {xs : List UInt8} (h : startsText xs = true) : weight xs.head? ≠ 0 := by
  obtain ⟨b, rest, rfl⟩ := exists_cons_of_startsText h
  exact weight_ne_zero (by simpa [startsText] using h)

/-- The text of a stretch, with the mark behind it. -/
def markedText (xs : List UInt8) : List Int :=
  (firstStretch xs).text ++ [0]

/-- A byte of text stands in front of the text behind it. -/
lemma markedText_of_isText {b : UInt8} {xs : List UInt8} (h : isDigit b = false) :
    markedText (b :: xs) = weight (some b) :: markedText xs := by
  have hb : isText b = true := isText_eq_true_iff.2 h
  rw [weight_eq_rank hb]
  simp [markedText, firstStretch, hb]

/-- Where no text begins there is only the mark. -/
lemma markedText_of_not_startsText {xs : List UInt8} (h : startsText xs = false) :
    markedText xs = [0] := by
  cases xs with
  | nil => rfl
  | cons b xs =>
      have hb : isText b = false := by
        simpa [startsText, isText, isNumeral_eq_isDigit] using h
      simp [markedText, firstStretch, hb]

/-- The marked text begins with the rank of the first byte. -/
lemma markedText_eq_cons (xs : List UInt8) : ∃ rest, markedText xs = weight xs.head? :: rest := by
  cases hs : startsText xs with
  | false =>
      refine ⟨[], ?_⟩
      rw [markedText_of_not_startsText hs]
      cases xs with
      | nil => rfl
      | cons b xs =>
          have hb : isDigit b = true := by simpa [startsText] using hs
          rw [List.head?_cons, weight_of_isDigit hb]
  | true =>
      obtain ⟨b, rest, rfl⟩ := exists_cons_of_startsText hs
      have hb : isDigit b = false := by simpa [startsText] using hs
      exact ⟨markedText rest, by rw [markedText_of_isText hb, List.head?_cons]⟩

/-- First bytes of different rank decide the order of the texts. -/
lemma compare_markedText_of_ne {xs ys : List UInt8} (h : weight xs.head? ≠ weight ys.head?) :
    compare (markedText xs) (markedText ys) = compare (weight xs.head?) (weight ys.head?) := by
  obtain ⟨us, hus⟩ := markedText_eq_cons xs
  obtain ⟨vs, hvs⟩ := markedText_eq_cons ys
  have hne : compare (weight xs.head?) (weight ys.head?) ≠ .eq := fun heq =>
    h (Std.LawfulEqOrd.eq_of_compare heq)
  rw [hus, hvs, List.compare_cons_cons]
  cases hc : compare (weight xs.head?) (weight ys.head?) with
  | lt => rfl
  | gt => rfl
  | eq => exact absurd hc hne

lemma dropWhile_isText_of_not_startsText {xs : List UInt8} (h : startsText xs = false) :
    xs.dropWhile isText = xs := by
  cases xs with
  | nil => rfl
  | cons b xs =>
      exact List.dropWhile_cons_of_neg
        (by simpa [startsText, isText, isNumeral_eq_isDigit] using h)

/-- Bytes of the same rank are both digits or both text. -/
lemma isDigit_eq_false_of_weight_eq {x y : UInt8} (hd : ¬(isDigit x && isDigit y) = true)
    (hw : weight (some x) = weight (some y)) : isDigit x = false ∧ isDigit y = false := by
  by_cases hx : isDigit x = true
  · have hy : isDigit y = false := by simpa [hx] using hd
    exact absurd (hw ▸ weight_of_isDigit hx) (weight_ne_zero hy)
  · have hx : isDigit x = false := by simpa using hx
    refine ⟨hx, Bool.eq_false_iff.2 fun hy => ?_⟩
    exact absurd (hw ▸ weight_of_isDigit hy) (weight_ne_zero hx)

/-- Text has another rank than the end of a part. -/
lemma weight_head_ne_of_startsText {xs ys : List UInt8}
    (hnil : ∀ x xs' y ys', xs = x :: xs' → ys = y :: ys' → False)
    (hs : (startsText xs || startsText ys) = true) : weight xs.head? ≠ weight ys.head? := by
  intro hw
  rcases Bool.or_eq_true_iff.1 hs with hx | hy
  · cases ys with
    | nil => exact weight_head_ne_zero hx hw
    | cons y ys =>
        obtain ⟨x, xs', rfl⟩ := exists_cons_of_startsText hx
        exact hnil x xs' y ys rfl rfl
  · cases xs with
    | nil => exact weight_head_ne_zero hy hw.symm
    | cons x xs =>
        obtain ⟨y, ys', rfl⟩ := exists_cons_of_startsText hy
        exact hnil x xs y ys' rfl rfl

lemma afterStretch_eq (xs : List UInt8) :
    afterStretch xs = (xs.dropWhile isText).dropWhile isDigit := by
  rw [afterStretch, isNumeral_eq_isDigit]

/-- What is left of two parts if their texts are the same, otherwise the order of the texts. -/
def afterTexts (xs ys : List UInt8) : Except Ordering (List UInt8 × List UInt8) :=
  match compare (markedText xs) (markedText ys) with
  | .eq => .ok (xs.dropWhile isText, ys.dropWhile isText)
  | order => .error order

/-- First bytes of different rank decide. -/
lemma afterTexts_of_ne {xs ys : List UInt8} (h : weight xs.head? ≠ weight ys.head?) :
    afterTexts xs ys = .error (compare (weight xs.head?) (weight ys.head?)) := by
  rw [afterTexts, compare_markedText_of_ne h]
  cases hc : compare (weight xs.head?) (weight ys.head?) with
  | lt => rfl
  | gt => rfl
  | eq => exact absurd (Std.LawfulEqOrd.eq_of_compare hc) h

/-- Where no text begins on either side, nothing is passed over. -/
lemma afterTexts_of_not_startsText {xs ys : List UInt8} (hx : startsText xs = false)
    (hy : startsText ys = false) : afterTexts xs ys = .ok (xs, ys) := by
  rw [afterTexts, markedText_of_not_startsText hx, markedText_of_not_startsText hy,
    dropWhile_isText_of_not_startsText hx, dropWhile_isText_of_not_startsText hy]
  rfl

/-- Text of the same rank is passed over on both sides. -/
lemma afterTexts_cons {x y : UInt8} {xs ys : List UInt8} (hx : isDigit x = false)
    (hy : isDigit y = false) (hw : weight (some x) = weight (some y)) :
    afterTexts (x :: xs) (y :: ys) = afterTexts xs ys := by
  rw [afterTexts, markedText_of_isText hx, markedText_of_isText hy, List.compare_cons_cons, hw,
    Std.ReflOrd.compare_self, Ordering.eq_then,
    List.dropWhile_cons_of_pos (isText_eq_true_iff.2 hx),
    List.dropWhile_cons_of_pos (isText_eq_true_iff.2 hy), afterTexts]

/-- Texts are passed over exactly when they are the same, and then both to their end; otherwise
they decide. -/
lemma passText_eq_afterTexts (xs ys : List UInt8) : passText xs ys = afterTexts xs ys := by
  -- the pass goes byte by byte; a whole stretch of text is compared at its first difference
  fun_induction passText xs ys with
  | case1 x xs y ys hd =>
      obtain ⟨hx, hy⟩ := Bool.and_eq_true_iff.1 hd
      have hsx : startsText (x :: xs) = false := by simp [startsText, hx]
      have hsy : startsText (y :: ys) = false := by simp [startsText, hy]
      exact (afterTexts_of_not_startsText hsx hsy).symm
  | case2 x xs y ys hd hw ih =>
      obtain ⟨hx, hy⟩ := isDigit_eq_false_of_weight_eq hd hw
      rw [ih, afterTexts_cons hx hy hw]
  | case3 x xs y ys hd hw =>
      have hne : weight (x :: xs).head? ≠ weight (y :: ys).head? := hw
      exact (afterTexts_of_ne hne).symm
  | case4 xs ys hnil hs => exact (afterTexts_of_ne (weight_head_ne_of_startsText hnil hs)).symm
  | case5 xs ys hnil hs =>
      obtain ⟨hx, hy⟩ : startsText xs = false ∧ startsText ys = false := by simpa using hs
      exact (afterTexts_of_not_startsText hx hy).symm

/-! ### One stretch after the other -/

/-- The order of parts is that of their first stretches and then that of what follows. -/
lemma comparePart_eq_then (xs ys : List UInt8) :
    comparePart xs ys =
      ((firstStretch xs).compare (firstStretch ys)).then
        (comparePart (afterStretch xs) (afterStretch ys)) := by
  by_cases hne : (xs.isEmpty && ys.isEmpty) = true
  · obtain ⟨rfl, rfl⟩ : xs = [] ∧ ys = [] := by simpa using hne
    rfl
  · have hlen : xs.length + ys.length ≠ 0 := by
      intro hzero
      obtain ⟨hx, hy⟩ := Nat.add_eq_zero_iff.1 hzero
      simp [List.length_eq_zero_iff.1 hx, List.length_eq_zero_iff.1 hy] at hne
    obtain ⟨rounds, hrounds⟩ := Nat.exists_eq_succ_of_ne_zero hlen
    have hpass := passText_eq_afterTexts xs ys
    rw [afterTexts] at hpass
    rw [comparePart, hrounds, compareRounds, if_neg hne, hpass, Stretch.compare]
    change _ = ((compare (markedText xs) (markedText ys)).then _).then _
    -- only texts that agree leave numerals to compare, and only numerals that agree leave a rest
    cases htext : compare (markedText xs) (markedText ys) with
    | lt => rfl
    | gt => rfl
    | eq =>
        rw [htext] at hpass
        have hlt := length_afterRound_lt hne hpass
        have hrest : compareRounds rounds (afterStretch xs) (afterStretch ys) =
            comparePart (afterStretch xs) (afterStretch ys) :=
          compareRounds_eq_comparePart (by rw [afterStretch_eq, afterStretch_eq]; omega)
        simp only [compareNumber_leadingNumber, Ordering.eq_then, ← afterStretch_eq]
        change (match compare (firstStretch xs).number (firstStretch ys).number with
          | .eq => compareRounds rounds (afterStretch xs) (afterStretch ys)
          | order => order) = _
        rw [hrest]
        cases compare (firstStretch xs).number (firstStretch ys).number <;> rfl

/-- The first stretches of a part. -/
def stretches : ℕ → List UInt8 → List Stretch
  | 0, _ => []
  | n + 1, xs => firstStretch xs :: stretches n (afterStretch xs)

/-- With every stretch there is a byte less to go, until there are none. -/
lemma length_afterStretch_le {n : ℕ} {xs : List UInt8} (h : xs.length ≤ n + 1) :
    (afterStretch xs).length ≤ n := by
  by_cases hnil : xs = []
  · subst hnil
    exact Nat.zero_le n
  · have := length_afterStretch_lt hnil
    omega

instance : Ord Stretch where
  compare := Stretch.compare

/-- As many stretches as there are bytes decide the order of two parts, and so do more. -/
lemma comparePart_eq_compare_stretches {n : ℕ} {xs ys : List UInt8} (hx : xs.length ≤ n)
    (hy : ys.length ≤ n) : comparePart xs ys = compare (stretches n xs) (stretches n ys) := by
  induction n generalizing xs ys with
  | zero =>
      obtain rfl : xs = [] := List.length_eq_zero_iff.1 (Nat.le_zero.1 hx)
      obtain rfl : ys = [] := List.length_eq_zero_iff.1 (Nat.le_zero.1 hy)
      rfl
  | succ n ih =>
      rw [stretches, stretches, List.compare_cons_cons, comparePart_eq_then,
        ih (length_afterStretch_le hx) (length_afterStretch_le hy)]
      rfl

/-! ### Stretches in order -/

instance : Std.TransOrd Stretch :=
  inferInstanceAs (Std.TransCmp (compareLex
    (compareOn fun s : Stretch => s.text ++ [0]) (compareOn Stretch.number)))

/-- Stretches are equal in order only if they are the same. -/
instance : Std.LawfulEqOrd Stretch where
  eq_of_compare {x y} h := by
    change Stretch.compare x y = .eq at h
    rw [Stretch.compare, Ordering.then_eq_eq] at h
    obtain ⟨htext, hnumber⟩ := h
    have htext : x.text = y.text :=
      List.append_cancel_right (Std.LawfulEqOrd.eq_of_compare htext)
    have hnumber : x.number = y.number := Std.LawfulEqOrd.eq_of_compare hnumber
    cases x
    cases y
    simp_all

/-- Only the same stretches are equal in order. -/
lemma Stretch.compare_eq_eq_iff {x y : Stretch} : x.compare y = .eq ↔ x = y :=
  Std.LawfulEqOrd.compare_eq_iff_eq (α := Stretch)

/-- Induction along the stretches of two parts, to the end of both. -/
@[elab_as_elim]
theorem stretch_induction {P : List UInt8 → List UInt8 → Prop} (ends : P [] [])
    (step : ∀ xs ys, P (afterStretch xs) (afterStretch ys) → P xs ys) (xs ys : List UInt8) :
    P xs ys := by
  have bounded : ∀ n (us vs : List UInt8), us.length ≤ n → vs.length ≤ n → P us vs := by
    intro n
    induction n with
    | zero =>
        intro us vs hu hv
        obtain rfl : us = [] := List.length_eq_zero_iff.1 (Nat.le_zero.1 hu)
        obtain rfl : vs = [] := List.length_eq_zero_iff.1 (Nat.le_zero.1 hv)
        exact ends
    | succ n ih =>
        intro us vs hu hv
        exact step us vs (ih _ _ (length_afterStretch_le hu) (length_afterStretch_le hv))
  exact bounded _ xs ys (le_max_left _ _) (le_max_right _ _)

/-- Parts are equal in order when all their stretches are the same. -/
lemma comparePart_eq_eq_iff {xs ys : List UInt8} :
    comparePart xs ys = .eq ↔ ∀ n, stretchAt xs n = stretchAt ys n := by
  constructor
  · intro h n
    -- on the number of the stretch, the parts being what is left after the ones before it
    induction n generalizing xs ys with
    | zero =>
        rw [comparePart_eq_then, Ordering.then_eq_eq] at h
        exact Stretch.compare_eq_eq_iff.1 h.1
    | succ n ih =>
        rw [comparePart_eq_then, Ordering.then_eq_eq] at h
        exact ih h.2
  · intro h
    induction xs, ys using stretch_induction with
    | ends => rfl
    | step xs ys ih =>
        have hfirst : firstStretch xs = firstStretch ys := h 0
        rw [comparePart_eq_then, Ordering.then_eq_eq, Stretch.compare_eq_eq_iff]
        exact ⟨hfirst, ih fun n => h (n + 1)⟩

/-- One part comes before another by its first stretch or, if that is the same, by what follows. -/
lemma partLt_iff {xs ys : List UInt8} :
    PartLt xs ys ↔ (firstStretch xs).compare (firstStretch ys) = .lt ∨
      firstStretch xs = firstStretch ys ∧ PartLt (afterStretch xs) (afterStretch ys) := by
  constructor
  · rintro ⟨n, hsame, hn⟩
    -- the first difference is either in the first stretch or one place earlier in the rest
    cases n with
    | zero => exact Or.inl hn
    | succ n =>
        refine Or.inr ⟨hsame 0 n.succ_pos, n, fun m hm => ?_, hn⟩
        exact hsame (m + 1) (Nat.succ_lt_succ hm)
  · rintro (hfirst | ⟨hfirst, n, hsame, hn⟩)
    · exact ⟨0, fun m hm => absurd hm (Nat.not_lt_zero m), hfirst⟩
    · refine ⟨n + 1, fun m hm => ?_, hn⟩
      cases m with
      | zero => exact hfirst
      | succ m => exact hsame m (Nat.lt_of_succ_lt_succ hm)

/-- Behind both ends all stretches are the same. -/
lemma not_partLt_nil : ¬ PartLt [] [] := by
  rintro ⟨n, -, hn⟩
  rw [stretchAt_nil] at hn
  exact absurd hn (by decide)

/-- The first stretch in which two parts differ decides their order. -/
lemma comparePart_eq_lt_iff {xs ys : List UInt8} : comparePart xs ys = .lt ↔ PartLt xs ys := by
  induction xs, ys using stretch_induction with
  | ends => exact iff_of_false (by decide) not_partLt_nil
  | step xs ys ih =>
      rw [comparePart_eq_then, Ordering.then_eq_lt, Stretch.compare_eq_eq_iff, ih]
      exact partLt_iff.symm

end BrokerPolicy.Version
