import Mathlib.Logic.Relation
import BrokerPolicy.Proofs.Version.Part
import BrokerPolicy.Version.Walk

/-!
A walk along two parts stays within them, gets on with every round and ends with their order.

* **Rounds.** `afterRound` is what a round leaves of two parts, a byte less at least
  (`length_lt_of_afterRound`), and `comparePart` goes on with it (`comparePart_eq_afterRound`).
* **Bounds.** Both places of a walk move on in text, but only between bytes of the same rank, and no
  byte of text has the rank of the end. So neither place is ever beyond the end of its part:
  `Within.next` for one step, `Within.leads` for any number.
* **Phases.** Each phase of a walk passes over what the functions on lists pass over (`goes_text`,
  `goes_leftZeros`, `goes_rightZeros`, `goes_digits`), so a round of the walk is `afterRound`:
  `goes_round`.
* **The end.** By induction on the bytes that are left, a walk ends with the order of the parts, and
  no more rounds begin than there are bytes: `exists_end`. Since there is one way to go on only, the
  same end lies before every state of the walk: `leads_end`.
-/

namespace BrokerPolicy.Version

variable {a b xs ys : List UInt8}

/-! ### Rounds of the comparison -/

/-- What is left of two parts behind the numbers at their start, or the order of the numbers if
`order`, that of the digits before them, does not decide. -/
def afterDigits (order : Ordering) (xs ys : List UInt8) :
    Except Ordering (List UInt8 × List UInt8) :=
  let ds := xs.takeWhile isDigit
  let es := ys.takeWhile isDigit
  match (compare ds.length es.length).then
      (order.then (compare (ds.map UInt8.toNat) (es.map UInt8.toNat))) with
  | .eq => .ok (xs.dropWhile isDigit, ys.dropWhile isDigit)
  | found => .error found

/-- What a round leaves of two parts, or the order that it finds. -/
def afterRound (xs ys : List UInt8) : Except Ordering (List UInt8 × List UInt8) :=
  match passText xs ys with
  | .error order => .error order
  | .ok (xs, ys) => afterDigits .eq (xs.dropWhile (· == 0x30)) (ys.dropWhile (· == 0x30))

/-- Leading zeros are digits. -/
lemma takeWhile_dropWhile_zero (xs : List UInt8) :
    (xs.dropWhile (· == 0x30)).takeWhile isDigit = leadingNumber xs ∧
      (xs.dropWhile (· == 0x30)).dropWhile isDigit = xs.dropWhile isDigit := by
  -- along the zeros in front; zeros are digits, so the second pass ends at the same place
  induction xs with
  | nil => exact ⟨rfl, rfl⟩
  | cons x xs ih =>
      by_cases hx : x = 0x30
      · subst hx
        rw [leadingNumber, List.dropWhile_cons_of_pos (by rfl),
          List.takeWhile_cons_of_pos (p := isDigit) rfl, List.dropWhile_cons_of_pos (by rfl),
          List.dropWhile_cons_of_pos (p := isDigit) rfl]
        exact ih
      · have hzero : (x == 0x30) = false := by simpa using hx
        rw [List.dropWhile_cons_of_neg (by simpa using hx), leadingNumber]
        refine ⟨?_, rfl⟩
        cases hd : isDigit x <;> simp [hd, hzero]

/-- Past the zeros, the walk along the digits decides as the comparison of numbers does. -/
lemma afterDigits_dropWhile_zero (xs ys : List UInt8) :
    afterDigits .eq (xs.dropWhile (· == 0x30)) (ys.dropWhile (· == 0x30)) =
      match compareNumber (leadingNumber xs) (leadingNumber ys) with
      | .eq => .ok (xs.dropWhile isDigit, ys.dropWhile isDigit)
      | order => .error order := by
  obtain ⟨hx, hx'⟩ := takeWhile_dropWhile_zero xs
  obtain ⟨hy, hy'⟩ := takeWhile_dropWhile_zero ys
  simp only [afterDigits, hx, hx', hy, hy', Ordering.eq_then, compareNumber]

/-- The order of two parts is the one found in the first round or that of what it leaves. -/
lemma comparePart_eq_afterRound (xs ys : List UInt8) :
    comparePart xs ys =
      match afterRound xs ys with
      | .error order => order
      | .ok (xs, ys) => comparePart xs ys := by
  by_cases hne : (xs.isEmpty && ys.isEmpty) = true
  · obtain ⟨rfl, rfl⟩ : xs = [] ∧ ys = [] := by simpa using hne
    rfl
  · have hrounds : compareRounds (xs.length + ys.length + 1) xs ys = comparePart xs ys :=
      compareRounds_eq_comparePart (Nat.le_succ _)
    rw [← hrounds, compareRounds, if_neg hne, afterRound]
    cases hpass : passText xs ys with
    | error order => rfl
    | ok rest =>
        obtain ⟨xs', ys'⟩ := rest
        -- a round consumes something, so what is left still fits the rounds that remain
        have hlt := length_afterRound_lt hne hpass
        simp only [afterDigits_dropWhile_zero]
        cases compareNumber (leadingNumber xs') (leadingNumber ys') with
        | eq => exact compareRounds_eq_comparePart (by omega)
        | lt => rfl
        | gt => rfl

/-- A round takes a byte at least. -/
lemma length_lt_of_afterRound {xs' ys' : List UInt8} (hne : xs ≠ [] ∨ ys ≠ [])
    (h : afterRound xs ys = .ok (xs', ys')) :
    xs'.length + ys'.length < xs.length + ys.length := by
  have hmore : ¬(xs.isEmpty && ys.isEmpty) = true := by
    intro hend
    obtain ⟨rfl, rfl⟩ : xs = [] ∧ ys = [] := by simpa using hend
    simp at hne
  rw [afterRound] at h
  cases hpass : passText xs ys with
  | error order => rw [hpass] at h; cases h
  | ok rest =>
      obtain ⟨us, vs⟩ := rest
      have hlt := length_afterRound_lt hmore hpass
      simp only [hpass, afterDigits_dropWhile_zero] at h
      split at h
      · cases h
        exact hlt
      · cases h

namespace Walk

variable {i j n : ℕ} {v w : Walk} {order : Ordering}

/-! ### Bounds -/

/-- A walk looks at the byte in its place. -/
lemma startsText_drop (xs : List UInt8) (i : ℕ) : startsText (xs.drop i) = textAt xs i := by
  rw [startsText, List.head?_drop, textAt]

/-- The end of a part has the rank zero. -/
lemma lt_length_of_weight_ne_zero (h : weight xs[i]? ≠ 0) : i < xs.length := by
  by_contra hge
  exact h (by rw [List.getElem?_eq_none (Nat.not_lt.1 hge)]; rfl)

/-- Where there is text in one part and a byte of the same rank in the other, neither is at its
end. -/
lemma lt_length_of_textAt (ht : (textAt a i || textAt b j) = true)
    (hw : weight a[i]? = weight b[j]?) : i < a.length ∧ j < b.length := by
  have hne : weight a[i]? ≠ 0 ∨ weight b[j]? ≠ 0 := by
    rw [← startsText_drop, ← startsText_drop, Bool.or_eq_true] at ht
    rw [← List.head?_drop, ← List.head?_drop]
    exact ht.imp weight_head_ne_zero weight_head_ne_zero
  rw [hw, or_self] at hne
  exact ⟨lt_length_of_weight_ne_zero (hw ▸ hne), lt_length_of_weight_ne_zero hne⟩

lemma lt_length_of_digitAt (h : digitAt xs i = true) : i < xs.length := by
  by_contra hge
  rw [digitAt, List.getElem?_eq_none (Nat.not_lt.1 hge)] at h
  exact absurd h (by decide)

lemma lt_length_of_getElem? {x : UInt8} (h : xs[i]? = some x) : i < xs.length :=
  (List.getElem?_eq_some_iff.1 h).1

/-- Neither place is beyond the end of its part. -/
structure Within (a b : List UInt8) (w : Walk) : Prop where
  left_le : w.left ≤ a.length
  right_le : w.right ≤ b.length

/-- **One step keeps to the parts**: from places within them, the next places are. -/
lemma Within.next (h : w.Within a b) (hnext : w.next a b = .ok v) : v.Within a b := by
  obtain ⟨hi, hj⟩ := h
  obtain ⟨phase, i, j, n⟩ := w
  cases phase with
  | round =>
      simp only [Walk.next] at hnext
      split at hnext
      · cases hnext
        exact ⟨hi, hj⟩
      · cases hnext
  | text =>
      simp only [Walk.next] at hnext
      split at hnext
      · next ht =>
        split at hnext
        · next hw =>
          -- both places move on, though only one of them may be known to be at text
          obtain ⟨hlt, hlt'⟩ := lt_length_of_textAt ht hw
          cases hnext
          exact ⟨hlt, hlt'⟩
        · cases hnext
      · cases hnext
        exact ⟨hi, hj⟩
  | leftZeros =>
      simp only [Walk.next] at hnext
      split at hnext
      · next hzero =>
        cases hnext
        exact ⟨lt_length_of_getElem? hzero, hj⟩
      · cases hnext
        exact ⟨hi, hj⟩
  | rightZeros =>
      simp only [Walk.next] at hnext
      split at hnext
      · next hzero =>
        cases hnext
        exact ⟨hi, lt_length_of_getElem? hzero⟩
      · cases hnext
        exact ⟨hi, hj⟩
  | digits order =>
      simp only [Walk.next] at hnext
      split at hnext
      · next hdigits =>
        obtain ⟨hleft, hright⟩ := Bool.and_eq_true_iff.1 hdigits
        cases hnext
        exact ⟨lt_length_of_digitAt hleft, lt_length_of_digitAt hright⟩
      · split_ifs at hnext
        cases hnext
        exact ⟨hi, hj⟩

/-- The walk goes on from one of its states to another. -/
def Leads (a b : List UInt8) : Walk → Walk → Prop :=
  Relation.ReflTransGen fun v w => v.next a b = .ok w

/-- So do any number of steps. -/
lemma Within.leads (h : v.Within a b) (hleads : Leads a b v w) : w.Within a b := by
  induction hleads with
  | refl => exact h
  | tail _ hnext ih => exact ih.next hnext

/-! ### Phases -/

/-- Before another round begins, the walk ends with an order, or it gets to a phase with this left
of the parts. -/
def Goes (a b : List UInt8) (w : Walk) (phase : Phase) :
    Except Ordering (List UInt8 × List UInt8) → Prop
  | .error order => ∃ v, Leads a b w v ∧ v.rounds = w.rounds ∧ v.next a b = .error order
  | .ok (xs, ys) => ∃ v, Leads a b w v ∧ v.rounds = w.rounds ∧ v.phase = phase ∧
      a.drop v.left = xs ∧ b.drop v.right = ys

namespace Goes

variable {phase phase' : Phase} {r : Except Ordering (List UInt8 × List UInt8)}

/-- A step that finds the order ends the walk. -/
lemma ends (h : w.next a b = .error order) : Goes a b w phase (.error order) :=
  ⟨w, .refl, rfl, h⟩

/-- A walk that is in the phase has got there. -/
lemma here (hx : a.drop i = xs) (hy : b.drop j = ys) :
    Goes a b ⟨phase, i, j, n⟩ phase (.ok (xs, ys)) :=
  ⟨_, .refl, rfl, rfl, hx, hy⟩

/-- Steps within one round can be put in front. -/
lemma of_leads (hleads : Leads a b w v) (hrounds : v.rounds = w.rounds)
    (h : Goes a b v phase r) : Goes a b w phase r := by
  cases r with
  | error order =>
      obtain ⟨u, hu, hr, hend⟩ := h
      exact ⟨u, hleads.trans hu, hr.trans hrounds, hend⟩
  | ok rest =>
      obtain ⟨u, hu, hr, hrest⟩ := h
      exact ⟨u, hleads.trans hu, hr.trans hrounds, hrest⟩

lemma of_next (hnext : w.next a b = .ok v) (hrounds : v.rounds = w.rounds)
    (h : Goes a b v phase r) : Goes a b w phase r :=
  of_leads (.single hnext) hrounds h

/-- One phase after the other. -/
lemma trans (h : Goes a b w phase (.ok (xs, ys)))
    (hrest : ∀ i j, a.drop i = xs → b.drop j = ys →
      Goes a b ⟨phase, i, j, w.rounds⟩ phase' r) : Goes a b w phase' r := by
  obtain ⟨⟨_, i, j, _⟩, hleads, hrounds, rfl, hx, hy⟩ := h
  subst hrounds
  exact of_leads hleads rfl (hrest i j hx hy)

end Goes

lemma getElem?_of_drop {x : UInt8} (h : xs.drop i = x :: ys) :
    xs[i]? = some x ∧ xs.drop (i + 1) = ys := by
  rw [← List.head?_drop, ← List.tail_drop, h]
  exact ⟨rfl, rfl⟩

lemma getElem?_of_drop_nil (h : xs.drop i = []) : xs[i]? = none := by
  rw [← List.head?_drop, h, List.head?_nil]

/-- The walk passes over text as `passText` does. -/
lemma goes_text (hx : a.drop i = xs) (hy : b.drop j = ys) :
    Goes a b ⟨.text, i, j, n⟩ .leftZeros (passText xs ys) := by
  have hnext (i j : ℕ) : next a b ⟨.text, i, j, n⟩ =
      if startsText (a.drop i) || startsText (b.drop j) then
        if weight (a.drop i).head? = weight (b.drop j).head? then .ok ⟨.text, i + 1, j + 1, n⟩
        else .error (compare (weight (a.drop i).head?) (weight (b.drop j).head?))
      else .ok ⟨.leftZeros, i, j, n⟩ := by
    rw [startsText_drop, startsText_drop, List.head?_drop, List.head?_drop]
    rfl
  have htext {x y : UInt8} {xs ys : List UInt8} :
      (startsText (x :: xs) || startsText (y :: ys)) = true ↔ ¬(isDigit x && isDigit y) = true := by
    simp [startsText, or_iff_not_imp_left]
  -- along the bytes that `passText` takes, which are the ones that the walk looks at
  fun_induction passText xs ys generalizing i j with
  | case1 x xs y ys hd =>
      have hgo : next a b ⟨.text, i, j, n⟩ = .ok ⟨.leftZeros, i, j, n⟩ := by
        rw [hnext, hx, hy, if_neg fun ht => htext.1 ht hd]
      exact .of_next hgo rfl (.here hx hy)
  | case2 x xs y ys hd hw ih =>
      have hgo : next a b ⟨.text, i, j, n⟩ = .ok ⟨.text, i + 1, j + 1, n⟩ := by
        rw [hnext, hx, hy, if_pos (htext.2 hd)]
        exact if_pos hw
      exact .of_next hgo rfl (ih (getElem?_of_drop hx).2 (getElem?_of_drop hy).2)
  | case3 x xs y ys hd hw =>
      refine .ends ?_
      rw [hnext, hx, hy, if_pos (htext.2 hd)]
      exact if_neg hw
  | case4 xs ys hnil ht =>
      refine .ends ?_
      rw [hnext, hx, hy, if_pos ht, if_neg (weight_head_ne_of_startsText hnil ht)]
  | case5 xs ys hnil ht =>
      have hgo : next a b ⟨.text, i, j, n⟩ = .ok ⟨.leftZeros, i, j, n⟩ := by
        rw [hnext, hx, hy, if_neg ht]
      exact .of_next hgo rfl (.here hx hy)

/-- A walk that moves on over every zero of one part comes behind the zeros at its place there. -/
lemma leads_zeros {us : List UInt8} {f : ℕ → Walk}
    (hf : ∀ i, us[i]? = some 0x30 → (f i).next a b = .ok (f (i + 1))) (hus : us.drop i = xs) :
    ∃ k, Leads a b (f i) (f k) ∧ us.drop k = xs.dropWhile (· == 0x30) ∧ us[k]? ≠ some 0x30 := by
  induction xs generalizing i with
  | nil =>
      have hend : us[i]? ≠ some 0x30 := by rw [getElem?_of_drop_nil hus]; exact nofun
      exact ⟨i, .refl, hus, hend⟩
  | cons x xs ih =>
      obtain ⟨hget, hrest⟩ := getElem?_of_drop hus
      by_cases hzero : x = 0x30
      · subst hzero
        obtain ⟨k, hleads, hk⟩ := ih hrest
        rw [List.dropWhile_cons_of_pos (by rfl)]
        exact ⟨k, .head (hf i hget) hleads, hk⟩
      · have hstop : us[i]? ≠ some 0x30 := by rwa [hget, ne_eq, Option.some.injEq]
        rw [List.dropWhile_cons_of_neg (by simpa using hzero)]
        exact ⟨i, .refl, hus, hstop⟩

/-- The zeros of the left number are passed over, and then it is the turn of the right. -/
lemma goes_leftZeros (hx : a.drop i = xs) (hy : b.drop j = ys) :
    Goes a b ⟨.leftZeros, i, j, n⟩ .rightZeros (.ok (xs.dropWhile (· == 0x30), ys)) := by
  obtain ⟨k, hleads, hk, hstop⟩ :=
    leads_zeros (f := fun i => ⟨.leftZeros, i, j, n⟩) (fun i hzero => if_pos hzero) hx
  have hgo : next a b ⟨.leftZeros, k, j, n⟩ = .ok ⟨.rightZeros, k, j, n⟩ := if_neg hstop
  exact .of_leads hleads rfl (.of_next hgo rfl (.here hk hy))

/-- The zeros of the right number are passed over, and then the digits are compared. -/
lemma goes_rightZeros (hx : a.drop i = xs) (hy : b.drop j = ys) :
    Goes a b ⟨.rightZeros, i, j, n⟩ (.digits .eq) (.ok (xs, ys.dropWhile (· == 0x30))) := by
  obtain ⟨k, hleads, hk, hstop⟩ :=
    leads_zeros (f := fun j => ⟨.rightZeros, i, j, n⟩) (fun j hzero => if_pos hzero) hy
  have hgo : next a b ⟨.rightZeros, i, k, n⟩ = .ok ⟨.digits .eq, i, k, n⟩ := if_neg hstop
  exact .of_leads hleads rfl (.of_next hgo rfl (.here hx hk))

/-! ### Digits -/

/-- Whether a digit is in place can be told from what is left. -/
lemma digitAt_of_drop (h : xs.drop i = ys) : digitAt xs i = ys.head?.any isDigit := by
  rw [digitAt, ← h, List.head?_drop]

/-- A part that does not begin with a digit. -/
lemma takeWhile_isDigit_eq_nil (h : xs.head?.any isDigit = false) :
    xs.takeWhile isDigit = [] ∧ xs.dropWhile isDigit = xs := by
  cases xs with
  | nil => exact ⟨rfl, rfl⟩
  | cons x xs =>
      have hx : ¬isDigit x = true := by simpa using h
      exact ⟨List.takeWhile_cons_of_neg hx, List.dropWhile_cons_of_neg hx⟩

lemma exists_cons_of_digit (h : xs.head?.any isDigit = true) :
    ∃ x rest, xs = x :: rest ∧ isDigit x = true := by
  cases xs with
  | nil => exact absurd h (by decide)
  | cons x rest => exact ⟨x, rest, rfl, h⟩

/-- Of two digits the order is kept, unless one is there already. -/
lemma afterDigits_cons {x y : UInt8} (hx : isDigit x = true) (hy : isDigit y = true)
    (xs ys : List UInt8) : afterDigits order (x :: xs) (y :: ys) =
      afterDigits (order.then (compare x.toNat y.toNat)) xs ys := by
  have hlength (m n : ℕ) : compare (m + 1) (n + 1) = compare m n := by
    simp only [Nat.compare_eq_ite_lt, Nat.add_lt_add_iff_right]
  simp only [afterDigits, List.takeWhile_cons_of_pos hx, List.takeWhile_cons_of_pos hy,
    List.dropWhile_cons_of_pos hx, List.dropWhile_cons_of_pos hy, List.length_cons, hlength,
    List.map_cons, List.compare_cons_cons, Ordering.then_assoc]

/-- A digit on the left alone makes the left number larger. -/
lemma afterDigits_left {x : UInt8} (hx : isDigit x = true) (hy : ys.head?.any isDigit = false)
    (xs : List UInt8) : afterDigits order (x :: xs) ys = .error .gt := by
  have hlength (m : ℕ) : compare (m + 1) 0 = .gt := Nat.compare_eq_gt.2 m.succ_pos
  simp only [afterDigits, List.takeWhile_cons_of_pos hx, (takeWhile_isDigit_eq_nil hy).1,
    List.length_cons, List.length_nil, hlength, Ordering.gt_then]

/-- A digit on the right alone makes the right number larger. -/
lemma afterDigits_right {y : UInt8} (hx : xs.head?.any isDigit = false) (hy : isDigit y = true)
    (ys : List UInt8) : afterDigits order xs (y :: ys) = .error .lt := by
  have hlength (m : ℕ) : compare 0 (m + 1) = .lt := Nat.compare_eq_lt.2 m.succ_pos
  simp only [afterDigits, List.takeWhile_cons_of_pos hy, (takeWhile_isDigit_eq_nil hx).1,
    List.length_cons, List.length_nil, hlength, Ordering.lt_then]

/-- Behind numbers of the same length the order found on the way decides. -/
lemma afterDigits_end (hx : xs.head?.any isDigit = false) (hy : ys.head?.any isDigit = false) :
    afterDigits order xs ys = if order = .eq then .ok (xs, ys) else .error order := by
  obtain ⟨htx, hdx⟩ := takeWhile_isDigit_eq_nil hx
  obtain ⟨hty, hdy⟩ := takeWhile_isDigit_eq_nil hy
  rw [afterDigits, htx, hty, hdx, hdy]
  cases order <;> rfl

/-- Where a number ends, the walk is at the end of the round. -/
lemma goes_digits_end (hx : a.drop i = xs) (hy : b.drop j = ys)
    (hend : xs.head?.any isDigit = false ∨ ys.head?.any isDigit = false) :
    Goes a b ⟨.digits order, i, j, n⟩ .round (afterDigits order xs ys) := by
  have hdx : digitAt a i = xs.head?.any isDigit := digitAt_of_drop hx
  have hdy : digitAt b j = ys.head?.any isDigit := digitAt_of_drop hy
  -- digits left on one side only make that side the larger; with none left on either, the order
  -- carried along decides
  cases hxs : xs.head?.any isDigit with
  | true =>
      have hys : ys.head?.any isDigit = false := hend.resolve_left (by simp [hxs])
      have hgo : next a b ⟨.digits order, i, j, n⟩ = .error .gt := by
        simp [next, hdx, hdy, hxs, hys]
      obtain ⟨x, rest, rfl, hdigit⟩ := exists_cons_of_digit hxs
      rw [afterDigits_left hdigit hys]
      exact .ends hgo
  | false =>
      cases hys : ys.head?.any isDigit with
      | true =>
          have hgo : next a b ⟨.digits order, i, j, n⟩ = .error .lt := by
            simp [next, hdx, hdy, hxs, hys]
          obtain ⟨y, rest, rfl, hdigit⟩ := exists_cons_of_digit hys
          rw [afterDigits_right hxs hdigit]
          exact .ends hgo
      | false =>
          have hgo : next a b ⟨.digits order, i, j, n⟩ =
              if order = .eq then .ok ⟨.round, i, j, n⟩ else .error order := by
            simp [next, hdx, hdy, hxs, hys]
          rw [afterDigits_end hxs hys]
          by_cases heq : order = .eq
          · rw [if_pos heq] at hgo ⊢
            exact .of_next hgo rfl (.here hx hy)
          · rw [if_neg heq] at hgo ⊢
            exact .ends hgo

/-- The walk passes over digits as `afterDigits` does, with the order it has found so far. -/
lemma goes_digits (hx : a.drop i = xs) (hy : b.drop j = ys) :
    Goes a b ⟨.digits order, i, j, n⟩ .round (afterDigits order xs ys) := by
  -- on the left part, for every order carried along: each pair of digits settles it once
  induction xs generalizing i j ys order with
  | nil => exact goes_digits_end hx hy (.inl rfl)
  | cons x xs ih =>
      cases hxs : isDigit x with
      | false => exact goes_digits_end hx hy (.inl hxs)
      | true =>
          cases hys : ys.head?.any isDigit with
          | false => exact goes_digits_end hx hy (.inr hys)
          | true =>
              obtain ⟨y, ys, rfl, hdigit⟩ := exists_cons_of_digit hys
              obtain ⟨hgetx, hrestx⟩ := getElem?_of_drop hx
              obtain ⟨hgety, hresty⟩ := getElem?_of_drop hy
              have hgo : next a b ⟨.digits order, i, j, n⟩ =
                  .ok ⟨.digits (order.then (compare x.toNat y.toNat)), i + 1, j + 1, n⟩ := by
                simp only [next, digitAt, hgetx, hgety, Option.any_some, hxs, hdigit,
                  Bool.and_self, if_true]
                rfl
              rw [afterDigits_cons hxs hdigit]
              exact .of_next hgo rfl (ih hrestx hresty)

/-! ### Rounds -/

/-- A round of the walk leaves what `afterRound` leaves. -/
lemma goes_round (hx : a.drop i = xs) (hy : b.drop j = ys) :
    Goes a b ⟨.text, i, j, n⟩ .round (afterRound xs ys) := by
  have htext : Goes a b ⟨.text, i, j, n⟩ .leftZeros (passText xs ys) := goes_text hx hy
  rw [afterRound]
  cases hpass : passText xs ys with
  | error order => rwa [hpass] at htext
  | ok rest =>
      rw [hpass] at htext
      refine htext.trans fun i j hx hy => ?_
      refine (goes_leftZeros hx hy).trans fun i j hx hy => ?_
      refine (goes_rightZeros hx hy).trans fun i j hx hy => ?_
      exact goes_digits hx hy

/-- Unless both parts are at their end, a round ends with the order of what is left, or it comes to
the next one with less left and the same order. -/
lemma round_cases (hv : v.phase = .round) (hmore : v.left < a.length ∨ v.right < b.length) :
    ∃ w, Leads a b v w ∧ w.rounds = v.rounds + 1 ∧
      (w.next a b = .error (comparePart (a.drop v.left) (b.drop v.right)) ∨
        w.phase = .round ∧
          (a.drop w.left).length + (b.drop w.right).length <
            (a.drop v.left).length + (b.drop v.right).length ∧
          comparePart (a.drop w.left) (b.drop w.right) =
            comparePart (a.drop v.left) (b.drop v.right)) := by
  obtain ⟨_, i, j, n⟩ := v
  obtain rfl : _ = Phase.round := hv
  have hbegin : next a b ⟨.round, i, j, n⟩ = .ok ⟨.text, i, j, n + 1⟩ :=
    if_pos (by simpa using hmore)
  have hround : Goes a b ⟨.text, i, j, n + 1⟩ .round (afterRound (a.drop i) (b.drop j)) :=
    goes_round rfl rfl
  have horder := comparePart_eq_afterRound (a.drop i) (b.drop j)
  -- the walk of one round ends as the recursive comparison does after it
  cases hafter : afterRound (a.drop i) (b.drop j) with
  | error order =>
      rw [hafter] at hround horder
      obtain ⟨w, hleads, hrounds, hend⟩ := hround
      exact ⟨w, .head hbegin hleads, hrounds, .inl (hend.trans (congrArg _ horder.symm))⟩
  | ok rest =>
      obtain ⟨xs, ys⟩ := rest
      rw [hafter] at hround horder
      obtain ⟨w, hleads, hrounds, hw, hx, hy⟩ := hround
      have hne : a.drop i ≠ [] ∨ b.drop j ≠ [] := by
        simpa only [ne_eq, List.drop_eq_nil_iff, not_le] using hmore
      have hlt := length_lt_of_afterRound hne hafter
      subst hx hy
      exact ⟨w, .head hbegin hleads, hrounds, .inr ⟨hw, hlt, horder.symm⟩⟩

/-- At the end of both parts there is nothing more to compare. -/
lemma next_round_of_end (hv : v.phase = .round)
    (hend : ¬(v.left < a.length ∨ v.right < b.length)) :
    v.next a b = .error (comparePart (a.drop v.left) (b.drop v.right)) := by
  obtain ⟨hi, hj⟩ := not_or.1 hend
  rw [List.drop_eq_nil_iff.2 (not_lt.1 hi), List.drop_eq_nil_iff.2 (not_lt.1 hj), next, hv]
  exact if_neg (by simpa using hend)

/-- From the beginning of a round the walk comes to the order of what is left, with no more rounds
than there are bytes left. -/
lemma exists_end (hv : v.phase = .round) :
    ∃ w, Leads a b v w ∧
      w.rounds ≤ v.rounds + ((a.drop v.left).length + (b.drop v.right).length) ∧
      w.next a b = .error (comparePart (a.drop v.left) (b.drop v.right)) := by
  -- by induction on the number of bytes that are left
  induction hsize : (a.drop v.left).length + (b.drop v.right).length using Nat.strong_induction_on
    generalizing v with
  | _ size ih =>
      subst hsize
      by_cases hmore : v.left < a.length ∨ v.right < b.length
      · obtain ⟨w, hleads, hrounds, hend | ⟨hw, hlt, horder⟩⟩ := round_cases hv hmore
        · refine ⟨w, hleads, ?_, hend⟩
          rw [List.length_drop, List.length_drop]
          omega
        · obtain ⟨u, hu, hbound, hend⟩ := ih _ hlt hw rfl
          exact ⟨u, hleads.trans hu, by omega, horder ▸ hend⟩
      · exact ⟨v, .refl, by omega, next_round_of_end hv hmore⟩

/-- There is only one way to go on, so the walk comes to its end from wherever it is. -/
lemma leads_end {u : Walk} (hw : Leads a b v w) (hu : Leads a b v u)
    (hend : u.next a b = .error order) : Leads a b w u := by
  have hunique : Relator.RightUnique fun v w : Walk => v.next a b = .ok w :=
    fun _ _ _ h h' => Except.ok.inj (h.symm.trans h')
  rcases Relation.ReflTransGen.total_of_right_unique hunique hw hu with hwu | huw
  · exact hwu
  · rcases huw.cases_head with rfl | ⟨_, hnext, -⟩
    · exact .refl
    · rw [hend] at hnext
      cases hnext

/-- Nowhere but at the end of both parts does the walk find them equal. -/
lemma end_of_next_eq (h : w.next a b = .error .eq) :
    ¬(w.left < a.length ∨ w.right < b.length) := by
  obtain ⟨phase, i, j, n⟩ := w
  -- equality is answered between rounds only: every other phase ends at a difference
  cases phase with
  | round =>
      simp only [next] at h
      split at h
      · cases h
      · next hend => simpa using hend
  | text =>
      simp only [next] at h
      split_ifs at h with ht hw
      have hcompare : compare (weight a[i]?) (weight b[j]?) = .eq := by simpa using h
      exact absurd (Std.LawfulEqOrd.eq_of_compare hcompare) hw
  | leftZeros =>
      simp only [next] at h
      split_ifs at h
  | rightZeros =>
      simp only [next] at h
      split_ifs at h
  | digits order =>
      simp only [next] at h
      split_ifs at h with hboth hleft hright heq
      · cases h
      · cases h
      · exact absurd (Except.error.inj h) heq

/-- **The walk along two parts stays within them and gets on**: neither place is ever beyond the end
of its part; a round ends with the order of what is left, or it comes to the next round with the two
places further on, together, and the same order of what is left; and from wherever it has come to
the walk ends, with the order of the parts, after no more rounds than there are bytes. Parts are
found to be equal only when both have been passed over to their ends. -/
theorem walk_within_parts (a b : List UInt8) :
    (∀ w, Leads a b start w → w.left ≤ a.length ∧ w.right ≤ b.length) ∧
    (∀ v, Leads a b start v → v.phase = .round →
      ∃ w, Leads a b v w ∧ w.rounds ≤ v.rounds + 1 ∧
        (w.next a b = .error (comparePart (a.drop v.left) (b.drop v.right)) ∨
          w.phase = .round ∧ w.rounds = v.rounds + 1 ∧
            v.left + v.right < w.left + w.right ∧
            comparePart (a.drop w.left) (b.drop w.right) =
              comparePart (a.drop v.left) (b.drop v.right))) ∧
    (∃ u, u.next a b = .error (comparePart a b) ∧ u.rounds ≤ a.length + b.length ∧
      ∀ w, Leads a b start w → Leads a b w u) ∧
    ∀ w, Leads a b start w → w.next a b = .error .eq →
      w.left = a.length ∧ w.right = b.length := by
  have hwithin : ∀ w, Leads a b start w → w.Within a b := fun w hleads =>
    Within.leads ⟨Nat.zero_le _, Nat.zero_le _⟩ hleads
  refine ⟨fun w hw => ⟨(hwithin w hw).left_le, (hwithin w hw).right_le⟩, ?_, ?_, ?_⟩
  · intro v hv hphase
    by_cases hmore : v.left < a.length ∨ v.right < b.length
    · obtain ⟨w, hleads, hrounds, hend | ⟨hw, hlt, horder⟩⟩ := round_cases hphase hmore
      · exact ⟨w, hleads, hrounds.le, .inl hend⟩
      · obtain ⟨hi, hj⟩ := hwithin v hv
        obtain ⟨hi', hj'⟩ := hwithin w (hv.trans hleads)
        simp only [List.length_drop] at hlt
        -- what is left has become less, so the cursors have moved on, both still within bounds
        have hsum : v.left + v.right < w.left + w.right := by omega
        exact ⟨w, hleads, hrounds.le, .inr ⟨hw, hrounds, hsum, horder⟩⟩
    · exact ⟨v, .refl, Nat.le_succ _, .inl (next_round_of_end hphase hmore)⟩
  · obtain ⟨u, hu, hrounds, hend⟩ := exists_end (a := a) (b := b) (v := start) rfl
    have hbound : u.rounds ≤ a.length + b.length := by simpa [start] using hrounds
    exact ⟨u, hend, hbound, fun w hw => leads_end hw hu hend⟩
  · intro w hw hequal
    obtain ⟨hi, hj⟩ := hwithin w hw
    have hend := end_of_next_eq hequal
    omega

/-- A part that ends in text, and the same with zeros behind it: the second round begins behind the
first digit, and the walk finds the parts equal when both have been passed over. -/
theorem walk_within_parts_zeros :
    let a : List UInt8 := [0x31, 0x2E]
    let b : List UInt8 := [0x31, 0x2E, 0x30, 0x30]
    (∃ v, Leads a b start v ∧ v.phase = .round ∧ v.left + v.right = 2 ∧
      ∃ w, Leads a b v w ∧ w.rounds ≤ 2 ∧
        (w.next a b = .error .eq ∨ w.phase = .round ∧ w.rounds = 2 ∧ 2 < w.left + w.right ∧
          comparePart (a.drop w.left) (b.drop w.right) = .eq)) ∧
    ∃ w, Leads a b start w ∧ w.next a b = .error .eq ∧ w.rounds ≤ 6 ∧
      w.left = 2 ∧ w.right = 4 := by
  intro a b
  obtain ⟨-, hround, ⟨u, hend, hbound, hleads⟩, hequal⟩ := walk_within_parts a b
  have hparts : comparePart a b = .eq := by decide
  rw [hparts] at hend
  have hu : Leads a b start u := hleads start .refl
  obtain ⟨hi, hj⟩ := hequal u hu hend
  have hsecond : Leads a b start ⟨.round, 1, 1, 1⟩ :=
    .head (b := ⟨.text, 0, 0, 1⟩) rfl <| .head (b := ⟨.leftZeros, 0, 0, 1⟩) rfl <|
      .head (b := ⟨.rightZeros, 0, 0, 1⟩) rfl <| .head (b := ⟨.digits .eq, 0, 0, 1⟩) rfl <|
        .head (b := ⟨.digits .eq, 1, 1, 1⟩) rfl <| .single rfl
  exact ⟨⟨_, hsecond, rfl, rfl, hround _ hsecond rfl⟩, u, hu, hend, hbound, hi, hj⟩

end Walk

end BrokerPolicy.Version
