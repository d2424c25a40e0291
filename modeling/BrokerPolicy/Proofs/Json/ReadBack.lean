import BrokerPolicy.Json.Printer
import BrokerPolicy.Proofs.Json.Sameness
import BrokerPolicy.Proofs.Text.Decimal

/-!
What is printed is read back.

* **Numbers.** An integer is read back if what follows cannot go on with it (`EndsNumber`):
  `readLiteral_intChars` takes its digits, `number?_integerLiteral` their value.
* **Strings.** Every escape that is written is read as the character that it stands for
  (`readChars_escapeChar`), so a string is read back (`readText_escaped`).
* **Sequences.** `sequenceChars` is how items and members are written alike. Whatever reads one item
  reads a sequence of them (`readSequence_map`), and so reads it back if it reads back an item:
  `readSequence_sequenceChars`.
* **Values.** By induction on the depth, a value whose numbers are integers is read by every reader
  that allows its depth, and its members are put in order: `readValue_written`. If they are in order
  already the value is read back, `readValue_chars`, and `parse?_text` for a document; so only equal
  values have the same text: `text_inj`.
-/

namespace BrokerPolicy.Json

/-! ### Numbers -/

/-- The text cannot go on with a number. -/
def EndsNumber (cs : List Char) : Prop :=
  ∀ c ∈ cs.head?, c.isDigit = false ∧ c ≠ '.' ∧ c ≠ 'e' ∧ c ≠ 'E'

lemma endsNumber_nil : EndsNumber [] := by
  simp [EndsNumber]

lemma endsNumber_cons {c : Char} (cs : List Char)
    (h : c.isDigit = false ∧ c ≠ '.' ∧ c ≠ 'e' ∧ c ≠ 'E') : EndsNumber (c :: cs) := by
  simpa [EndsNumber] using h

variable {rest : List Char}

/-- Digits are read as far as they go. -/
lemma readDigits_append {ds : List Char} (hne : ds ≠ []) (hds : ∀ d ∈ ds, d.isDigit = true)
    (hrest : ∀ c ∈ rest.head?, c.isDigit = false) : readDigits (ds ++ rest) = some (ds, rest) := by
  have hnone : rest.takeWhile Char.isDigit = [] ∧ rest.dropWhile Char.isDigit = rest := by
    cases rest with
    | nil => exact ⟨rfl, rfl⟩
    | cons c cs =>
        have hc : c.isDigit = false := hrest c rfl
        exact ⟨List.takeWhile_cons_of_neg (by simp [hc]), List.dropWhile_cons_of_neg (by simp [hc])⟩
  have htake : (ds ++ rest).takeWhile Char.isDigit = ds := by
    rw [List.takeWhile_append_of_pos hds, hnone.1, List.append_nil]
  have hdrop : (ds ++ rest).dropWhile Char.isDigit = rest := by
    rw [List.dropWhile_append_of_pos hds, hnone.2]
  obtain ⟨d, ds', rfl⟩ := List.exists_cons_of_ne_nil hne
  rw [readDigits, htake, hdrop]

/-- Where the number has ended there is no fraction. -/
lemma readFraction_of_endsNumber (h : EndsNumber rest) : readFraction rest = some (none, rest) := by
  rw [readFraction]
  rintro cs rfl
  exact (h '.' rfl).2.1 rfl

/-- Nor is there an exponent. -/
lemma readExponent_of_endsNumber (h : EndsNumber rest) : readExponent rest = some (none, rest) := by
  rw [readExponent]
  · rintro cs rfl
    exact (h 'e' rfl).2.2.1 rfl
  · rintro cs rfl
    exact (h 'E' rfl).2.2.2 rfl

/-- The digits of a number are taken as a whole. -/
lemma readUnsigned_toDigits (negative : Bool) (n : ℕ) (h : EndsNumber rest) :
    readUnsigned negative (Nat.toDigits 10 n ++ rest) =
      some ({ negative, whole := Nat.toDigits 10 n }, rest) := by
  have hdigits : readDigits (Nat.toDigits 10 n ++ rest) = some (Nat.toDigits 10 n, rest) :=
    readDigits_append (Text.toDigits_ne_nil n)
      (fun d hd => Text.isDigit_of_mem_toDigits hd) fun c hc => (h c hc).1
  have hzero : ¬((Nat.toDigits 10 n).head? = some '0' ∧ (Nat.toDigits 10 n).length ≠ 1) := by
    rintro ⟨hhead, hlength⟩
    rcases Nat.eq_zero_or_pos n with rfl | hpos
    · exact hlength rfl
    · exact Text.head?_toDigits_ne_zero (by omega) hhead
  have hwhole : readWhole (Nat.toDigits 10 n ++ rest) = some (Nat.toDigits 10 n, rest) := by
    simp only [readWhole, hdigits, Option.bind_eq_bind, Option.bind_some, hzero, if_false]
  simp only [readUnsigned, hwhole, readFraction_of_endsNumber h, readExponent_of_endsNumber h,
    Option.bind_eq_bind, Option.bind_some, Option.pure_def]

/-- The spelling of an integer. -/
def integerLiteral (n : ℤ) : Literal where
  negative := decide (n < 0)
  whole := Nat.toDigits 10 n.natAbs

/-- An integer as it is written has its sign, its digits, no fraction and no exponent. -/
lemma readLiteral_intChars (n : ℤ) (h : EndsNumber rest) :
    readLiteral (intChars n ++ rest) = some (integerLiteral n, rest) := by
  rw [intChars, integerLiteral]
  split
  · next hn =>
    rw [List.cons_append, readLiteral, readUnsigned_toDigits true _ h, decide_eq_true hn]
  · next hn =>
    rw [readLiteral, readUnsigned_toDigits false _ h, decide_eq_false hn]
    intro cs hcs
    have hmem : '-' ∈ Nat.toDigits 10 n.natAbs := by
      obtain ⟨d, ds, hds⟩ := List.exists_cons_of_ne_nil (Text.toDigits_ne_nil n.natAbs)
      rw [hds, List.cons_append, List.cons.injEq] at hcs
      rw [hds, hcs.1]
      exact List.mem_cons_self
    exact absurd (Text.isDigit_of_mem_toDigits hmem) (by decide)

/-- The literal of a word is read as that word, not as a binary number. -/
lemma number?_integerLiteral (n : Integer) :
    (integerLiteral n.val).number? = some (.integer n) := by
  have hsize : (Text.decimalValue (integerLiteral n.val).whole : ℤ) = n.val.natAbs := by
    rw [integerLiteral, Text.decimalValue_toDigits]
  have hvalue : (if (integerLiteral n.val).negative = true then
      -(Text.decimalValue (integerLiteral n.val).whole : ℤ) else
      Text.decimalValue (integerLiteral n.val).whole) = n.val := by
    rw [hsize, integerLiteral]
    by_cases hn : n.val < 0
    · rw [if_pos (decide_eq_true hn)]
      omega
    · rw [if_neg (by simpa using hn)]
      omega
  have hplain : ¬((integerLiteral n.val).negative = true ∧ n.val = 0) := by
    rintro ⟨hnegative, hzero⟩
    have hn : n.val < 0 := of_decide_eq_true hnegative
    omega
  have hfraction : (integerLiteral n.val).fraction.isNone = true := rfl
  have hexponent : (integerLiteral n.val).exponent.isNone = true := rfl
  simp only [Literal.number?, hvalue, hplain, hfraction, hexponent, not_false_eq_true, and_self,
    if_true, Integer.ofInt?_val]

/-! ### Strings -/

/-- The two last of the four digits tell a control. -/
lemma hexUnit?_control : ∀ n < 0x20,
    hexUnit? '0' '0' (Nat.digitChar (n / 16)) (Nat.digitChar (n % 16)) = some n := by
  decide

/-- A character without a special meaning stands for itself. -/
lemma readChars_cons_of_plain {c : Char} (hq : c ≠ '"') (hb : c ≠ '\\') (hc : 0x20 ≤ c.toNat) :
    readChars (c :: rest) = (readChars rest).map fun (cs, r) => (c :: cs, r) := by
  rw [readChars]
  · simp only [hb, or_false, Nat.not_lt.2 hc, if_false]
  · rintro rfl; exact hq rfl
  · rintro a b c' d rest' rfl; exact absurd rfl hb
  · rintro c' rest' rfl; exact absurd rfl hb

/-- An escape is read as the character that it stands for. -/
lemma readChars_escapeChar (c : Char) (rest : List Char) :
    readChars (escapeChar c ++ rest) = (readChars rest).map fun (cs, r) => (c :: cs, r) := by
  rw [escapeChar]
  split
  · next h => rcases h with rfl | rfl <;> simp [readChars, simpleEscape?]
  split
  · next h => subst h; simp [readChars, simpleEscape?]
  split
  · next h => subst h; simp [readChars, simpleEscape?]
  split
  · next h => subst h; simp [readChars, simpleEscape?]
  split
  · next h => subst h; simp [readChars, simpleEscape?]
  split
  · next h => subst h; simp [readChars, simpleEscape?]
  split
  · next h =>
    -- what is left of the controls is written by its code, which is no half of a surrogate pair
    have hlow : ¬(0xDC00 ≤ c.toNat ∧ c.toNat < 0xE000) := by omega
    have hhigh : ¬(0xD800 ≤ c.toNat ∧ c.toNat < 0xDC00) := by omega
    simp only [List.cons_append, List.nil_append, readChars, hexUnit?_control _ h, hlow, hhigh,
      if_false, Char.ofNat_toNat]
  · next hspecial _ _ _ _ _ hcontrol =>
    rw [not_or] at hspecial
    exact readChars_cons_of_plain hspecial.1 hspecial.2 (Nat.not_lt.1 hcontrol)

/-- Whatever characters are escaped, they are read back up to the closing quote. -/
lemma readChars_escaped (cs rest : List Char) :
    readChars (cs.flatMap escapeChar ++ '"' :: rest) = some (cs, rest) := by
  induction cs with
  | nil => rw [List.flatMap_nil, List.nil_append, readChars]
  | cons c cs ih =>
      rw [List.flatMap_cons, List.append_assoc, readChars_escapeChar, ih]
      rfl

lemma readText_escaped (s : String) (rest : List Char) :
    readText (s.toList.flatMap escapeChar ++ '"' :: rest) = some (s, rest) := by
  rw [readText, readChars_escaped]
  simp

/-! ### Sequences -/

lemma skipSpace_cons {c : Char} (cs : List Char) (h : isSpace c = false) :
    skipSpace (c :: cs) = c :: cs := by
  rw [skipSpace, List.dropWhile_cons_of_neg (by simp [h])]

/-- What stands after an item: further items after commas, and the closing bracket. -/
def moreChars {α : Type} (print : α → List Char) (close : Char) : List α → List Char
  | [] => [close]
  | x :: xs => ',' :: print x ++ moreChars print close xs

/-- Items separated by commas, and the closing bracket. -/
def sequenceChars {α : Type} (print : α → List Char) (close : Char) : List α → List Char
  | [] => [close]
  | x :: xs => print x ++ moreChars print close xs

/-- A bracket that closes a sequence. -/
def IsClose (close : Char) : Prop :=
  close = ']' ∨ close = '\x7d'

section Sequence

variable {α β : Type} {item : Reader β} {f : α → β} {print : α → List Char} {close : Char}
  {xs : List α}

/-- A list of items is written in more characters than it has items. -/
lemma length_moreChars (xs : List α) : xs.length < (moreChars print close xs).length := by
  induction xs with
  | nil => simp [moreChars]
  | cons x xs ih =>
      simp only [moreChars, List.length_cons, List.length_append]
      omega

/-- Behind an item stands a comma or the closing bracket, and neither goes on with a number. -/
lemma endsNumber_moreChars (hclose : IsClose close) (xs : List α) :
    EndsNumber (moreChars print close xs ++ rest) := by
  cases xs with
  | nil => rcases hclose with rfl | rfl <;> exact endsNumber_cons _ (by decide)
  | cons x xs => exact endsNumber_cons _ (by decide)

/-- The items after the first are read one by one. -/
lemma readMore_moreChars (hclose : IsClose close)
    (hitem : ∀ x ∈ xs, ∀ rest, EndsNumber rest → item (print x ++ rest) = some (f x, rest))
    {fuel : ℕ} (hfuel : xs.length < fuel) :
    readMore item close fuel (moreChars print close xs ++ rest) = some (xs.map f, rest) := by
  -- on the fuel, of which each value read takes one
  induction fuel generalizing xs with
  | zero => omega
  | succ fuel ih =>
      cases xs with
      | nil =>
          have hspace : isSpace close = false := by rcases hclose with rfl | rfl <;> rfl
          show readMore item close (fuel + 1) (close :: rest) = _
          rw [readMore, skipSpace_cons _ hspace]
          simp
      | cons x xs =>
          have hcomma : ',' ≠ close := by rcases hclose with rfl | rfl <;> decide
          have hx := hitem x List.mem_cons_self (moreChars print close xs ++ rest)
            (endsNumber_moreChars hclose xs)
          have hxs : readMore item close fuel (moreChars print close xs ++ rest) =
              some (xs.map f, rest) :=
            ih (fun y hy => hitem y (List.mem_cons_of_mem x hy)) (Nat.lt_of_succ_lt_succ hfuel)
          show readMore item close (fuel + 1)
            (',' :: (print x ++ moreChars print close xs) ++ rest) = _
          rw [List.cons_append, List.append_assoc, readMore, skipSpace_cons _ (by rfl)]
          simp [hcomma, hx, hxs]

/-- Whatever reads an item reads a sequence. -/
lemma readSequence_map (hclose : IsClose close)
    (hbegin : ∀ x ∈ xs, ∃ c cs, print x = c :: cs ∧ isSpace c = false ∧ c ≠ close)
    (hitem : ∀ x ∈ xs, ∀ rest, EndsNumber rest → item (print x ++ rest) = some (f x, rest)) :
    readSequence item close (sequenceChars print close xs ++ rest) = some (xs.map f, rest) := by
  cases xs with
  | nil =>
      have hspace : isSpace close = false := by rcases hclose with rfl | rfl <;> rfl
      show readSequence item close (close :: rest) = _
      rw [readSequence, skipSpace_cons _ hspace]
      simp
  | cons x xs =>
      obtain ⟨c, cs, hprint, hspace, hc⟩ := hbegin x List.mem_cons_self
      have hx := hitem x List.mem_cons_self (moreChars print close xs ++ rest)
        (endsNumber_moreChars hclose xs)
      -- the text after the first value is the fuel: it is longer than the number of values left
      have hlength : xs.length < (moreChars print close xs ++ rest).length := by
        rw [List.length_append]
        exact Nat.lt_add_right _ (length_moreChars xs)
      have hxs : readMore item close (moreChars print close xs ++ rest).length
          (moreChars print close xs ++ rest) = some (xs.map f, rest) :=
        readMore_moreChars hclose (fun y hy => hitem y (List.mem_cons_of_mem x hy)) hlength
      rw [List.length_append] at hxs
      rw [sequenceChars, List.append_assoc]
      rw [hprint, List.cons_append] at hx ⊢
      rw [readSequence, skipSpace_cons _ hspace]
      simp [hc, hx, hxs]

/-- Whatever reads back an item reads back a sequence. -/
lemma readSequence_sequenceChars {item : Reader α} (hclose : IsClose close)
    (hbegin : ∀ x ∈ xs, ∃ c cs, print x = c :: cs ∧ isSpace c = false ∧ c ≠ close)
    (hitem : ∀ x ∈ xs, ∀ rest, EndsNumber rest → item (print x ++ rest) = some (x, rest)) :
    readSequence item close (sequenceChars print close xs ++ rest) = some (xs, rest) := by
  have hread : readSequence item close (sequenceChars print close xs ++ rest) =
      some (xs.map id, rest) := readSequence_map hclose hbegin hitem
  rwa [List.map_id] at hread

end Sequence

/-! ### Values -/

/-- A member of an object. -/
def memberChars (m : String × Value) : List Char :=
  stringChars m.1 ++ ':' :: m.2.chars

/-- Arrays are written as sequences. -/
lemma itemsChars_eq (vs : List Value) : itemsChars vs = sequenceChars Value.chars ']' vs := by
  have hmore (vs : List Value) : moreItemsChars vs = moreChars Value.chars ']' vs := by
    induction vs with
    | nil => rfl
    | cons v vs ih => rw [moreItemsChars, moreChars, ih]
  cases vs with
  | nil => rfl
  | cons v vs => rw [itemsChars, sequenceChars, hmore]

/-- Objects are written as sequences of members. -/
lemma membersChars_eq (ms : List (String × Value)) :
    membersChars ms = sequenceChars memberChars '\x7d' ms := by
  have hmore (ms : List (String × Value)) :
      moreMembersChars ms = moreChars memberChars '\x7d' ms := by
    induction ms with
    | nil => rfl
    | cons m ms ih => simp [moreMembersChars, moreChars, ih, memberChars]
  cases ms with
  | nil => rfl
  | cons m ms => simp [membersChars, sequenceChars, hmore, memberChars]

/-- A key is read back with the colon after it. -/
lemma readKey_stringChars (key : String) (rest : List Char) :
    readKey (stringChars key ++ ':' :: rest) = some (key, rest) := by
  have hquote : skipSpace ('"' :: (key.toList.flatMap escapeChar ++ '"' :: ':' :: rest)) =
      '"' :: (key.toList.flatMap escapeChar ++ '"' :: ':' :: rest) := skipSpace_cons _ (by rfl)
  have hcolon : skipSpace (':' :: rest) = ':' :: rest := skipSpace_cons _ (by rfl)
  rw [stringChars, List.cons_append, List.cons_append, List.append_assoc, List.cons_append,
    List.nil_append, readKey, hquote]
  simp [readText_escaped, hcolon]

/-- A member is read with its key if its value is read. -/
lemma readMember_memberChars {value : Reader Value} {m : String × Value} {w : Value}
    (h : value (m.2.chars ++ rest) = some (w, rest)) :
    readMember value (memberChars m ++ rest) = some ((m.1, w), rest) := by
  rw [readMember, memberChars, List.append_assoc, List.cons_append, readKey_stringChars]
  simp [h]

/-- A member begins with a quote. -/
lemma memberChars_begin (m : String × Value) : ∃ c cs,
    memberChars m = c :: cs ∧ isSpace c = false ∧ c ≠ '\x7d' :=
  ⟨'"', _, rfl, rfl, by decide⟩

/-- The written form of an integer begins with a sign or a digit, and so with nothing else. -/
lemma intChars_begin (n : ℤ) : ∃ c cs, intChars n = c :: cs ∧ isSpace c = false ∧
    ∀ d : Char, d ≠ '-' → d.isDigit = false → c ≠ d := by
  obtain ⟨c, cs, hchars, hc⟩ : ∃ c cs, intChars n = c :: cs ∧ (c = '-' ∨ c.isDigit = true) := by
    rw [intChars]
    split
    · exact ⟨_, _, rfl, Or.inl rfl⟩
    · obtain ⟨d, ds, hds⟩ := List.exists_cons_of_ne_nil (Text.toDigits_ne_nil n.natAbs)
      refine ⟨d, ds, hds, Or.inr ?_⟩
      exact Text.isDigit_of_mem_toDigits (hds ▸ List.mem_cons_self)
  have hne (d : Char) (hd : d ≠ '-') (hdigit : d.isDigit = false) : c ≠ d := by
    rintro rfl
    rcases hc with rfl | hc
    · exact hd rfl
    · simp [hc] at hdigit
  refine ⟨c, cs, hchars, ?_, hne⟩
  simp [isSpace, hne ' ', hne '\t', hne '\n', hne '\r']

/-- What is neither an array nor an object is read by the reader of such values. -/
lemma readValue_eq_readScalar {c : Char} {cs : List Char} (depth : ℕ) (hspace : isSpace c = false)
    (harray : c ≠ '[') (hobject : c ≠ '\x7b') :
    readValue depth (c :: cs) = readScalar (c :: cs) := by
  cases depth with
  | zero => rw [readValue, skipSpace_cons cs hspace]
  | succ depth =>
      rw [readValue, skipSpace_cons cs hspace]
      split
      · next heq => exact absurd (List.cons.inj heq).1 harray
      · next heq => exact absurd (List.cons.inj heq).1 hobject
      · rfl

/-- An integer is read back by every reader of values. -/
lemma readValue_integer (depth : ℕ) (n : Integer) (h : EndsNumber rest) :
    readValue depth ((Number.integer n).chars ++ rest) = some (.number (.integer n), rest) := by
  obtain ⟨c, cs, hchars, hspace, hne⟩ := intChars_begin n.val
  have hread := readLiteral_intChars n.val h
  have hscalar : readScalar (intChars n.val ++ rest) = some (.number (.integer n), rest) := by
    rw [readScalar]
    · simp [hread, number?_integerLiteral]
    -- no word and no string begins like this
    all_goals
      intros
      rename_i heq
      rw [hchars] at heq
      exact hne _ (by decide) (by decide) (List.cons.inj heq).1
  rw [hchars, List.cons_append] at hscalar
  rw [Number.chars, hchars, List.cons_append, readValue_eq_readScalar depth hspace
    (hne _ (by decide) (by decide)) (hne _ (by decide) (by decide)), hscalar]

/-- A string is read back by every reader of values. -/
lemma readValue_string (depth : ℕ) (s : String) (rest : List Char) :
    readValue depth (stringChars s ++ rest) = some (.string s, rest) := by
  rw [stringChars, List.cons_append, List.cons_append, List.append_assoc, List.singleton_append,
    readValue_eq_readScalar depth (by rfl) (by decide) (by decide), readScalar, readText_escaped]
  rfl

/-- What does not nest is read back at any depth. -/
lemma readValue_scalar {v : Value} (depth : ℕ) (hwhole : v.Whole) (hscalar : v.depth = 0)
    (hrest : EndsNumber rest) : readValue depth (v.chars ++ rest) = some (v.sorted, rest) := by
  have hword {c : Char} {cs : List Char} (hspace : isSpace c = false) (harray : c ≠ '[')
      (hobject : c ≠ '\x7b') : readValue depth (c :: cs) = readScalar (c :: cs) :=
    readValue_eq_readScalar depth hspace harray hobject
  cases v with
  | null => exact hword (by rfl) (by decide) (by decide)
  | bool b => cases b <;> exact hword (by rfl) (by decide) (by decide)
  | number n =>
      cases n with
      | integer n => exact readValue_integer depth n hrest
      | float x => exact absurd hwhole id
  | string s => exact readValue_string depth s rest
  | array vs => exact absurd hscalar (Nat.succ_ne_zero _)
  | object ms => exact absurd hscalar (Nat.succ_ne_zero _)

/-- The written form of a value begins with none of the characters between values. -/
lemma Value.chars_begin {v : Value} (h : v.Whole) :
    ∃ c cs, v.chars = c :: cs ∧ isSpace c = false ∧ c ≠ ']' := by
  cases v with
  | number n =>
      cases n with
      | integer n =>
          obtain ⟨c, cs, hchars, hspace, hne⟩ := intChars_begin n.val
          exact ⟨c, cs, hchars, hspace, hne _ (by decide) (by decide)⟩
      | float x => exact absurd h id
  | bool b => cases b <;> exact ⟨_, _, rfl, rfl, by decide⟩
  | _ => exact ⟨_, _, rfl, rfl, by decide⟩

/-- **A value is read, with its members in order**, if its numbers are integers and the reader
allows its depth. -/
theorem readValue_written {v : Value} {depth : ℕ} (hwhole : v.Whole) (hdepth : v.depth ≤ depth)
    (hrest : EndsNumber rest) : readValue depth (v.chars ++ rest) = some (v.sorted, rest) := by
  -- on the depth allowed: arrays and objects hand one less to what they hold, a scalar needs none
  induction depth generalizing v rest with
  | zero => exact readValue_scalar 0 hwhole (Nat.le_zero.1 hdepth) hrest
  | succ depth ih =>
      cases v with
      | array vs =>
          rw [Value.Whole, itemsWhole_iff] at hwhole
          rw [Value.depth, Nat.add_le_add_iff_right, itemsDepth_le_iff] at hdepth
          have hread : readSequence (readValue depth) ']'
              (sequenceChars Value.chars ']' vs ++ rest) = some (vs.map Value.sorted, rest) :=
            readSequence_map (Or.inl rfl) (fun v hv => Value.chars_begin (hwhole v hv))
              fun v hv rest hrest => ih (hwhole v hv) (hdepth v hv) hrest
          rw [Value.chars, itemsChars_eq, List.cons_append, readValue, skipSpace_cons _ (by rfl)]
          simp [hread, Value.sorted, sortedItems_eq]
      | object ms =>
          rw [Value.Whole, membersWhole_iff] at hwhole
          rw [Value.depth, Nat.add_le_add_iff_right, membersDepth_le_iff] at hdepth
          have hread : readSequence (readMember (readValue depth)) '\x7d'
              (sequenceChars memberChars '\x7d' ms ++ rest) =
                some (ms.map (Prod.map id Value.sorted), rest) :=
            readSequence_map (Or.inr rfl) (fun m _ => memberChars_begin m)
              fun m hm rest hrest => readMember_memberChars (ih (hwhole m hm) (hdepth m hm) hrest)
          rw [Value.chars, membersChars_eq, List.cons_append, readValue, skipSpace_cons _ (by rfl)]
          simp [readMembers, hread, Value.sorted, sortedMembers_eq]
      | _ => exact readValue_scalar (depth + 1) hwhole rfl hrest

/-- **A value is read back** if its numbers are integers, its members are in order and the reader
allows its depth. -/
theorem readValue_chars {v : Value} {depth : ℕ} (hwhole : v.Whole) (hordered : v.Ordered)
    (hdepth : v.depth ≤ depth) (hrest : EndsNumber rest) :
    readValue depth (v.chars ++ rest) = some (v, rest) := by
  rw [readValue_written hwhole hdepth hrest, Value.sorted_of_ordered hordered]

/-- A document is the value that was written, with its members in order. -/
theorem parse?_written {v : Value} (hwhole : v.Whole) (hdepth : v.depth ≤ depthLimit) :
    Value.parse? v.text = some v.sorted := by
  have hread := readValue_written hwhole hdepth endsNumber_nil
  rw [List.append_nil] at hread
  rw [Value.parse?, whole?, Value.text, String.toList_ofList, hread]
  rfl

/-- A document is the value that was printed. -/
theorem parse?_text {v : Value} (hwhole : v.Whole) (hordered : v.Ordered)
    (hdepth : v.depth ≤ depthLimit) : Value.parse? v.text = some v := by
  rw [parse?_written hwhole hdepth, Value.sorted_of_ordered hordered]

/-- Only equal values have the same text, however deep they nest. -/
theorem text_inj {v w : Value} (hv : v.Whole) (hw : w.Whole) (hordered : v.Ordered)
    (hordered' : w.Ordered) : v.text = w.text ↔ v = w := by
  constructor
  · intro htext
    have hchars : v.chars = w.chars := String.ofList_injective htext
    have hread := readValue_chars hv hordered (Nat.le_max_left _ w.depth) endsNumber_nil
    have hread' := readValue_chars hw hordered' (Nat.le_max_right v.depth _) endsNumber_nil
    rw [hchars, hread'] at hread
    exact (Prod.mk.inj (Option.some.inj hread)).1.symm
  · rintro rfl
    rfl

/-- **Values have the same text if and only if they are the same**, in whatever order their members
were written. -/
theorem text_sorted_eq_iff {v w : Value} (hv : v.Whole) (hw : w.Whole) (hdistinct : v.Distinct)
    (hdistinct' : w.Distinct) : v.sorted.text = w.sorted.text ↔ v.Same w := by
  rw [text_inj (Value.whole_sorted hv) (Value.whole_sorted hw) v.ordered_sorted w.ordered_sorted,
    Value.same_iff_sorted_eq hdistinct hdistinct']

end BrokerPolicy.Json
