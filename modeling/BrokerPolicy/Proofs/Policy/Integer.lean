import BrokerPolicy.Policy.Coercion
import BrokerPolicy.Proofs.Binary64.Value
import BrokerPolicy.Proofs.Text.Decimal
import BrokerPolicy.Proofs.Text.Trimming

/-!
What is read as an integer, and as which.

A text spells an integer by its digits, each of which counts by its place (`SpellsInteger`), and
that is how it is read: `intOfDecimal?_eq_some_iff`. `Json.Value.Denotes` is the number that a
value stands for, be it a text, an integer, a binary number or a truth value. The word that is read
is the integer part of this number, and it is read whenever it is a signed word, but for the least
one given as a binary number: `integer_exact`.

An integer is read from its text as it is read from itself (`word?_text`).

An integer too large for a signed word is refused without being rounded. To compare it as a binary
number comes to the same (`wordOfFloat?_ofNat?_of_large`).
-/

namespace BrokerPolicy

open Json

namespace Coercion

/-- The characters are digits, at least one, with one sign at most before them, and denote the
integer. -/
def SpellsInteger (cs : List Char) (z : ℤ) : Prop :=
  ∃ ds : List Char, ds ≠ [] ∧ (∀ d ∈ ds, d.isDigit = true) ∧
    ((cs = ds ∨ cs = '+' :: ds) ∧ z = Text.placeValue ds ∨
      cs = '-' :: ds ∧ z = -(Text.placeValue ds : ℤ))

/-- Digits are read as the number they denote, if there is one at least. -/
lemma natOfDigits?_eq_some_iff {ds : List Char} {n : ℕ} : natOfDigits? ds = some n ↔
    ds ≠ [] ∧ (∀ d ∈ ds, d.isDigit = true) ∧ n = Text.placeValue ds := by
  rw [natOfDigits?]
  simp only [List.all_eq_true]
  split
  · next h =>
    rw [Option.some.injEq, Text.decimalValue_eq_placeValue h.2]
    exact ⟨fun heq => ⟨h.1, h.2, heq.symm⟩, fun heq => heq.2.2.symm⟩
  · next h =>
    simp only [reduceCtorEq, false_iff]
    exact fun hds => h ⟨hds.1, hds.2.1⟩

/-- Digits do not begin with a sign. -/
lemma ne_cons_of_digits {ds : List Char} (h : ∀ d ∈ ds, d.isDigit = true) {c : Char}
    (hc : c.isDigit = false) (rest : List Char) : c :: rest ≠ ds := by
  rintro rfl
  rw [h c List.mem_cons_self] at hc
  cases hc

lemma intOfDecimal?_minus (ds : List Char) :
    intOfDecimal? ('-' :: ds) = (natOfDigits? ds).map fun n : ℕ => -(n : ℤ) := by
  rw [intOfDecimal?]
  cases natOfDigits? ds <;> rfl

/-- A text is read as the integer that it spells. -/
lemma intOfDecimal?_eq_some_iff {cs : List Char} {z : ℤ} :
    intOfDecimal? cs = some z ↔ SpellsInteger cs z := by
  constructor
  · intro h
    unfold intOfDecimal? at h
    split at h
    · next ds =>
      obtain ⟨n, hn, rfl⟩ := Option.map_eq_some_iff.1 h
      obtain ⟨hne, hdigits, rfl⟩ := natOfDigits?_eq_some_iff.1 hn
      exact ⟨ds, hne, hdigits, .inl ⟨.inr rfl, rfl⟩⟩
    · next ds =>
      rw [← intOfDecimal?, intOfDecimal?_minus] at h
      obtain ⟨n, hn, rfl⟩ := Option.map_eq_some_iff.1 h
      obtain ⟨hne, hdigits, rfl⟩ := natOfDigits?_eq_some_iff.1 hn
      exact ⟨ds, hne, hdigits, .inr ⟨rfl, rfl⟩⟩
    · obtain ⟨n, hn, rfl⟩ := Option.map_eq_some_iff.1 h
      obtain ⟨hne, hdigits, rfl⟩ := natOfDigits?_eq_some_iff.1 hn
      exact ⟨cs, hne, hdigits, .inl ⟨.inl rfl, rfl⟩⟩
  -- back, the sign is told from the first character: digits begin with neither sign
  · rintro ⟨ds, hne, hdigits, ⟨rfl | rfl, rfl⟩ | ⟨rfl, rfl⟩⟩
    · have hread := natOfDigits?_eq_some_iff.2 ⟨hne, hdigits, rfl⟩
      rw [intOfDecimal?, hread]
      · rfl
      · exact fun rest heq => ne_cons_of_digits hdigits rfl rest heq.symm
      · exact fun rest heq => ne_cons_of_digits hdigits rfl rest heq.symm
    · rw [intOfDecimal?, natOfDigits?_eq_some_iff.2 ⟨hne, hdigits, rfl⟩]
      rfl
    · rw [intOfDecimal?_minus, natOfDigits?_eq_some_iff.2 ⟨hne, hdigits, rfl⟩]
      rfl

/-! ### Written integers -/

/-- What is written for an integer spells it. -/
lemma spellsInteger_intChars (n : ℤ) : SpellsInteger (intChars n) n := by
  have hdigits : ∀ d ∈ Nat.toDigits 10 n.natAbs, d.isDigit = true :=
    fun _ => Text.isDigit_of_mem_toDigits
  have hvalue : Text.placeValue (Nat.toDigits 10 n.natAbs) = n.natAbs := by
    rw [← Text.decimalValue_eq_placeValue hdigits, Text.decimalValue_toDigits]
  refine ⟨Nat.toDigits 10 n.natAbs, Text.toDigits_ne_nil _, hdigits, ?_⟩
  rw [intChars, hvalue]
  split
  · exact .inr ⟨rfl, by omega⟩
  · exact .inl ⟨.inl rfl, by omega⟩

/-- No blanks are written for an integer. -/
lemma trimChars_intChars (n : ℤ) : Text.trimChars (intChars n) = intChars n := by
  have hblank : ∀ c ∈ intChars n, Text.isBlank c = false := by
    intro c hc
    rw [intChars] at hc
    split at hc
    · rcases List.mem_cons.1 hc with rfl | hc
      · rfl
      · exact Text.isBlank_eq_false_of_isDigit (Text.isDigit_of_mem_toDigits hc)
    · exact Text.isBlank_eq_false_of_isDigit (Text.isDigit_of_mem_toDigits hc)
  rw [Text.trimChars, Text.trimStart_of_head? fun c hc => hblank c (List.mem_of_head? hc),
    Text.trimEnd_of_getLast? fun c hc => hblank c (List.mem_of_getLast? hc)]

/-! ### Words -/

/-- An integer is a signed word exactly if it lies between the ends of these. -/
lemma map_wordOfInt?_eq_some_iff {n z : ℤ} : (wordOfInt? n).map Int64.toInt = some z ↔
    z = n ∧ -2 ^ 63 ≤ n ∧ n < 2 ^ 63 := by
  rw [Option.map_eq_some_iff]
  simp only [wordOfInt?_eq_some_iff]
  constructor
  · rintro ⟨w, rfl, rfl⟩
    exact ⟨rfl, w.le_toInt, w.toInt_lt⟩
  · rintro ⟨rfl, hlow, hhigh⟩
    exact ⟨Int64.ofInt z, Int64.toInt_ofInt_of_le hlow hhigh, Int64.toInt_ofInt_of_le hlow hhigh⟩

/-- A binary number is cut off toward zero if it is smaller than `2 ^ 63` in size. -/
lemma map_wordOfFloat?_eq_some_iff {x : Binary64} {z : ℤ} :
    (wordOfFloat? x).map Int64.toInt = some z ↔
      z = Binary64.truncated x.value ∧ |x.value| < 2 ^ 63 := by
  have hsize : x.wholePart < 0x8000000000000000 ↔ |x.value| < 2 ^ 63 := by
    rw [Binary64.wholePart_lt_iff_abs_value_lt]
    norm_num
  rw [wordOfFloat?, ← hsize]
  split
  · next h =>
    have habs := x.natAbs_trunc
    rw [map_wordOfInt?_eq_some_iff, ← Binary64.trunc_eq_truncated]
    refine and_congr_right fun _ => ⟨fun _ => h, fun _ => ?_⟩
    omega
  · next h => simp [h]

/-- A large integer is refused as a binary number too. -/
lemma wordOfFloat?_ofNat?_of_large {n : Json.Integer} (h : 2 ^ 63 ≤ n.val) :
    ∃ x, Binary64.ofNat? n.val.toNat = some x ∧ wordOfFloat? x = none := by
  have hhigh := n.val_lt
  obtain ⟨x, hx, hlarge⟩ := Binary64.exists_ofNat?_of_large (n := n.val.toNat) (by omega) (by omega)
  exact ⟨x, hx, if_neg (by omega)⟩

end Coercion

/-! ### Values -/

/-- The number that a value stands for. -/
inductive Json.Value.Denotes : Value → ℚ → Prop
  | text {s : String} {z : ℤ} (h : Coercion.SpellsInteger (Text.trimChars s.toList) z) :
      Denotes (.string s) z
  | integer (n : Json.Integer) : Denotes (.number (.integer n)) n.val
  | float (x : Binary64) : Denotes (.number (.float x)) x.value
  | bool (b : Bool) : Denotes (.bool b) (if b then 1 else 0)

namespace Coercion

variable {field : String} {z : ℤ}

/-- The word of a value, if it has one. -/
def word? : Value → Option Int64
  | .number (.integer n) => wordOfInt? n.val
  | .number (.float x) => wordOfFloat? x
  | .string s => (intOfDecimal? (Text.trimChars s.toList)).bind wordOfInt?
  | .bool b => some (if b then 1 else 0)
  | _ => none

/-- An integer and its text have the same word. -/
lemma word?_text (n : Json.Integer) :
    word? (.string (Value.number (.integer n)).text) = word? (.number (.integer n)) := by
  have hread : intOfDecimal? (intChars n.val) = some n.val :=
    intOfDecimal?_eq_some_iff.2 (spellsInteger_intChars n.val)
  have htext : (Value.number (.integer n)).text.toList = intChars n.val := String.toList_ofList
  show (intOfDecimal? (Text.trimChars (Value.number (.integer n)).text.toList)).bind wordOfInt? = _
  rw [htext, trimChars_intChars, hread]
  rfl

lemma integer_eq (field : String) (v : Value) : integer field v =
    match word? v with
    | some n => .ok n
    | none => .error (.notConvertible field v.text .integer) := by
  rcases v with _ | b | (n | x) | s | items | members <;> rfl

lemma map_integer_eq_ok_iff {v : Value} :
    (integer field v).map Int64.toInt = .ok z ↔ (word? v).map Int64.toInt = some z := by
  rw [integer_eq]
  cases word? v <;> simp [Except.map]

/-- A text is read as the integer that it spells, if that is a signed word. -/
lemma map_integer_string_eq_ok_iff {s : String} :
    (integer field (.string s)).map Int64.toInt = .ok z ↔
      SpellsInteger (Text.trimChars s.toList) z ∧ -2 ^ 63 ≤ z ∧ z < 2 ^ 63 := by
  have hword : (word? (.string s)).map Int64.toInt = some z ↔
      ∃ n, intOfDecimal? (Text.trimChars s.toList) = some n ∧
        (wordOfInt? n).map Int64.toInt = some z := by
    rw [word?, Option.map_bind, Option.bind_eq_some_iff]
    rfl
  rw [map_integer_eq_ok_iff, hword]
  simp only [intOfDecimal?_eq_some_iff, map_wordOfInt?_eq_some_iff]
  constructor
  · rintro ⟨n, hspells, rfl, hrange⟩
    exact ⟨hspells, hrange⟩
  · rintro ⟨hspells, hrange⟩
    exact ⟨z, hspells, rfl, hrange⟩

/-- An integer is read as itself unless it is too large. -/
lemma map_integer_integer_eq_ok_iff {n : Json.Integer} :
    (integer field (.number (.integer n))).map Int64.toInt = .ok z ↔
      z = n.val ∧ n.val < 2 ^ 63 := by
  have hlow := n.le_val
  rw [map_integer_eq_ok_iff, word?, map_wordOfInt?_eq_some_iff]
  exact and_congr_right fun _ => ⟨fun h => h.2, fun h => ⟨hlow, h⟩⟩

/-- A binary number is read as its value without the fraction. The least signed word is left out,
too. -/
lemma map_integer_float_eq_ok_iff {x : Binary64} :
    (integer field (.number (.float x))).map Int64.toInt = .ok z ↔
      z = Binary64.truncated x.value ∧ |x.value| < 2 ^ 63 := by
  rw [map_integer_eq_ok_iff, word?, map_wordOfFloat?_eq_some_iff]

/-- A truth value is read as one or zero. -/
lemma map_integer_bool_eq_ok_iff {b : Bool} :
    (integer field (.bool b)).map Int64.toInt = .ok z ↔ z = if b then 1 else 0 := by
  rw [map_integer_eq_ok_iff, word?, Option.map_some, Option.some.injEq, eq_comm]
  cases b <;> rfl

/-- What is read is the integer part of what the value denotes. -/
lemma denotes_of_map_integer {v : Value} (h : (integer field v).map Int64.toInt = .ok z) :
    ∃ q, v.Denotes q ∧ z = Binary64.truncated q := by
  -- null, arrays and objects are never read; each other form denotes one number
  rcases v with _ | b | (n | x) | s | items | members
  · cases h
  · obtain rfl := map_integer_bool_eq_ok_iff.1 h
    refine ⟨_, .bool b, ?_⟩
    cases b with
    | true => exact (Binary64.truncated_intCast 1).symm
    | false => exact (Binary64.truncated_intCast 0).symm
  · obtain ⟨rfl, -⟩ := map_integer_integer_eq_ok_iff.1 h
    exact ⟨_, .integer n, (Binary64.truncated_intCast n.val).symm⟩
  · obtain ⟨rfl, -⟩ := map_integer_float_eq_ok_iff.1 h
    exact ⟨_, .float x, rfl⟩
  · obtain ⟨hspells, -⟩ := map_integer_string_eq_ok_iff.1 h
    exact ⟨_, .text hspells, (Binary64.truncated_intCast z).symm⟩
  · cases h
  · cases h

/-- **Integers are read exactly or not at all.** A text is read if it is trimmed to one sign at most
and digits that denote a signed word, and as this word; an integer if it is a signed word, and it
makes no difference whether one that is not is compared as a binary number; a binary number if it is
smaller than `2 ^ 63` in size, and as its integer part toward zero; a truth value as zero or one. No
other value is read, and none as anything but the integer part of the number that it denotes. What
is not read is refused with the text of the value. -/
theorem integer_exact (field : String) :
    (∀ (s : String) (z : ℤ), (integer field (.string s)).map Int64.toInt = .ok z ↔
        SpellsInteger (Text.trimChars s.toList) z ∧ -2 ^ 63 ≤ z ∧ z < 2 ^ 63) ∧
      (∀ (n : Json.Integer) (z : ℤ),
        (integer field (.number (.integer n))).map Int64.toInt = .ok z ↔
          z = n.val ∧ n.val < 2 ^ 63) ∧
      (∀ n : Json.Integer, 2 ^ 63 ≤ n.val →
        ∃ x, Binary64.ofNat? n.val.toNat = some x ∧ wordOfFloat? x = none) ∧
      (∀ (x : Binary64) (z : ℤ), (integer field (.number (.float x))).map Int64.toInt = .ok z ↔
        z = Binary64.truncated x.value ∧ |x.value| < 2 ^ 63) ∧
      (∀ (b : Bool) (z : ℤ), (integer field (.bool b)).map Int64.toInt = .ok z ↔
        z = if b then 1 else 0) ∧
      (∀ (v : Value) (z : ℤ), (integer field v).map Int64.toInt = .ok z →
        ∃ q, v.Denotes q ∧ z = Binary64.truncated q) ∧
      ∀ (v : Value) (error : PolicyError), integer field v = .error error →
        error = .notConvertible field v.text .integer := by
  refine ⟨fun s z => map_integer_string_eq_ok_iff, fun n z => map_integer_integer_eq_ok_iff,
    fun n => wordOfFloat?_ofNat?_of_large, fun x z => map_integer_float_eq_ok_iff,
    fun b z => map_integer_bool_eq_ok_iff, fun v z => denotes_of_map_integer, fun v error h => ?_⟩
  rw [integer_eq] at h
  split at h
  · cases h
  · exact (Except.error.inj h).symm

end Coercion

end BrokerPolicy
