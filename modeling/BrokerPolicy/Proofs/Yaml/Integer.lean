import BrokerPolicy.Proofs.Json.Spelling

/-!
Integers, spelled alike in JSON and in YAML.

The written form of an integer is a sign perhaps and its digits. YAML knows marks for other bases,
and digits after a zero spell a text, but neither comes up: `magnitude?_toDigits`. So what is
written for an integer of 64 bits is a spelling of it for both languages: `spellsWord_integer`.
-/

namespace BrokerPolicy.Yaml

open Json

/-- Digits do not begin with the mark of another base. -/
lemma after?_toDigits (word : String) {c : Char} (hc : c ∈ word.toList) (hdigit : c.isDigit = false)
    (n : ℕ) : after? word (Nat.toDigits 10 n) = none := by
  rw [Option.eq_none_iff_forall_ne_some]
  intro rest h
  have happend : word.toList ++ rest = Nat.toDigits 10 n :=
    List.isPrefixOf?_eq_some_iff_append_eq.1 h
  have hmem : c ∈ Nat.toDigits 10 n := happend ▸ List.mem_append_left _ hc
  simp [Text.isDigit_of_mem_toDigits hmem] at hdigit

/-- Digits are not signed. -/
lemma toDigits_begin (n : ℕ) :
    ∃ d ds, Nat.toDigits 10 n = d :: ds ∧ d ≠ '+' ∧ d ≠ '-' := by
  obtain ⟨d, ds, hds⟩ := List.exists_cons_of_ne_nil (Text.toDigits_ne_nil n)
  have hd : d.isDigit = true := Text.isDigit_of_mem_toDigits (hds ▸ List.mem_cons_self)
  refine ⟨d, ds, hds, ?_, ?_⟩ <;> rintro rfl <;> cases hd

/-- A number is written without a zero in front. -/
lemma hasLeadingZero_toDigits (n : ℕ) : hasLeadingZero (Nat.toDigits 10 n) = false := by
  rcases Nat.eq_zero_or_pos n with rfl | hn
  · rfl
  · have hhead := Text.head?_toDigits_ne_zero (Nat.ne_of_gt hn)
    obtain ⟨d, ds, hds, hplus, hminus⟩ := toDigits_begin n
    rw [hds] at hhead ⊢
    simp only [List.head?_cons, ne_eq, Option.some.injEq] at hhead
    simp [hasLeadingZero, hplus, hminus, hhead]

lemma isDigitOf_ten {d : Char} (h : d.isDigit = true) : isDigitOf 10 d = true := by
  have hvalue : Text.digitValue d = d.toNat - 48 := if_pos h
  have hlast : d.toNat ≤ 57 := (Char.isDigit_iff_toNat.1 h).2
  simp only [isDigitOf, Text.isHexDigit, h, Bool.true_or, Bool.true_and, decide_eq_true_eq]
  omega

/-- Its digits are read in base ten. -/
lemma natOf?_toDigits (n : ℕ) : natOf? 10 (Nat.toDigits 10 n) = some n := by
  have hdigits : (Nat.toDigits 10 n).all (isDigitOf 10) = true :=
    List.all_eq_true.2 fun d hd => isDigitOf_ten (Text.isDigit_of_mem_toDigits hd)
  have hvalue : Text.baseValue 10 (Nat.toDigits 10 n) = n := Text.decimalValue_toDigits n
  rw [natOf?, if_pos ⟨Text.toDigits_ne_nil n, hdigits⟩, hvalue]

lemma magnitude?_toDigits (n : ℕ) : magnitude? (Nat.toDigits 10 n) = some n := by
  have hhex := after?_toDigits "0x" (c := 'x') (by decide) rfl n
  have hoctal := after?_toDigits "0o" (c := 'o') (by decide) rfl n
  have hbinary := after?_toDigits "0b" (c := 'b') (by decide) rfl n
  simp [magnitude?, hhex, hoctal, hbinary, hasLeadingZero_toDigits, natOf?_toDigits]

/-- An integer is resolved as what it was written for. -/
lemma int?_intChars (n : ℤ) : int? (intChars n) = some n := by
  rw [intChars]
  split
  · have hsigned : int? ('-' :: Nat.toDigits 10 n.natAbs) = some (-(n.natAbs : ℤ)) := by
      simp [int?, magnitude?_toDigits]
    rw [hsigned, Option.some.injEq]
    omega
  -- without a sign the first character is a digit, so neither sign is read off
  · obtain ⟨d, ds, hds, hplus, hminus⟩ := toDigits_begin n.natAbs
    have hvalue := magnitude?_toDigits n.natAbs
    rw [hds] at hvalue ⊢
    have hunsigned : int? (d :: ds) = (magnitude? (d :: ds)).map Int.ofNat := by
      rw [int?]
      · exact fun r hr => hminus (List.cons.inj hr).1
      · exact fun r hr => hplus (List.cons.inj hr).1
    rw [hunsigned, hvalue, Option.map_some, Option.some.injEq, Int.ofNat_eq_natCast]
    omega

/-- No word is written for an integer that begins with neither a sign nor a digit. -/
lemma any_eq_intChars (n : ℤ) (words : List String)
    (h : ∀ word ∈ words, ∃ d ∈ word.toList.head?, d ≠ '-' ∧ d.isDigit = false) :
    words.any (·.toList == intChars n) = false := by
  obtain ⟨c, cs, hchars, -, hne⟩ := intChars_begin n
  rw [List.any_eq_false]
  intro word hword heq
  obtain ⟨d, hd, hsign, hdigit⟩ := h word hword
  rw [eq_of_beq heq, hchars] at hd
  exact hne d hsign hdigit (Option.some.inj hd)

/-- An integer is taken for itself. -/
lemma plainValue?_intChars (n : Integer) :
    plainValue? (String.ofList (intChars n.val)) = some (.number (.integer n)) := by
  have hempty : intChars n.val ≠ [] := by
    obtain ⟨c, cs, hchars, -⟩ := intChars_begin n.val
    simp [hchars]
  have hnull : isNull (intChars n.val) = false := any_eq_intChars n.val _ (by simp)
  have htrue := any_eq_intChars n.val ["true", "True", "TRUE"] (by simp)
  have hfalse := any_eq_intChars n.val ["false", "False", "FALSE"] (by simp)
  have hwide : wideInt? (intChars n.val) = some n.val := by
    have hlow := n.le_val
    have hhigh := n.val_lt
    simp [wideInt?, int?_intChars, isInt128, Option.filter]
    omega
  simp [plainValue?, hempty, hnull, bool?, htrue, hfalse, hwide, intValue?, Integer.ofInt?_val]

end BrokerPolicy.Yaml

namespace BrokerPolicy.Json

/-- **An integer of 64 bits is spelled alike** in both languages. -/
theorem spellsWord_integer (n : Integer) {rest : List Char} (h : EndsNumber rest) :
    SpellsWord (intChars n.val ++ rest) (.number (.integer n)) rest := by
  have hread := readLiteral_intChars n.val endsNumber_nil
  rw [List.append_nil] at hread
  exact .number hread h (number?_integerLiteral n) (Yaml.plainValue?_intChars n)

lemma Spells.integer (n : Integer) (depth : ℕ) {rest : List Char} (h : EndsNumber rest) :
    Spells depth (intChars n.val ++ rest) (.number (.integer n)) rest :=
  .scalar (.word (spellsWord_integer n h)) depth

end BrokerPolicy.Json
