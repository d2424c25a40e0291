import BrokerPolicy.Proofs.Json.ReadBack
import BrokerPolicy.Proofs.Json.Skip
import BrokerPolicy.Yaml.Resolve
import BrokerPolicy.Yaml.Token

/-!
JSON as it may be spelled in a YAML document.

`Spells depth cs v rest` says that `cs` begins with a spelling of the value `v`, which nests at most
`depth` deep, and goes on with `rest`. There are blanks and line breaks between the parts, and every
escape but pairs of surrogates; a key stands on one line with its colon and is not too long, and a
number is spelled as both languages spell it. It is built from the spellings of texts, of words, and
of what stands between brackets: `SpellsSequence` for any spelling of one item.

* `SpellsWord.exists_word`: what is spelled without quotes is a word of few characters.
* `Spells.append`: more text may come after a spelling if it `Follows` it, so that no number goes on
  in it. For numbers this is `readLiteral_append`, with one lemma for each part of a number.
-/

namespace BrokerPolicy.Json

/-! ### Spellings -/

/-- A spelling of a text with the quote after it. Line separators do not stand for themselves, and
no character is written as a pair of surrogates. -/
inductive SpellsText : List Char → List Char → List Char → Prop
  | nil {rest : List Char} : SpellsText ('"' :: rest) [] rest
  | plain {c : Char} {cs s rest : List Char} (hquote : c ≠ '"') (hbackslash : c ≠ '\\')
      (hcontrol : 0x20 ≤ c.toNat) (hbreak : Yaml.isBreak c = false) (h : SpellsText cs s rest) :
      SpellsText (c :: cs) (c :: s) rest
  | escape {c e : Char} {cs s rest : List Char} (he : simpleEscape? c = some e)
      (h : SpellsText cs s rest) : SpellsText ('\\' :: c :: cs) (e :: s) rest
  | unit {a b c d : Char} {n : ℕ} {cs s rest : List Char} (hn : hexUnit? a b c d = some n)
      (hvalid : n.isValidChar) (h : SpellsText cs s rest) :
      SpellsText ('\\' :: 'u' :: a :: b :: c :: d :: cs) (Char.ofNat n :: s) rest

/-- A spelling without quotes. A number is spelled as both languages spell it. -/
inductive SpellsWord : List Char → Value → List Char → Prop
  | null {rest : List Char} : SpellsWord ('n' :: 'u' :: 'l' :: 'l' :: rest) .null rest
  | true {rest : List Char} : SpellsWord ('t' :: 'r' :: 'u' :: 'e' :: rest) (.bool true) rest
  | false {rest : List Char} :
      SpellsWord ('f' :: 'a' :: 'l' :: 's' :: 'e' :: rest) (.bool false) rest
  | number {word rest : List Char} {l : Literal} {n : Number}
      (hread : readLiteral word = some (l, [])) (hends : EndsNumber rest)
      (hjson : l.number? = some n)
      (hyaml : Yaml.plainValue? (String.ofList word) = some (.number n)) :
      SpellsWord (word ++ rest) (.number n) rest

/-- A spelling of what does not nest. -/
inductive SpellsScalar : List Char → Value → List Char → Prop
  | word {cs rest : List Char} {v : Value} (h : SpellsWord cs v rest) : SpellsScalar cs v rest
  | string {cs s rest : List Char} (h : SpellsText cs s rest) :
      SpellsScalar ('"' :: cs) (.string (String.ofList s)) rest

section Sequence

variable {α : Type} (item : List Char → α → List Char → Prop) (close : Char)

/-- A spelling of what follows an item: further items after commas, and the closing bracket. -/
inductive SpellsMore : List Char → List α → List Char → Prop
  | close {cs rest : List Char} (hclose : skipSpace cs = close :: rest) : SpellsMore cs [] rest
  | comma {cs after more rest : List Char} {x : α} {xs : List α}
      (hcomma : skipSpace cs = ',' :: after) (hx : item (skipSpace after) x more)
      (hxs : SpellsMore more xs rest) : SpellsMore cs (x :: xs) rest

/-- A spelling of items separated by commas, and the closing bracket. -/
inductive SpellsSequence : List Char → List α → List Char → Prop
  | empty {cs rest : List Char} (hclose : skipSpace cs = close :: rest) : SpellsSequence cs [] rest
  | items {cs more rest : List Char} {x : α} {xs : List α} (hx : item (skipSpace cs) x more)
      (hxs : SpellsMore item close more xs rest) : SpellsSequence cs (x :: xs) rest

end Sequence

/-- The number of bytes of a text. -/
def byteLength (cs : List Char) : ℕ :=
  (cs.map Char.utf8Size).sum

/-- A spelling of a member of an object. The key and its colon stand on one line. -/
inductive SpellsMember (value : List Char → Value → List Char → Prop) :
    List Char → String × Value → List Char → Prop
  | member {cs s after colon rest : List Char} {v : Value} (hkey : SpellsText cs s after)
      (hcolon : after.dropWhile Yaml.isBlank = ':' :: colon)
      (hlength : byteLength ('"' :: cs) ≤ byteLength (':' :: colon) + Yaml.maxKeyLength)
      (hv : value (skipSpace colon) v rest) :
      SpellsMember value ('"' :: cs) (String.ofList s, v) rest

/-- A spelling of a value that nests at most `depth` deep. -/
def Spells : (depth : ℕ) → List Char → Value → List Char → Prop
  | 0, cs, v, rest => SpellsScalar cs v rest
  | depth + 1, cs, v, rest =>
    SpellsScalar cs v rest ∨
      (∃ inner vs, cs = '[' :: inner ∧ v = .array vs ∧
        SpellsSequence (Spells depth) ']' inner vs rest) ∨
      ∃ inner ms, cs = '\x7b' :: inner ∧ v = .object (Members.ofList ms) ∧
        SpellsSequence (SpellsMember (Spells depth)) '\x7d' inner ms rest

lemma Spells.scalar {cs rest : List Char} {v : Value} (h : SpellsScalar cs v rest) (depth : ℕ) :
    Spells depth cs v rest := by
  cases depth with
  | zero => exact h
  | succ depth => exact .inl h

/-- A spelling of an object whose values nest at most `depth` deep. -/
def SpellsObject (depth : ℕ) (cs : List Char) (ms : Members) (rest : List Char) : Prop :=
  ∃ inner written, cs = '\x7b' :: inner ∧ ms = Members.ofList written ∧
    SpellsSequence (SpellsMember (Spells depth)) '\x7d' inner written rest

/-- A spelling of a document that lists objects. -/
def SpellsList (depth : ℕ) (cs : List Char) (xs : List Members) : Prop :=
  ∃ inner rest, skipSpace cs = '[' :: inner ∧
    SpellsSequence (SpellsObject depth) ']' inner xs rest ∧ skipSpace rest = []

variable {cs rest : List Char}

/-- A character that stands for itself in a text. -/
def IsVerbatim (c : Char) : Prop :=
  c ≠ '"' ∧ c ≠ '\\' ∧ 0x20 ≤ c.toNat ∧ Yaml.isBreak c = false

instance : DecidablePred IsVerbatim :=
  fun c => inferInstanceAs
    (Decidable (c ≠ '"' ∧ c ≠ '\\' ∧ 0x20 ≤ c.toNat ∧ Yaml.isBreak c = false))

/-- A text between quotes without escapes. -/
lemma spellsText_verbatim {s : List Char} (h : ∀ c ∈ s, IsVerbatim c) (rest : List Char) :
    SpellsText (s ++ '"' :: rest) s rest := by
  induction s with
  | nil => exact .nil
  | cons c s ih =>
      obtain ⟨⟨hquote, hbackslash, hcontrol, hbreak⟩, hs⟩ := List.forall_mem_cons.1 h
      exact .plain hquote hbackslash hcontrol hbreak (ih hs)

/-- A key has its two quotes and its own bytes before the colon. -/
lemma byteLength_key (key : String) (colon : List Char) :
    byteLength ('"' :: (key.toList ++ '"' :: ':' :: colon)) =
      byteLength key.toList + 2 + byteLength (':' :: colon) := by
  simp [byteLength, Char.utf8Size]
  omega

/-- A string without escapes. -/
lemma Spells.verbatim (s : String) (h : ∀ c ∈ s.toList, IsVerbatim c) (depth : ℕ)
    (rest : List Char) : Spells depth ('"' :: (s.toList ++ '"' :: rest)) (.string s) rest := by
  have hspells := SpellsScalar.string (spellsText_verbatim h rest)
  rw [String.ofList_toList] at hspells
  exact .scalar hspells depth

/-- A member whose key is written without escapes, right before its colon. -/
lemma SpellsMember.verbatim {value : List Char → Value → List Char → Prop} (key : String)
    {colon rest : List Char} {v : Value} (hkey : ∀ c ∈ key.toList, IsVerbatim c)
    (hlength : byteLength key.toList + 2 ≤ Yaml.maxKeyLength)
    (hv : value (skipSpace colon) v rest) :
    SpellsMember value ('"' :: (key.toList ++ '"' :: ':' :: colon)) (key, v) rest := by
  have hbytes := byteLength_key key colon
  have hmember := SpellsMember.member (spellsText_verbatim hkey (':' :: colon)) rfl (by omega) hv
  rwa [String.ofList_toList] at hmember

/-- An object nests one level deeper than its members. -/
lemma Spells.object {depth : ℕ} {inner rest : List Char} {ms : Members}
    (h : SpellsSequence (SpellsMember (Spells depth)) '\x7d' inner ms rest) :
    Spells (depth + 1) ('\x7b' :: inner) (.object (Members.ofList ms)) rest :=
  .inr (.inr ⟨inner, ms, rfl, rfl, h⟩)

/-! ### Words -/

/-- A character of words. -/
def IsWordChar (c : Char) : Prop :=
  c.isAlphanum = true ∨ c ∈ ['-', '+', '.']

instance : DecidablePred IsWordChar :=
  fun c => inferInstanceAs (Decidable (c.isAlphanum = true ∨ c ∈ ['-', '+', '.']))

/-- Between two texts there are only characters of words. -/
def Numeric (cs rest : List Char) : Prop :=
  ∃ word, cs = word ++ rest ∧ ∀ c ∈ word, IsWordChar c

namespace Numeric

lemma refl : Numeric cs cs :=
  ⟨[], rfl, by simp⟩

lemma cons {c : Char} (hc : IsWordChar c) (h : Numeric cs rest) : Numeric (c :: cs) rest := by
  obtain ⟨word, rfl, hword⟩ := h
  exact ⟨c :: word, rfl, List.forall_mem_cons.2 ⟨hc, hword⟩⟩

lemma trans {middle : List Char} (h : Numeric cs middle) (h' : Numeric middle rest) :
    Numeric cs rest := by
  obtain ⟨word, rfl, hword⟩ := h
  obtain ⟨word', rfl, hword'⟩ := h'
  exact ⟨word ++ word', (List.append_assoc ..).symm, List.forall_mem_append.2 ⟨hword, hword'⟩⟩

end Numeric

/-- Digits that are read are some digits before the rest, at least one. -/
lemma exists_digits {ds : List Char} (h : readDigits cs = some (ds, rest)) :
    (∃ d ds', ds = d :: ds') ∧ cs = ds ++ rest ∧ ∀ d ∈ ds, d.isDigit = true := by
  rw [readDigits] at h
  split at h
  · cases h
  · next hne =>
    obtain ⟨rfl, rfl⟩ := Prod.mk.inj (Option.some.inj h)
    refine ⟨List.exists_cons_of_ne_nil hne, List.takeWhile_append_dropWhile.symm, fun d hd => ?_⟩
    exact List.all_eq_true.1 List.all_takeWhile d hd

lemma numeric_readDigits {ds : List Char} (h : readDigits cs = some (ds, rest)) :
    Numeric cs rest := by
  obtain ⟨-, hcs, hds⟩ := exists_digits h
  exact ⟨ds, hcs, fun d hd => .inl (by simp [Char.isAlphanum, hds d hd])⟩

/-- A fraction is a point and digits, if it is there. -/
lemma numeric_readFraction {ds : Option (List Char)} (h : readFraction cs = some (ds, rest)) :
    Numeric cs rest := by
  rw [readFraction.eq_def] at h
  split at h
  · obtain ⟨ds, hds, -⟩ := exists_read h
    exact (numeric_readDigits hds).cons (by decide)
  · obtain ⟨-, rfl⟩ := Prod.mk.inj (Option.some.inj h)
    exact .refl

lemma numeric_readPower {n : ℤ} (h : readPower cs = some (n, rest)) : Numeric cs rest := by
  rw [readPower.eq_def] at h
  split at h
  · obtain ⟨ds, hds, -⟩ := exists_read (f := fun ds => (Text.decimalValue ds : ℤ)) h
    exact (numeric_readDigits hds).cons (by decide)
  · obtain ⟨ds, hds, -⟩ := exists_read (f := fun ds => -(Text.decimalValue ds : ℤ)) h
    exact (numeric_readDigits hds).cons (by decide)
  · obtain ⟨ds, hds, -⟩ := exists_read (f := fun ds => (Text.decimalValue ds : ℤ)) h
    exact numeric_readDigits hds

/-- An exponent is a letter, perhaps a sign, and digits, if it is there. -/
lemma numeric_readExponent {n : Option ℤ} (h : readExponent cs = some (n, rest)) :
    Numeric cs rest := by
  rw [readExponent.eq_def] at h
  split at h
  · obtain ⟨n, hn, -⟩ := exists_read h
    exact (numeric_readPower hn).cons (by decide)
  · obtain ⟨n, hn, -⟩ := exists_read h
    exact (numeric_readPower hn).cons (by decide)
  · obtain ⟨-, rfl⟩ := Prod.mk.inj (Option.some.inj h)
    exact .refl

/-- A number begins with a digit after its sign, and goes on in characters of numbers. -/
lemma numeric_readUnsigned {negative : Bool} {l : Literal}
    (h : readUnsigned negative cs = some (l, rest)) :
    (∃ d r, cs = d :: r ∧ d.isDigit = true) ∧ Numeric cs rest := by
  simp only [readUnsigned, readWhole, Option.bind_eq_bind, Option.bind_eq_some_iff,
    Option.pure_def, Option.some.injEq, Prod.mk.injEq, Prod.exists] at h
  obtain ⟨whole, r₁, ⟨ds, r₂, hds, hwhole⟩, fraction, r₃, hfraction, exponent, r₄, hexponent, -,
    rfl⟩ := h
  split at hwhole
  · cases hwhole
  · obtain ⟨-, rfl⟩ := Prod.mk.inj (Option.some.inj hwhole)
    obtain ⟨⟨d, ds', rfl⟩, rfl, hdigits⟩ := exists_digits hds
    refine ⟨⟨d, _, rfl, hdigits d List.mem_cons_self⟩, (numeric_readDigits hds).trans ?_⟩
    exact (numeric_readFraction hfraction).trans (numeric_readExponent hexponent)

/-- The sign of a number stands before a digit. -/
lemma numeric_readLiteral {l : Literal} (h : readLiteral cs = some (l, rest)) :
    (∃ d r, (cs = d :: r ∨ cs = '-' :: d :: r) ∧ d.isDigit = true) ∧ Numeric cs rest := by
  rw [readLiteral.eq_def] at h
  split at h
  · obtain ⟨⟨d, r, rfl, hd⟩, hnumeric⟩ := numeric_readUnsigned h
    exact ⟨⟨d, r, .inr rfl, hd⟩, hnumeric.cons (by decide)⟩
  · obtain ⟨⟨d, r, rfl, hd⟩, hnumeric⟩ := numeric_readUnsigned h
    exact ⟨⟨d, r, .inl rfl, hd⟩, hnumeric⟩

/-- What words begin with: a letter, a digit, or a sign before a digit. -/
inductive BeginsWord : List Char → Prop
  | alphanumeric {c : Char} {cs : List Char} (hc : c.isAlphanum = true) : BeginsWord (c :: cs)
  | sign {d : Char} {cs : List Char} (hd : d.isDigit = true) : BeginsWord ('-' :: d :: cs)

/-- A number begins with a digit or a minus sign. -/
lemma beginsWord_readLiteral {l : Literal} (h : readLiteral cs = some (l, rest))
    (after : List Char) : BeginsWord (cs ++ after) := by
  obtain ⟨⟨d, r, rfl | rfl, hd⟩, -⟩ := numeric_readLiteral h
  · exact .alphanumeric (by simp [Char.isAlphanum, hd])
  · exact .sign hd

/-- A spelling without quotes is a word that both languages take for the value. -/
lemma SpellsWord.exists_word {v : Value} (h : SpellsWord cs v rest) :
    BeginsWord cs ∧ ∃ word, cs = word ++ rest ∧ word ≠ [] ∧ (∀ c ∈ word, IsWordChar c) ∧
      Yaml.plainValue? (String.ofList word) = some v := by
  cases h with
  | null => exact ⟨.alphanumeric rfl, ['n', 'u', 'l', 'l'], rfl, by simp, by simp [IsWordChar], rfl⟩
  | true =>
      exact ⟨.alphanumeric rfl, ['t', 'r', 'u', 'e'], rfl, by simp, by simp [IsWordChar], rfl⟩
  | false =>
      exact ⟨.alphanumeric rfl, ['f', 'a', 'l', 's', 'e'], rfl, by simp, by simp [IsWordChar], rfl⟩
  | @number word rest l n hread hends hjson hyaml =>
      refine ⟨beginsWord_readLiteral hread rest, word, rfl, ?_, ?_, hyaml⟩
      · rintro rfl
        exact Nat.lt_irrefl _ (length_readLiteral hread)
      · obtain ⟨-, word', heq, hword'⟩ := numeric_readLiteral hread
        rw [List.append_nil] at heq
        rwa [heq]

/-! ### Lengths -/

/-- A spelling takes a character at least, its last quote. -/
lemma SpellsText.length_lt {s : List Char} (h : SpellsText cs s rest) :
    rest.length < cs.length := by
  induction h with
  | nil => simp
  | plain _ _ _ _ _ ih | escape _ _ ih | unit _ _ _ ih =>
      simp only [List.length_cons]
      omega

lemma SpellsScalar.length_lt {v : Value} (h : SpellsScalar cs v rest) :
    rest.length < cs.length := by
  cases h with
  | string h => exact h.length_lt.trans (Nat.lt_succ_self _)
  | word h =>
      obtain ⟨-, word, rfl, hne, -⟩ := h.exists_word
      rw [List.length_append]
      exact Nat.lt_add_of_pos_left (List.length_pos_iff.2 hne)

/-! ### What comes after a spelling -/

variable {after : List Char}

/-- More text behind digits is left over, if it does not go on with the number. -/
lemma readDigits_append_after {ds : List Char} (h : readDigits cs = some (ds, rest))
    (hafter : EndsNumber after) : readDigits (cs ++ after) = some (ds, rest ++ after) := by
  obtain ⟨⟨d, ds', hne⟩, rfl, hds⟩ := exists_digits h
  have hrest : rest = (ds ++ rest).dropWhile Char.isDigit := by
    rw [readDigits] at h
    split at h
    · cases h
    · exact (Prod.mk.inj (Option.some.inj h)).2.symm
  rw [List.append_assoc]
  refine readDigits_append (by simp [hne]) hds fun c hc => ?_
  cases rest with
  | nil => exact (hafter c hc).1
  | cons e rest =>
      have hhead := List.head?_dropWhile_not Char.isDigit (ds ++ e :: rest)
      rw [← hrest] at hhead
      obtain rfl : e = c := Option.some.inj hc
      simpa using hhead

lemma readFraction_append {ds : Option (List Char)} (h : readFraction cs = some (ds, rest))
    (hafter : EndsNumber after) : readFraction (cs ++ after) = some (ds, rest ++ after) := by
  rw [readFraction.eq_def] at h
  split at h
  · obtain ⟨digits, hread, rfl⟩ := exists_read h
    rw [List.cons_append, readFraction, readDigits_append_after hread hafter]
    rfl
  · next hpoint =>
    obtain ⟨rfl, rfl⟩ := Prod.mk.inj (Option.some.inj h)
    cases cs with
    | nil => exact readFraction_of_endsNumber hafter
    | cons c r =>
        rw [readFraction]
        exact fun r' heq => hpoint r (congrArg (· :: r) (List.cons.inj heq).1)

/-- Neither a sign nor the digits of an exponent reach into it. -/
lemma readPower_append {n : ℤ} (h : readPower cs = some (n, rest)) (hafter : EndsNumber after) :
    readPower (cs ++ after) = some (n, rest ++ after) := by
  rw [readPower.eq_def] at h
  split at h
  · obtain ⟨digits, hread, rfl⟩ := exists_read (f := fun ds => (Text.decimalValue ds : ℤ)) h
    rw [List.cons_append, readPower, readDigits_append_after hread hafter]
    rfl
  · obtain ⟨digits, hread, rfl⟩ := exists_read (f := fun ds => -(Text.decimalValue ds : ℤ)) h
    rw [List.cons_append, readPower, readDigits_append_after hread hafter]
    rfl
  · next hplus hminus =>
    obtain ⟨digits, hread, rfl⟩ := exists_read (f := fun ds => (Text.decimalValue ds : ℤ)) h
    obtain ⟨⟨d, ds, rfl⟩, rfl, -⟩ := exists_digits hread
    rw [readPower, readDigits_append_after hread hafter]
    · rfl
    · exact fun r heq => hplus _ (congrArg (· :: (ds ++ rest)) (List.cons.inj heq).1)
    · exact fun r heq => hminus _ (congrArg (· :: (ds ++ rest)) (List.cons.inj heq).1)

lemma readExponent_append {n : Option ℤ} (h : readExponent cs = some (n, rest))
    (hafter : EndsNumber after) : readExponent (cs ++ after) = some (n, rest ++ after) := by
  rw [readExponent.eq_def] at h
  split at h
  · obtain ⟨m, hread, rfl⟩ := exists_read h
    rw [List.cons_append, readExponent, readPower_append hread hafter]
    rfl
  · obtain ⟨m, hread, rfl⟩ := exists_read h
    rw [List.cons_append, readExponent, readPower_append hread hafter]
    rfl
  · next hsmall hlarge =>
    obtain ⟨rfl, rfl⟩ := Prod.mk.inj (Option.some.inj h)
    cases cs with
    | nil => exact readExponent_of_endsNumber hafter
    | cons c r =>
        rw [readExponent]
        · exact fun r' heq => hsmall r (congrArg (· :: r) (List.cons.inj heq).1)
        · exact fun r' heq => hlarge r (congrArg (· :: r) (List.cons.inj heq).1)

lemma readUnsigned_append {negative : Bool} {l : Literal}
    (h : readUnsigned negative cs = some (l, rest)) (hafter : EndsNumber after) :
    readUnsigned negative (cs ++ after) = some (l, rest ++ after) := by
  simp only [readUnsigned, readWhole, Option.bind_eq_bind, Option.bind_eq_some_iff,
    Option.pure_def, Option.some.injEq, Prod.mk.injEq, Prod.exists] at h
  obtain ⟨whole, r₁, ⟨ds, r₂, hds, hwhole⟩, fraction, r₃, hfraction, exponent, r₄, hexponent, rfl,
    rfl⟩ := h
  split at hwhole
  · cases hwhole
  · next hzero =>
    obtain ⟨rfl, rfl⟩ := Prod.mk.inj (Option.some.inj hwhole)
    simp [readUnsigned, readWhole, readDigits_append_after hds hafter, hzero,
      readFraction_append hfraction hafter, readExponent_append hexponent hafter]

/-- A number is read alike whatever comes after it that cannot go on with it. -/
lemma readLiteral_append {l : Literal} (h : readLiteral cs = some (l, rest))
    (hafter : EndsNumber after) : readLiteral (cs ++ after) = some (l, rest ++ after) := by
  rw [readLiteral.eq_def] at h
  split at h
  · rw [List.cons_append, readLiteral]
    exact readUnsigned_append h hafter
  · next hminus =>
    obtain ⟨⟨d, r, rfl, -⟩, -⟩ := numeric_readUnsigned h
    rw [readLiteral]
    · exact readUnsigned_append h hafter
    · exact fun r' heq => hminus r (congrArg (· :: r) (List.cons.inj heq).1)

/-- A text that may come after a spelling: no number goes on with it, and no blank begins it. -/
structure Follows (after : List Char) : Prop where
  endsNumber : EndsNumber after
  skipSpace_eq : skipSpace after = after

/-- Anything may stand behind a closing quote. -/
lemma SpellsText.append {s : List Char} (h : SpellsText cs s rest) (after : List Char) :
    SpellsText (cs ++ after) s (rest ++ after) := by
  induction h with
  | nil => exact .nil
  | plain hquote hbackslash hcontrol hbreak _ ih =>
      exact .plain hquote hbackslash hcontrol hbreak ih
  | escape he _ ih => exact .escape he ih
  | unit hn hvalid _ ih => exact .unit hn hvalid ih

/-- If no number goes on behind a text, none does behind more text either. -/
lemma EndsNumber.append (h : EndsNumber rest) (hafter : EndsNumber after) :
    EndsNumber (rest ++ after) := by
  cases rest with
  | nil => exact hafter
  | cons c r => exact endsNumber_cons _ (h c rfl)

lemma SpellsScalar.append {v : Value} (h : SpellsScalar cs v rest) (hafter : EndsNumber after) :
    SpellsScalar (cs ++ after) v (rest ++ after) := by
  cases h with
  | string h => exact .string (h.append after)
  | word h =>
      cases h with
      | null => exact .word .null
      | true => exact .word .true
      | false => exact .word .false
      | number hread hends hjson hyaml =>
          rw [List.append_assoc]
          exact .word (.number hread (hends.append hafter) hjson hyaml)

lemma skipSpace_of_cons {c : Char} {r : List Char} (h : skipSpace cs = c :: r) :
    isSpace c = false := by
  have hhead := List.head?_dropWhile_not isSpace cs
  rw [← skipSpace, h] at hhead
  simpa using hhead

/-- What is skipped stays the same if more text that begins with no blank is put behind. -/
lemma skipSpace_append (h : skipSpace after = after) (cs : List Char) :
    skipSpace (cs ++ after) = skipSpace cs ++ after := by
  induction cs with
  | nil => exact h
  | cons c cs ih =>
      by_cases hc : isSpace c = true
      · rw [List.cons_append, skipSpace, skipSpace, List.dropWhile_cons_of_pos hc,
          List.dropWhile_cons_of_pos hc]
        exact ih
      · have hc : isSpace c = false := by simpa using hc
        rw [List.cons_append, skipSpace_cons _ hc, skipSpace_cons _ hc, List.cons_append]

section Sequence

variable {α : Type} {item : List Char → α → List Char → Prop} {close : Char} {xs : List α}

lemma SpellsMore.append (hafter : Follows after)
    (hitem : ∀ {cs x rest}, item cs x rest → item (cs ++ after) x (rest ++ after))
    (h : SpellsMore item close cs xs rest) :
    SpellsMore item close (cs ++ after) xs (rest ++ after) := by
  have hskip := skipSpace_append hafter.skipSpace_eq
  induction h with
  | close hclose => exact .close (by rw [hskip, hclose, List.cons_append])
  | comma hcomma hx _ ih =>
      refine .comma (by rw [hskip, hcomma, List.cons_append]) ?_ ih
      rw [hskip]
      exact hitem hx

lemma SpellsSequence.append (hafter : Follows after)
    (hitem : ∀ {cs x rest}, item cs x rest → item (cs ++ after) x (rest ++ after))
    (h : SpellsSequence item close cs xs rest) :
    SpellsSequence item close (cs ++ after) xs (rest ++ after) := by
  have hskip := skipSpace_append hafter.skipSpace_eq
  cases h with
  | empty hclose => exact .empty (by rw [hskip, hclose, List.cons_append])
  | items hx hxs =>
      refine .items ?_ (hxs.append hafter hitem)
      rw [hskip]
      exact hitem hx

section Respell

variable {β : Type} {item' : List Char → β → List Char → Prop} {R : β → α → Prop}

/-- If every item can be spelled as a related one, so can the items that follow. -/
lemma SpellsMore.exists_forall₂ (h : SpellsMore item close cs xs rest)
    (hitem : ∀ {cs x rest}, item cs x rest → ∃ y, item' cs y rest ∧ R y x) :
    ∃ ys, SpellsMore item' close cs ys rest ∧ List.Forall₂ R ys xs := by
  induction h with
  | close hclose => exact ⟨[], .close hclose, .nil⟩
  | comma hcomma hx _ ih =>
      obtain ⟨y, hy, hR⟩ := hitem hx
      obtain ⟨ys, hys, hRs⟩ := ih
      exact ⟨y :: ys, .comma hcomma hy hys, .cons hR hRs⟩

/-- A sequence is spelled in another way if its items are. -/
lemma SpellsSequence.exists_forall₂ (h : SpellsSequence item close cs xs rest)
    (hitem : ∀ {cs x rest}, item cs x rest → ∃ y, item' cs y rest ∧ R y x) :
    ∃ ys, SpellsSequence item' close cs ys rest ∧ List.Forall₂ R ys xs := by
  cases h with
  | empty hclose => exact ⟨[], .empty hclose, .nil⟩
  | items hx hxs =>
      obtain ⟨y, hy, hR⟩ := hitem hx
      obtain ⟨ys, hys, hRs⟩ := hxs.exists_forall₂ hitem
      exact ⟨y :: ys, .items hy hys, .cons hR hRs⟩

end Respell

end Sequence

lemma byteLength_append (cs cs' : List Char) :
    byteLength (cs ++ cs') = byteLength cs + byteLength cs' := by
  simp [byteLength]

/-- A key is as long as it was, so a member may have more text behind it. -/
lemma SpellsMember.append {value : List Char → Value → List Char → Prop} {m : String × Value}
    (hafter : Follows after)
    (hvalue : ∀ {cs v rest}, value cs v rest → value (cs ++ after) v (rest ++ after))
    (h : SpellsMember value cs m rest) : SpellsMember value (cs ++ after) m (rest ++ after) := by
  cases h with
  | @member key s behind colon rest v hkey hcolon hlength hv =>
      have hcolon : (behind ++ after).dropWhile Yaml.isBlank = ':' :: (colon ++ after) := by
        rw [List.dropWhile_append, hcolon]
        rfl
      refine .member (hkey.append after) hcolon ?_ ?_
      · show byteLength ('"' :: key ++ after) ≤ byteLength (':' :: colon ++ after) + _
        rw [byteLength_append, byteLength_append]
        omega
      · rw [skipSpace_append hafter.skipSpace_eq]
        exact hvalue hv

/-- What is spelled stays spelled if more comes after it. -/
lemma Spells.append (hafter : Follows after) (depth : ℕ) {cs rest : List Char} {v : Value}
    (h : Spells depth cs v rest) : Spells depth (cs ++ after) v (rest ++ after) := by
  induction depth generalizing cs v rest with
  | zero => exact SpellsScalar.append h hafter.endsNumber
  | succ depth ih =>
      rcases h with h | ⟨inner, vs, rfl, rfl, h⟩ | ⟨inner, ms, rfl, rfl, h⟩
      · exact .inl (h.append hafter.endsNumber)
      · exact .inr (.inl ⟨_, _, rfl, rfl, h.append hafter ih⟩)
      · exact .inr (.inr ⟨_, _, rfl, rfl, h.append hafter fun h => h.append hafter ih⟩)

lemma SpellsObject.append (hafter : Follows after) {depth : ℕ} {ms : Members}
    (h : SpellsObject depth cs ms rest) : SpellsObject depth (cs ++ after) ms (rest ++ after) := by
  obtain ⟨inner, written, rfl, rfl, h⟩ := h
  exact ⟨_, _, rfl, rfl, h.append hafter fun h => h.append hafter (Spells.append hafter depth)⟩

end BrokerPolicy.Json
