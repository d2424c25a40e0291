import BrokerPolicy.Proofs.Json.Spelling

/-!
Whatever is spelled is read.

The reader of JSON takes a spelling and leaves what comes after it: `readScalar_of_spells` for texts
and words, one lemma for all sequences (`readSequence_of_spells`), and `readValue_of_spells` by
induction on the depth. An item is read wherever blanks come before it, and takes a character at
least (`ReadBy`), so the fuel of a sequence lasts.
-/

namespace BrokerPolicy.Json

variable {cs rest : List Char}

/-! ### Reading texts and words -/

/-- The characters of a text are read whichever way each of them is spelled. -/
lemma readChars_of_spells {s : List Char} (h : SpellsText cs s rest) :
    readChars cs = some (s, rest) := by
  induction h with
  | nil => rw [readChars]
  | plain hquote hbackslash hcontrol _ _ ih =>
      rw [readChars_cons_of_plain hquote hbackslash hcontrol, ih]
      rfl
  | @escape c e cs s rest he _ ih =>
      have hu : c ≠ 'u' := by
        rintro rfl
        cases he
      rw [readChars]
      · simp [he, ih]
      · rintro a b c' d rest' rfl
        exact absurd rfl hu
  | @unit a b c d n cs s rest hn hvalid _ ih =>
      have hlow : ¬(0xDC00 ≤ n ∧ n < 0xE000) := by rcases hvalid with h | ⟨h, -⟩ <;> omega
      have hhigh : ¬(0xD800 ≤ n ∧ n < 0xDC00) := by rcases hvalid with h | ⟨h, -⟩ <;> omega
      simp only [readChars, hn, hlow, hhigh, if_false, ih, Option.map_some]

lemma readText_of_spells {s : List Char} (h : SpellsText cs s rest) :
    readText cs = some (String.ofList s, rest) := by
  rw [readText, readChars_of_spells h]
  rfl

/-- What does not nest is read as it is spelled. -/
lemma readScalar_of_spells {v : Value} (h : SpellsScalar cs v rest) :
    readScalar cs = some (v, rest) := by
  cases h with
  | string h =>
      rw [readScalar, readText_of_spells h]
      rfl
  | word h =>
      cases h with
      | null | true | false => rfl
      | @number word rest l n hread hends hjson _ =>
          have hread := readLiteral_append hread hends
          obtain ⟨⟨d, r, hcs, hd⟩, -⟩ := numeric_readLiteral hread
          rw [readScalar]
          · simp [hread, hjson]
          -- no other spelling begins with a sign or a digit
          all_goals
            intro r' heq
            rw [heq] at hcs
            rcases hcs with hcs | hcs
            · obtain ⟨rfl, -⟩ := List.cons.inj hcs
              cases hd
            · cases (List.cons.inj hcs).1

/-! ### Reading what nests -/

section Sequence

variable {α : Type} {item : List Char → α → List Char → Prop} {read : Reader α} {close : Char}
  {xs : List α}

/-- An item takes a character at least, and what reads it may come upon it after blanks. -/
def ReadBy (read : Reader α) (item : List Char → α → List Char → Prop) : Prop :=
  ∀ ⦃cs x rest⦄, item (skipSpace cs) x rest →
    read cs = some (x, rest) ∧ rest.length < (skipSpace cs).length

/-- Further items are read as they are spelled, with fuel for every character that is left. -/
lemma readMore_of_spells (hread : ReadBy read item) (hclose : close ≠ ',')
    (h : SpellsMore item close cs xs rest) :
    rest.length < cs.length ∧
      ∀ fuel, cs.length ≤ fuel → readMore read close fuel cs = some (xs, rest) := by
  induction h with
  | close hcs =>
      refine ⟨length_lt_of_skipSpace hcs, fun fuel hfuel => ?_⟩
      have hlength := length_lt_of_skipSpace hcs
      obtain ⟨fuel, rfl⟩ : ∃ n, fuel = n + 1 := Nat.exists_eq_succ_of_ne_zero (by omega)
      rw [readMore, hcs]
      simp
  | @comma cs after more rest x xs hcomma hx _ ih =>
      obtain ⟨hxread, hxlength⟩ := hread hx
      have hlength := length_lt_of_skipSpace hcomma
      have hafter := length_skipSpace_le after
      refine ⟨by omega, fun fuel hfuel => ?_⟩
      obtain ⟨fuel, rfl⟩ : ∃ n, fuel = n + 1 := Nat.exists_eq_succ_of_ne_zero (by omega)
      rw [readMore, hcomma]
      simp [hclose.symm, hxread, ih.2 fuel (by omega)]

/-- Whatever reads an item reads a sequence of them. -/
lemma readSequence_of_spells (hread : ReadBy read item) (hclose : close ≠ ',')
    (hbegin : ∀ {cs x rest}, item cs x rest → ∀ r, cs ≠ close :: r)
    (h : SpellsSequence item close cs xs rest) :
    readSequence read close cs = some (xs, rest) ∧ rest.length < cs.length := by
  cases h with
  | empty hcs =>
      refine ⟨?_, length_lt_of_skipSpace hcs⟩
      rw [readSequence, hcs]
      simp
  | items hx hxs =>
      obtain ⟨hmore, hxs⟩ := readMore_of_spells hread hclose hxs
      have hxlength := (hread hx).2
      have hskip := length_skipSpace_le cs
      refine ⟨?_, by omega⟩
      -- no item begins with the close, so this is the first item (`hbegin`)
      cases hcs : skipSpace cs with
      | nil =>
          rw [hcs] at hxlength
          exact absurd hxlength (Nat.not_lt_zero _)
      | cons c r =>
          have hc : c ≠ close := fun hc => hbegin hx r (hc ▸ hcs)
          have hidem : skipSpace (c :: r) = skipSpace cs := by
            rw [hcs, skipSpace_cons r (skipSpace_of_cons hcs)]
          rw [← hidem] at hx
          have hxread := (hread hx).1
          rw [hcs, List.length_cons] at hxlength
          rw [readSequence, hcs]
          simp [hc, hxread, hxs _ le_rfl]

end Sequence

/-- A member is read if its value is. -/
lemma readMember_of_spells {value : List Char → Value → List Char → Prop} {read : Reader Value}
    (hread : ReadBy read value) : ReadBy (readMember read) (SpellsMember value) := by
  intro cs m rest h
  generalize hcs : skipSpace cs = begun at h
  cases h with
  | @member key s after colon rest v hkey hcolon _ hv =>
      obtain ⟨hvread, hvlength⟩ := hread hv
      have hskip : skipSpace after = ':' :: colon := by
        -- before a colon there are spaces and tabs only, which the reader skips as white space
        have hblank : ∀ c, Yaml.isBlank c = true → isSpace c = true := by
          intro c hc
          simp only [Yaml.isBlank, Bool.or_eq_true, beq_iff_eq] at hc
          rcases hc with rfl | rfl <;> rfl
        rw [← List.takeWhile_append_dropWhile (p := Yaml.isBlank) (l := after), hcolon, skipSpace,
          List.dropWhile_append_of_pos fun c hc =>
            hblank c (List.all_eq_true.1 List.all_takeWhile c hc)]
        rfl
      have hlength := hkey.length_lt
      have hcolonLength := length_lt_of_skipSpace hskip
      have hvalueLength := length_skipSpace_le colon
      rw [readMember, readKey, hcs]
      refine ⟨?_, ?_⟩
      · simp [readText_of_spells hkey, hskip, hvread]
      · rw [List.length_cons]
        omega

/-- A scalar begins with a quote or like a word. -/
lemma SpellsScalar.ne_cons {v : Value} (h : SpellsScalar cs v rest) {c : Char}
    (hc : c.isAlphanum = false) (hsign : c ≠ '-') (hquote : c ≠ '"') (r : List Char) :
    cs ≠ c :: r := by
  rintro rfl
  cases h with
  | string h => exact hquote rfl
  | word h =>
      obtain ⟨hbegins, -⟩ := h.exists_word
      cases hbegins with
      | alphanumeric hc' => exact absurd (hc.symm.trans hc') (by decide)
      | sign hd => exact hsign rfl

/-- A value begins like a scalar or with an opening bracket. -/
lemma Spells.ne_cons {depth : ℕ} {v : Value} (h : Spells depth cs v rest) {c : Char}
    (hc : c.isAlphanum = false) (hsign : c ≠ '-') (hquote : c ≠ '"') (harray : c ≠ '[')
    (hobject : c ≠ '\x7b') (r : List Char) : cs ≠ c :: r := by
  cases depth with
  | zero => exact SpellsScalar.ne_cons h hc hsign hquote r
  | succ depth =>
      rcases h with h | ⟨inner, vs, rfl, -, -⟩ | ⟨inner, ms, rfl, -, -⟩
      · exact h.ne_cons hc hsign hquote r
      · exact fun heq => harray (List.cons.inj heq).1.symm
      · exact fun heq => hobject (List.cons.inj heq).1.symm

/-- A member begins with a quote. -/
lemma SpellsMember.ne_cons {value : List Char → Value → List Char → Prop} {m : String × Value}
    (h : SpellsMember value cs m rest) {c : Char} (hquote : c ≠ '"') (r : List Char) :
    cs ≠ c :: r := by
  rintro rfl
  cases h
  exact hquote rfl

/-- **What is spelled is read.** -/
theorem readValue_of_spells (depth : ℕ) : ReadBy (readValue depth) (Spells depth) := by
  -- on the depth: what an array or an object holds is spelled at one depth less
  induction depth with
  | zero =>
      intro cs v rest h
      exact ⟨readScalar_of_spells h, SpellsScalar.length_lt h⟩
  | succ depth ih =>
      intro cs v rest h
      rcases h with h | ⟨inner, vs, hcs, rfl, h⟩ | ⟨inner, ms, hcs, rfl, h⟩
      · refine ⟨?_, h.length_lt⟩
        rw [readValue]
        split
        -- a scalar opens no bracket, so only the last branch of the reader is left
        · next heq => exact absurd heq (h.ne_cons (by decide) (by decide) (by decide) _)
        · next heq => exact absurd heq (h.ne_cons (by decide) (by decide) (by decide) _)
        · exact readScalar_of_spells h
      · obtain ⟨hvs, hlength⟩ := readSequence_of_spells ih (by decide)
          (fun h => h.ne_cons (by decide) (by decide) (by decide) (by decide) (by decide)) h
        rw [readValue, hcs]
        exact ⟨by simp [hvs], hlength.trans (Nat.lt_succ_self _)⟩
      · obtain ⟨hms, hlength⟩ := readSequence_of_spells (readMember_of_spells ih) (by decide)
          (fun h => h.ne_cons (by decide)) h
        rw [readValue, hcs]
        exact ⟨by simp [readMembers, hms], hlength.trans (Nat.lt_succ_self _)⟩

/-- An object is read as it is spelled. -/
lemma readObject_of_spells (depth : ℕ) : ReadBy (readObject depth) (SpellsObject depth) := by
  rintro cs - rest ⟨inner, ms, hcs, rfl, h⟩
  have hmember := readMember_of_spells (readValue_of_spells depth)
  obtain ⟨hms, hlength⟩ := readSequence_of_spells hmember (by decide)
    (fun h => h.ne_cons (by decide)) h
  rw [readObject, hcs]
  exact ⟨by simp [readMembers, hms], hlength.trans (Nat.lt_succ_self _)⟩

/-- A list of objects that is spelled as a document is read. -/
lemma parseList?_of_spells {text : String} {xs : List Members}
    (h : SpellsList (depthLimit - 2) text.toList xs) : Members.parseList? text = some xs := by
  obtain ⟨inner, rest, htext, h, hrest⟩ := h
  obtain ⟨hxs, -⟩ := readSequence_of_spells (readObject_of_spells _) (by decide)
    (fun ⟨_, _, hcs, _⟩ r hr => by cases hcs.symm.trans hr) h
  rw [Members.parseList?, whole?, readList, htext]
  simp [hxs, hrest]

end BrokerPolicy.Json
