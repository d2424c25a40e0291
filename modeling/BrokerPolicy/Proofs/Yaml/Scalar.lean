import BrokerPolicy.Proofs.Json.Spelling

/-!
The scalars of JSON, read as YAML.

A text in quotes is taken word by word, with the blanks between the words (`takesQuoted_of_spells`,
`takeGap_of_spells`), and no line ends in it, so the cursor behind it is `SameLine` with the one
before: `quotedFrom_of_spells`. A word is taken with the blanks behind it, which are not part of it:
`plainScalar_of_word`.
-/

namespace BrokerPolicy.Yaml

open Json

/-! ### Places -/

/-- The second cursor stands behind the first, on the same line. -/
structure SameLine (s t : Cursor) : Prop where
  line : t.place.line = s.place.line
  column : s.place.column ≤ t.place.column
  index : t.place.index + byteLength t.rest = s.place.index + byteLength s.rest

namespace SameLine

variable {s t u : Cursor}

lemma refl (s : Cursor) : SameLine s s :=
  ⟨rfl, le_rfl, rfl⟩

lemma trans (h : SameLine s t) (h' : SameLine t u) : SameLine s u :=
  ⟨h'.line.trans h.line, h.column.trans h'.column, h'.index.trans h.index⟩

/-- A character is passed over on its line. -/
lemma next (c : Char) (cs : List Char) (p : Place) : SameLine ⟨c :: cs, p⟩ ⟨cs, p.next c⟩ := by
  refine ⟨rfl, Nat.le_succ _, ?_⟩
  simp only [Place.next, byteLength, List.map_cons, List.sum_cons]
  omega

end SameLine

/-- Behind a character, the place is no start of a line. -/
lemma column_next_ne_zero (p : Place) (c : Char) : (p.next c).column ≠ 0 :=
  Nat.succ_ne_zero _

/-! ### Texts in quotes -/

variable {cs s rest : List Char}

/-- The text up to its first blank or to its end is taken, and the rest of it is still spelled. -/
def TakesQuoted (fuel : ℕ) (cs : List Char) (p : Place) (s rest : List Char) : Prop :=
  ∃ word s' cs' p', s = word ++ s' ∧
    takeQuoted false fuel ⟨cs, p⟩ = some (word, false, ⟨cs', p'⟩) ∧
    SameLine ⟨cs, p⟩ ⟨cs', p'⟩ ∧ SpellsText cs' s' rest ∧ cs'.length ≤ cs.length ∧
    (cs' = '"' :: rest ∧ s' = [] ∨ ∃ r, cs' = ' ' :: r)

/-- One more character is taken in front, and all stays on the line. -/
lemma TakesQuoted.cons {c : Char} {cs₀ : List Char} {p p₀ : Place} {fuel : ℕ}
    (h : TakesQuoted fuel cs p s rest) (hline : SameLine ⟨cs₀, p₀⟩ ⟨cs, p⟩)
    (hlength : cs.length ≤ cs₀.length)
    (htake : takeQuoted false (fuel + 1) ⟨cs₀, p₀⟩ =
      (takeQuoted false fuel ⟨cs, p⟩).map fun (w, escaped, t) => (c :: w, escaped, t)) :
    TakesQuoted (fuel + 1) cs₀ p₀ (c :: s) rest := by
  obtain ⟨word, s', cs', p', rfl, hword, hline', hspells, hle, hend⟩ := h
  refine ⟨c :: word, s', cs', p', rfl, ?_, hline.trans hline', hspells, hle.trans hlength, hend⟩
  rw [htake, hword]
  rfl

/-- What a letter stands for after a backslash in JSON it stands for in YAML. -/
lemma escape?_of_simple {c e : Char} (h : Json.simpleEscape? c = some e) (r : List Char) :
    escape? (c :: r) = some (e, 1) ∧ isBreak c = false := by
  unfold Json.simpleEscape? at h
  split at h <;> cases h
  all_goals exact ⟨rfl, rfl⟩

/-- Four hexadecimal digits are read as the code point they name. -/
lemma escape?_of_unit {a b c d : Char} {n : ℕ} (h : hexUnit? a b c d = some n)
    (hvalid : n.isValidChar) (r : List Char) :
    escape? ('u' :: a :: b :: c :: d :: r) = some (Char.ofNat n, 5) := by
  rw [hexUnit?] at h
  split at h
  · next hhex =>
    obtain rfl := Option.some.inj h
    simp only [escape?, hexEscapeLength?, List.take_succ_cons, List.take_zero, List.length_cons,
      List.length_nil, hhex, hvalid, and_self, if_true]
  · cases h

lemma isBlank_backslash : isBlank '\\' = false :=
  rfl

lemma isBreak_backslash : isBreak '\\' = false :=
  rfl

/-- **A string is taken as it is spelled**, from any place, without leaving the line. -/
lemma takesQuoted_of_spells (h : SpellsText cs s rest) (p : Place) {fuel : ℕ}
    (hfuel : cs.length < fuel) : TakesQuoted fuel cs p s rest := by
  -- along the spelling: the scanner takes a run up to the next blank, so each case either adds one
  -- character to the run or ends it
  induction h generalizing p fuel with
  | @nil rest =>
      obtain ⟨fuel, rfl⟩ : ∃ n, fuel = n + 1 := Nat.exists_eq_succ_of_ne_zero (by omega)
      exact ⟨[], [], _, p, rfl, rfl, .refl _, .nil, le_rfl, .inl ⟨rfl, rfl⟩⟩
  | @plain c cs s rest hquote hbackslash hcontrol hbreak h ih =>
      obtain ⟨fuel, rfl⟩ : ∃ n, fuel = n + 1 := Nat.exists_eq_succ_of_ne_zero (by omega)
      by_cases hspace : c = ' '
      · subst hspace
        exact ⟨[], ' ' :: s, ' ' :: cs, p, rfl, rfl, .refl _,
          .plain hquote hbackslash hcontrol hbreak h, le_rfl, .inr ⟨cs, rfl⟩⟩
      · have hblank : isBlank c = false := by
          have htab : c ≠ '\t' := by
            rintro rfl
            exact absurd hcontrol (by decide)
          simp [isBlank, hspace, htab]
        refine (ih (p.next c) (Nat.lt_of_succ_lt_succ hfuel)).cons (.next c cs p)
          (Nat.le_succ _) ?_
        simp [takeQuoted, Cursor.peek?, hblank, hbreak, hquote, hbackslash, Cursor.skip]
  | @escape c e cs s rest he h ih =>
      obtain ⟨fuel, rfl⟩ : ∃ n, fuel = n + 1 := Nat.exists_eq_succ_of_ne_zero (by omega)
      obtain ⟨hescape, hbreak⟩ := escape?_of_simple he cs
      simp only [List.length_cons] at hfuel
      have hline := (SameLine.next '\\' (c :: cs) p).trans (.next c cs _)
      refine (ih ((p.next '\\').next c) (by omega)).cons hline
        (by simp only [List.length_cons]; omega) ?_
      simp [takeQuoted, Cursor.peek?, Cursor.peekAt?, isBlank_backslash, isBreak_backslash, hbreak,
        Cursor.skip, hescape, Cursor.skipMany, Nat.repeat]
  | @unit a b c d n cs s rest hn hvalid h ih =>
      obtain ⟨fuel, rfl⟩ : ∃ n, fuel = n + 1 := Nat.exists_eq_succ_of_ne_zero (by omega)
      have hescape := escape?_of_unit hn hvalid cs
      simp only [List.length_cons] at hfuel
      let p' := (((((p.next '\\').next 'u').next a).next b).next c).next d
      have hline : SameLine ⟨'\\' :: 'u' :: a :: b :: c :: d :: cs, p⟩ ⟨cs, p'⟩ :=
        (SameLine.next _ _ _).trans <| (SameLine.next _ _ _).trans <|
          (SameLine.next _ _ _).trans <| (SameLine.next _ _ _).trans <|
          (SameLine.next _ _ _).trans (.next d cs _)
      refine (ih p' (by omega)).cons hline (by simp only [List.length_cons]; omega) ?_
      simp [takeQuoted, Cursor.peek?, Cursor.peekAt?, isBlank_backslash, isBreak, Cursor.skip,
        hescape, Cursor.skipMany, Nat.repeat, p']

/-- The blanks in a text are kept. -/
lemma takeGap_of_spells (h : SpellsText cs s rest) (p : Place) :
    ∃ gap s' cs' p', s = gap ++ s' ∧
      Cursor.takeGap.go 0 false cs p = some ({ blanks := gap }, ⟨cs', p'⟩) ∧
      SameLine ⟨cs, p⟩ ⟨cs', p'⟩ ∧ SpellsText cs' s' rest ∧
      cs.length = gap.length + cs'.length := by
  -- only blanks written as such belong to the gap; an escaped one begins the next run
  induction h generalizing p with
  | @nil rest => exact ⟨[], [], _, p, rfl, rfl, .refl _, .nil, (Nat.zero_add _).symm⟩
  | @plain c cs s rest hquote hbackslash hcontrol hbreak h ih =>
      by_cases hspace : c = ' '
      · subst hspace
        obtain ⟨gap, s', cs', p', rfl, hgap, hline, hspells, hlength⟩ := ih (p.next ' ')
        refine ⟨' ' :: gap, s', cs', p', rfl, ?_, (SameLine.next ' ' cs p).trans hline, hspells, ?_⟩
        · rw [Cursor.takeGap.go]
          · simp [isBreak, isBlank, hgap]
          · simp
        · simp only [List.length_cons, hlength]
          omega
      · have hblank : isBlank c = false := by
          have htab : c ≠ '\t' := by
            rintro rfl
            exact absurd hcontrol (by decide)
          simp [isBlank, hspace, htab]
        refine ⟨[], c :: s, c :: cs, p, rfl, ?_, .refl _,
          .plain hquote hbackslash hcontrol hbreak h, (Nat.zero_add _).symm⟩
        rw [Cursor.takeGap.go]
        · simp [hbreak, hblank]
        · rintro r rfl
          cases hbreak
  | @escape c e cs s rest he h _ =>
      exact ⟨[], e :: s, _, p, rfl, rfl, .refl _, .escape he h, (Nat.zero_add _).symm⟩
  | @unit a b c d n cs s rest hn hvalid h _ =>
      exact ⟨[], Char.ofNat n :: s, _, p, rfl, rfl, .refl _, .unit hn hvalid h,
        (Nat.zero_add _).symm⟩

/-- No line of a document begins inside a text. -/
lemma quotedFrom_of_spells (h : SpellsText cs s rest) {p : Place} (hp : p.column ≠ 0) {fuel : ℕ}
    (hfuel : cs.length < fuel) : ∃ p',
    quotedFrom false fuel ⟨cs, p⟩ = some { content := s, cursor := ⟨rest, p'⟩ } ∧
      SameLine ⟨cs, p⟩ ⟨rest, p'⟩ := by
  -- the scanner alternates runs and gaps; what the rest spells is the invariant between them
  induction fuel generalizing cs s p with
  | zero => omega
  | succ fuel ih =>
      have hmark : (⟨cs, p⟩ : Cursor).atDocumentMark = false := by
        simp [Cursor.atDocumentMark, Cursor.column, hp]
      have hne : cs.isEmpty = false := by
        cases cs with
        | nil => cases h
        | cons c r => rfl
      obtain ⟨word, s', cs', p', rfl, hword, hline, hspells, hle, hend⟩ :=
        takesQuoted_of_spells h p hfuel
      have hcolumn := hline.column
      rcases hend with ⟨rfl, rfl⟩ | ⟨r, rfl⟩
      · refine ⟨p'.next '"', ?_, hline.trans (.next '"' rest p')⟩
        simp [quotedFrom, hmark, hne, hword, Cursor.starts, Cursor.peek?, Cursor.skip]
      · -- the gap takes the blank at least, so the fuel lasts
        cases hspells with
        | @plain _ _ s' _ _ _ _ _ hspells =>
            obtain ⟨gap, s', cs', p₁, rfl, hgap, hline', hspells, hlength⟩ :=
              takeGap_of_spells hspells (p'.next ' ')
            have hline₁ := hline.trans ((SameLine.next ' ' r p').trans hline')
            have htake : Cursor.takeGap 0 false ⟨' ' :: r, p'⟩ =
                some ({ blanks := ' ' :: gap }, ⟨cs', p₁⟩) := by
              rw [Cursor.takeGap, Cursor.takeGap.go]
              · simp [isBreak, isBlank, hgap]
              · simp
            have hp₁ : p₁.column ≠ 0 := by
              have hcolumn := hline₁.column
              dsimp only at hcolumn
              omega
            rw [List.length_cons] at hle
            obtain ⟨p₂, hmore, hline₂⟩ := ih hspells hp₁ (by omega)
            refine ⟨p₂, ?_, hline₁.trans hline₂⟩
            simp [quotedFrom, hmark, hne, hword, Cursor.starts, Cursor.peek?, htake, hmore,
              Gap.text]

/-! ### Words and what follows them -/

/-- The characters of words neither end a plain scalar nor have a meaning in it. -/
lemma isPlain_of_isWordChar {c : Char} (h : IsWordChar c) :
    isBlank c = false ∧ isBreak c = false ∧ isFlowMark c = false ∧ c ≠ ':' := by
  rcases h with h | h
  · have hne (d : Char) (hd : d.isAlphanum = false) : c ≠ d := by
      rintro rfl
      exact absurd (hd.symm.trans h) (by decide)
    simp [isBlank, isBreak, isFlowMark, hne ' ' rfl, hne '\t' rfl, hne '\n' rfl, hne '\r' rfl,
      hne '\u0085' rfl, hne '\u2028' rfl, hne '\u2029' rfl, hne ',' rfl, hne '[' rfl, hne ']' rfl,
      hne '\x7b' rfl, hne '\x7d' rfl, hne ':' rfl]
  · simp only [List.mem_cons, List.not_mem_nil, or_false] at h
    rcases h with rfl | rfl | rfl <;> exact ⟨rfl, rfl, rfl, by decide⟩

/-- A word inside brackets ends before a blank, a line end, a comma or a bracket. -/
def EndsWord (cs : List Char) : Prop :=
  ∀ c ∈ cs.head?, isBlank c = true ∨ isBreak c = true ∨ isFlowMark c = true

/-- A word is taken up to what ends it. -/
lemma takeWord_append (word : List Char) (hword : ∀ c ∈ word, IsWordChar c) (hrest : EndsWord rest)
    (p : Place) : ∃ p', takeWord true (word ++ rest) p = some (word, ⟨rest, p'⟩) := by
  -- on the word, whose end is told by what follows it and not by its last character
  induction word generalizing p with
  | nil =>
      refine ⟨p, ?_⟩
      cases rest with
      | nil => rfl
      | cons c r =>
          have hc := hrest c rfl
          have hcolon : isFlowMark c = true → c ≠ ':' := by
            rintro h rfl
            cases h
          rw [List.nil_append, takeWord]
          rcases hc with hc | hc | hc
          · simp [hc]
          · simp [hc]
          · by_cases hblank : isBlank c = true ∨ isBreak c = true
            · simp [hblank]
            · simp [hblank, hc, hcolon hc]
  | cons c word ih =>
      obtain ⟨hc, hword⟩ := List.forall_mem_cons.1 hword
      obtain ⟨hblank, hbreak, hmark, hcolon⟩ := isPlain_of_isWordChar hc
      obtain ⟨p', hp'⟩ := ih hword (p.next c)
      exact ⟨p', by simp [takeWord, hblank, hbreak, hmark, hcolon, hp']⟩

variable {c : Char} {r : List Char}

/-- One of the four blanks of JSON. -/
lemma isSpace_eq_true_iff : isSpace c = true ↔ c = ' ' ∨ c = '\t' ∨ c = '\n' ∨ c = '\r' := by
  simp [isSpace, or_assoc]

lemma skipSpace_cons_of_isSpace (hc : isSpace c = true) : skipSpace (c :: cs) = skipSpace cs :=
  List.dropWhile_cons_of_pos hc

/-- Blanks and line breaks are taken as a gap, up to the next character. -/
lemma takeGap_of_skipSpace (h : skipSpace cs = c :: r) (hc : isBreak c = false) (broken : Bool)
    (p : Place) : ∃ gap p', Cursor.takeGap.go 0 broken cs p = some (gap, ⟨c :: r, p'⟩) := by
  -- a carriage return and a line feed are taken together
  induction hn : cs.length using Nat.strong_induction_on generalizing cs broken p with
  | _ n ih =>
      subst hn
      cases cs with
      | nil => cases h
      | cons d cs =>
          by_cases hd : isSpace d = true
          · rw [skipSpace_cons_of_isSpace hd] at h
            have hlater (broken : Bool) (p : Place) :=
              ih cs.length (Nat.lt_succ_self _) h broken p rfl
            rcases isSpace_eq_true_iff.1 hd with rfl | rfl | rfl | rfl
            · obtain ⟨gap, p', hgap⟩ := hlater broken (p.next ' ')
              rw [Cursor.takeGap.go]
              · cases broken <;> simp [isBreak, isBlank, hgap]
              · simp
            · obtain ⟨gap, p', hgap⟩ := hlater broken (p.next '\t')
              rw [Cursor.takeGap.go]
              · cases broken <;> simp [isBreak, isBlank, hgap]
              · simp
            · obtain ⟨gap, p', hgap⟩ := hlater true (p.newLine 1)
              rw [Cursor.takeGap.go]
              · simp [isBreak, Char.utf8Size, hgap, Cursor.takeGap.withBreak]
              · simp
            · by_cases hfeed : ∃ cs', cs = '\n' :: cs'
              · obtain ⟨cs', rfl⟩ := hfeed
                rw [skipSpace_cons_of_isSpace (by rfl)] at h
                obtain ⟨gap, p', hgap⟩ := ih cs'.length (by simp only [List.length_cons]; omega) h
                  true (p.newLine 2) rfl
                simp [Cursor.takeGap.go, hgap, Cursor.takeGap.withBreak]
              · obtain ⟨gap, p', hgap⟩ := hlater true (p.newLine 1)
                rw [Cursor.takeGap.go]
                · simp [isBreak, Char.utf8Size, hgap, Cursor.takeGap.withBreak]
                · exact fun cs' _ hcs => hfeed ⟨cs', hcs⟩
          · rw [skipSpace_cons cs (by simpa using hd)] at h
            obtain ⟨rfl, rfl⟩ := List.cons.inj h
            refine ⟨{}, p, ?_⟩
            have hblank : isBlank d = false := by
              have hne := mt isSpace_eq_true_iff.2 hd
              simp only [not_or] at hne
              simp [isBlank, hne]
            rw [Cursor.takeGap.go]
            · simp [hc, hblank]
            · rintro r' rfl
              cases hc

/-- Neither three hyphens nor three points stand where a word begins. -/
lemma atDocumentMark_eq_false (p : Place) (hminus : ∀ r, cs ≠ '-' :: '-' :: r)
    (hdot : ∀ r, cs ≠ '.' :: r) : (⟨cs, p⟩ : Cursor).atDocumentMark = false := by
  have hstart (d : Char) (h : ∀ r, cs ≠ d :: d :: r) : (⟨cs, p⟩ : Cursor).startsMark d = false := by
    have htake : cs.take 3 ≠ [d, d, d] := by
      intro heq
      refine h (d :: cs.drop 3) ?_
      rw [← List.take_append_drop 3 cs, heq]
      simp
    simp [Cursor.startsMark, htake]
  simp [Cursor.atDocumentMark, hstart '-' hminus, hstart '.' fun r => hdot _]

lemma starts_eq_false {d : Char} (p : Place) (h : ∀ r, cs ≠ d :: r) :
    (⟨cs, p⟩ : Cursor).starts d = false := by
  cases cs with
  | nil => rfl
  | cons c r =>
      have hne : c ≠ d := fun hc => h r (hc ▸ rfl)
      simp [Cursor.starts, Cursor.peek?, hne]

/-- What a word begins with marks nothing else. -/
lemma ne_cons_of_beginsWord (h : BeginsWord cs) {d : Char} (hd : d.isAlphanum = false)
    (hsign : d ≠ '-') (r : List Char) : cs ≠ d :: r := by
  rintro rfl
  cases h with
  | alphanumeric hc => exact absurd (hd.symm.trans hc) (by decide)
  | sign _ => exact hsign rfl

/-- A word has a minus sign at most in front. -/
lemma ne_minus_of_beginsWord (h : BeginsWord cs) (r : List Char) : cs ≠ '-' :: '-' :: r := by
  rintro rfl
  cases h with
  | alphanumeric hc => cases hc
  | sign hd => cases hd

/-- A word is taken with the blanks behind it. -/
lemma plainScalar_of_word {word after : List Char} (hbegins : BeginsWord (word ++ after))
    (hne : word ≠ []) (hword : ∀ c ∈ word, IsWordChar c) (hafter : skipSpace after = c :: r)
    (hc : isFlowMark c = true) {fuel : ℕ} (hfuel : 2 ≤ fuel) (p : Place) : ∃ taken,
    plainScalar? true 0 fuel ⟨word ++ after, p⟩ = some taken ∧ taken.content = word ∧
      skipSpace taken.cursor.rest = c :: r ∧ taken.cursor.rest.length ≤ after.length := by
  obtain ⟨fuel, rfl⟩ := Nat.exists_eq_add_of_le' hfuel
  have hcspace := skipSpace_of_cons hafter
  have hcne {d : Char} (hd : isFlowMark d = false) (r' : List Char) : c :: r ≠ d :: r' := by
    rintro heq
    obtain ⟨rfl, -⟩ := List.cons.inj heq
    exact absurd (hd.symm.trans hc) (by decide)
  have hcbreak : isBreak c = false := by
    simp only [isFlowMark, Bool.or_eq_true, beq_iff_eq] at hc
    rcases hc with (((rfl | rfl) | rfl) | rfl) | rfl <;> rfl
  -- the mark behind the blanks is not part of the word
  have hstop (gap : Gap) (p : Place) : plainFrom true 0 (fuel + 1) gap ⟨c :: r, p⟩ =
      some { content := [], cursor := ⟨c :: r, p⟩, broken := !gap.breaks.isEmpty } := by
    have hends : EndsWord (c :: r) := fun d hd => .inr (.inr (Option.some.inj hd ▸ hc))
    obtain ⟨p', htake⟩ := takeWord_append [] (by simp) hends p
    have hmark := atDocumentMark_eq_false p (fun r' => hcne (by rfl) ('-' :: r')) (hcne (by rfl))
    have hcomment := starts_eq_false p (hcne (d := '#') (by rfl))
    rw [List.nil_append] at htake
    simp [plainFrom, hmark, hcomment, htake]
  have hmark := atDocumentMark_eq_false p (ne_minus_of_beginsWord hbegins)
    (ne_cons_of_beginsWord hbegins (by rfl) (by decide))
  have hcomment := starts_eq_false p (ne_cons_of_beginsWord hbegins (d := '#') (by rfl) (by decide))
  cases after with
  | nil => cases hafter
  | cons d after =>
      by_cases hd : isSpace d = true
      · -- a gap follows the word, and behind it `hstop` ends the scalar
        have hblank : isBlank d = true ∨ isBreak d = true := by
          rcases isSpace_eq_true_iff.1 hd with rfl | rfl | rfl | rfl
          exacts [.inl rfl, .inl rfl, .inr rfl, .inr rfl]
        have hgoes : ¬(isBlank d = false ∧ isBreak d = false) := by
          rintro ⟨h, h'⟩
          simp [h, h'] at hblank
        have hends : EndsWord (d :: after) := by
          intro e he
          obtain rfl := Option.some.inj he
          exact hblank.imp_right .inl
        obtain ⟨p₁, htake⟩ := takeWord_append word hword hends p
        obtain ⟨gap, p₂, hgap⟩ := takeGap_of_skipSpace hafter hcbreak false p₁
        refine ⟨{ content := word, cursor := ⟨c :: r, p₂⟩, broken := !gap.breaks.isEmpty }, ?_, rfl,
          skipSpace_cons r hcspace, hafter ▸ length_skipSpace_le _⟩
        · rw [plainScalar?, plainFrom]
          simp [hmark, hcomment, htake, hne, Cursor.peek?, hgoes, Cursor.takeGap, hgap, hstop,
            Gap.text]
      · -- the mark stands right behind the word
        rw [skipSpace_cons after (by simpa using hd)] at hafter
        obtain ⟨rfl, rfl⟩ := List.cons.inj hafter
        have hends : EndsWord (d :: after) := fun e he => .inr (.inr (Option.some.inj he ▸ hc))
        obtain ⟨p₁, htake⟩ := takeWord_append word hword hends p
        refine ⟨{ content := word, cursor := ⟨d :: after, p₁⟩ }, ?_, rfl,
          skipSpace_cons after hcspace, le_rfl⟩
        · have hblank : isBlank d = false := by
            have hne := mt isSpace_eq_true_iff.2 hd
            simp only [not_or] at hne
            simp [isBlank, hne]
          simp [plainScalar?, plainFrom, hmark, hcomment, htake, hne, Cursor.peek?, hblank, hcbreak,
            Gap.text]

end BrokerPolicy.Yaml
