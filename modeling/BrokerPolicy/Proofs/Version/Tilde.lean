import BrokerPolicy.Proofs.Host.Gate
import BrokerPolicy.Proofs.Version.Reading

/-!
What a tilde and more behind a version make of it: something that comes before it.

* **Parts.** A part that holds a digit keeps its first stretch when a tilde and more are put behind
  it, and they stand behind what follows that stretch, too (`firstStretch_append_tilde`,
  `afterStretch_append_tilde`). In a part without digits the tilde goes on with its text, where it
  ranks below the end (`compare_markedText_append_tilde`). So the longer part is smaller:
  `comparePart_append_tilde`.
* **Texts.** The epoch stays, and either the release or the revision gets longer
  (`Reads.append_tilde`). The text behind the tilde may hold colons and blanks; only a hyphen in it
  can move the place where the revision begins.
* **Gates.** So a version with a tilde behind the required one does not reach it:
  `not_reaches_of_tilde`.
-/

namespace BrokerPolicy.Version

open Text

/-! ### Parts -/

/-- A part with a tilde and more behind it. -/
def candidate (xs ys : List UInt8) : List UInt8 :=
  xs ++ 0x7E :: ys

/-- What comes after something that does not satisfy `p` is not looked at. -/
lemma span_append {p : UInt8 → Bool} {xs : List UInt8} (h : ∃ x ∈ xs, p x = false)
    (ys : List UInt8) : (xs ++ ys).takeWhile p = xs.takeWhile p ∧
      (xs ++ ys).dropWhile p = xs.dropWhile p ++ ys := by
  induction xs with
  | nil => simp at h
  | cons x xs ih =>
      cases hx : p x with
      | false => simp [hx]
      | true =>
          have htail : ∃ y ∈ xs, p y = false := by simpa [hx] using h
          obtain ⟨htake, hdrop⟩ := ih htail
          simp [hx, htake, hdrop]

/-- What begins with something that does not satisfy `p` is not looked at. -/
lemma span_append_cons {p : UInt8 → Bool} {y : UInt8} (hy : p y = false) (xs ys : List UInt8) :
    (xs ++ y :: ys).takeWhile p = xs.takeWhile p ∧
      (xs ++ y :: ys).dropWhile p = xs.dropWhile p ++ y :: ys := by
  induction xs with
  | nil => simp [hy]
  | cons x xs ih => cases hx : p x <;> simp [hx, ih]

section Digit

variable {xs : List UInt8} (h : ∃ x ∈ xs, isText x = false) (ys : List UInt8)
include h

/-- The number after the first text ends before the tilde. -/
lemma firstStretch_append_tilde : firstStretch (candidate xs ys) = firstStretch xs := by
  obtain ⟨htext, hrest⟩ := span_append h (0x7E :: ys)
  rw [firstStretch, firstStretch, candidate, htext, hrest,
    (span_append_cons (p := isNumeral) rfl (xs.dropWhile isText) ys).1]

/-- The tilde stands behind what follows the first stretch. -/
lemma afterStretch_append_tilde :
    afterStretch (candidate xs ys) = candidate (afterStretch xs) ys := by
  rw [afterStretch, candidate, (span_append h (0x7E :: ys)).2,
    (span_append_cons (p := isNumeral) rfl (xs.dropWhile isText) ys).2]
  rfl

end Digit

/-- Without digits the tilde is compared with the end of the text. -/
lemma compare_markedText_append_tilde {xs : List UInt8} (h : ∀ x ∈ xs, isText x = true)
    (ys : List UInt8) : compare (markedText (candidate xs ys)) (markedText xs) = .lt := by
  induction xs with
  | nil =>
      have hne : weight (some 0x7E) ≠ weight none := by decide
      have hheads : weight (candidate [] ys).head? ≠ weight ([] : List UInt8).head? := hne
      exact (compare_markedText_of_ne hheads).trans rfl
  | cons x xs ih =>
      have hx : isDigit x = false := isText_eq_true_iff.1 (h x List.mem_cons_self)
      have hcons : candidate (x :: xs) ys = x :: candidate xs ys := rfl
      rw [hcons, markedText_of_isText hx, markedText_of_isText hx, List.compare_cons_cons,
        Std.ReflOrd.compare_self, Ordering.eq_then]
      exact ih fun y hy => h y (List.mem_cons_of_mem x hy)

/-- **A tilde and more behind a part make it smaller.** -/
lemma comparePart_append_tilde (xs ys : List UInt8) : comparePart (candidate xs ys) xs = .lt := by
  -- the induction is along the stretches of the shorter part alone
  refine stretch_induction (P := fun us _ => comparePart (candidate us ys) us = .lt) rfl ?_ xs []
  intro us _ ih
  rw [comparePart_eq_then]
  by_cases hdigit : ∃ u ∈ us, isText u = false
  · rw [firstStretch_append_tilde hdigit, Stretch.compare_eq_eq_iff.2 rfl, Ordering.eq_then,
      afterStretch_append_tilde hdigit]
    exact ih
  · have htext : ∀ u ∈ us, isText u = true := by simpa using hdigit
    have hfirst : (firstStretch (candidate us ys)).compare (firstStretch us) = .lt := by
      rw [Stretch.compare, Ordering.then_eq_lt]
      exact Or.inl (compare_markedText_append_tilde htext ys)
    rw [hfirst, Ordering.lt_then]

/-! ### Texts -/

/-- Blanks can only be trimmed behind the tilde, since the text before it ends in none. -/
lemma Trimmed.append_tilde {cs t : List Char} (h : Trimmed cs t)
    (hlast : ∀ c ∈ cs.getLast?, isBlank c = false) (ds : List Char) :
    ∃ es, es <+: ds ∧ Trimmed (cs ++ '~' :: ds) (t ++ '~' :: es) := by
  obtain ⟨before, after, rfl, hbefore, hafter, hhead, -⟩ := h
  -- the text did not end in a blank, so nothing was trimmed behind it
  obtain rfl : after = [] := by
    rcases List.eq_nil_or_concat after with rfl | ⟨init, c, rfl⟩
    · rfl
    · have hc : isBlank c = false := hlast c (by simp)
      simp [hafter c (by simp)] at hc
  obtain ⟨behind, hds, hbehind, hend⟩ := exists_trimEnd ds
  refine ⟨trimEnd ds, ⟨behind, hds.symm⟩, before, behind, ?_, hbefore, hbehind, ?_, ?_⟩
  · conv_lhs => rw [hds]
    simp
  · cases t with
    | nil => exact fun c hc => Option.some.inj hc ▸ rfl
    | cons c t => exact hhead
  · rw [List.getLast?_append, List.getLast?_cons]
    cases hes : (trimEnd ds).getLast? with
    | none => exact fun c hc => Option.some.inj hc ▸ rfl
    | some d => exact fun c hc => Option.some.inj hc ▸ hend d hes

/-- A tilde puts no epoch before a text that has none, even if more colons follow. -/
lemma EpochSplit.append_tilde {cs rest : List Char} {epoch : ℕ} (h : EpochSplit cs epoch rest)
    (ds : List Char) : EpochSplit (cs ++ '~' :: ds) epoch (rest ++ '~' :: ds) := by
  rcases h with ⟨digits, ⟨rfl, hne, hdigits⟩, rfl⟩ | ⟨hno, rfl, rfl⟩
  · exact Or.inl ⟨digits, ⟨by simp, hne, hdigits⟩, rfl⟩
  · refine Or.inr ⟨?_, rfl, rfl⟩
    rintro ⟨digits, rest', heq, hne, hdigits⟩
    rcases List.append_eq_append_iff.1 heq with ⟨more, rfl, hmore⟩ | ⟨more, rfl, hmore⟩
    · -- the tilde would be a digit or the colon
      cases more with
      | nil => cases hmore
      | cons d more =>
          obtain ⟨rfl, -⟩ := List.cons.inj hmore
          exact absurd (hdigits '~' (by simp)) (by decide)
    · cases more with
      | nil => cases hmore
      | cons c more =>
          obtain ⟨rfl, rfl⟩ := List.cons.inj hmore
          exact hno ⟨digits, more, rfl, hne, hdigits⟩

/-- The revision gets longer if there is one, and the release otherwise. -/
lemma RevisionSplit.append_tilde {cs release revision ds : List Char}
    (h : RevisionSplit cs release revision) (hds : '-' ∈ ds → '-' ∉ cs) :
    ∃ release' revision', RevisionSplit (cs ++ '~' :: ds) release' revision' ∧
      ((∃ es, release' = release ++ '~' :: es) ∨
        release' = release ∧ ∃ es, revision' = revision ++ '~' :: es) := by
  rcases h with ⟨rfl, hrevision⟩ | ⟨hno, rfl, rfl⟩
  · have hds : '-' ∉ ds := fun hmem => hds hmem (by simp)
    refine ⟨release, revision ++ '~' :: ds, Or.inl ⟨by simp, ?_⟩, Or.inr ⟨rfl, ds, rfl⟩⟩
    simp [hrevision, hds]
  -- without a revision before, a hyphen in the suffix opens one; the release still grows by a tilde
  · by_cases hmem : '-' ∈ ds
    · obtain ⟨⟨before, after⟩, hsplit⟩ :=
        Option.ne_none_iff_exists'.1 (mt splitLast?_eq_none_iff.1 (not_not_intro hmem))
      obtain ⟨rfl, hafter⟩ := splitLast?_eq_some_iff.1 hsplit
      exact ⟨release ++ '~' :: before, after, Or.inl ⟨by simp, hafter⟩, Or.inl ⟨before, rfl⟩⟩
    · refine ⟨release ++ '~' :: ds, [], Or.inr ⟨?_, rfl, rfl⟩, Or.inl ⟨ds, rfl⟩⟩
      simp [hno, hmem]

/-- What is read with a tilde and more behind the text. -/
lemma Reads.append_tilde {v s : String} {a : Version} (h : Reads v a)
    (hlast : ∀ c ∈ v.toList.getLast?, isBlank c = false) (hs : '-' ∈ s.toList → '-' ∉ v.toList) :
    ∃ b, Reads (v ++ "~" ++ s) b ∧ b.epoch = a.epoch ∧
      ((∃ cs, b.release = a.release ++ '~' :: cs) ∨
        b.release = a.release ∧ ∃ cs, b.revision = a.revision ++ '~' :: cs) := by
  obtain ⟨text, rest, htext, hepoch, hrevision⟩ := h
  obtain ⟨es, hes, htext'⟩ := htext.append_tilde hlast s.toList
  have hhyphen : '-' ∈ es → '-' ∉ rest := by
    intro hmem hrest
    refine hs (hes.subset hmem) ?_
    -- the epoch holds digits and a colon only, so a hyphen in the rest is one of the text
    have hin : '-' ∈ text := by
      rcases hepoch with ⟨digits, ⟨rfl, -⟩, -⟩ | ⟨-, -, rfl⟩
      · simp [hrest]
      · exact hrest
    obtain ⟨before, after, hv, -⟩ := htext
    rw [hv]
    simp [hin]
  obtain ⟨release, revision, hsplit, hlonger⟩ := hrevision.append_tilde hhyphen
  refine ⟨⟨a.epoch, release, revision⟩, ⟨_, _, ?_, hepoch.append_tilde es, hsplit⟩, rfl, hlonger⟩
  simpa using htext'

lemma encode_append_tilde (cs ds : List Char) :
    Utf8.encode (cs ++ '~' :: ds) = candidate (Utf8.encode cs) (Utf8.encode ds) := by
  rw [Utf8.encode, List.flatMap_append, List.flatMap_cons]
  rfl

/-- A tilde and more behind a text make it smaller. -/
lemma compareText_append_tilde {v s : String} (hlast : ∀ c ∈ v.toList.getLast?, isBlank c = false)
    (hs : '-' ∈ s.toList → '-' ∉ v.toList) : compareText (v ++ "~" ++ s) v = .lt := by
  obtain ⟨b, hb, hepoch, hlonger⟩ := (reads_iff.2 rfl : Reads v (parse v)).append_tilde hlast hs
  rw [compareText, ← reads_iff.1 hb, compareParsed, hepoch, Nat.compare_eq_eq.2 rfl,
    Ordering.eq_then, Ordering.then_eq_lt]
  rcases hlonger with ⟨cs, hrelease⟩ | ⟨hrelease, cs, hrevision⟩
  · left
    rw [hrelease, encode_append_tilde]
    exact comparePart_append_tilde _ _
  · right
    rw [hrelease, hrevision, encode_append_tilde]
    exact ⟨comparePart_eq_eq_iff.2 fun _ => rfl, comparePart_append_tilde _ _⟩

lemma compareText_append_tilde_gt {v s : String}
    (hlast : ∀ c ∈ v.toList.getLast?, isBlank c = false) (hs : '-' ∈ s.toList → '-' ∉ v.toList) :
    compareText v (v ++ "~" ++ s) = .gt :=
  Std.OrientedCmp.gt_iff_lt.2 (compareText_append_tilde hlast hs)

/-! ### Gates -/

/-- A version with a tilde behind the required one does not reach it. -/
lemma not_reaches_of_tilde {required output s : String}
    (hlast : ∀ c ∈ required.toList.getLast?, isBlank c = false) (hhyphen : '-' ∉ required.toList)
    (houtput : trim output = required ++ "~" ++ s) : ¬Reaches required (.ok output) := by
  have hne : trim output ≠ "" := by
    rw [houtput]
    simp
  rw [Reaches.iff_of_ok hne, houtput, compareText_append_tilde_gt hlast fun _ => hhyphen]
  decide

/-- **A tilde sorts before everything**: a version with a tilde and any text behind it comes before
the version alone, provided that the version does not end in a blank and that the text does not move
the place where its revision begins. So an installed version that goes on with a tilde behind the
required one passes neither the gate of mirroring nor that of listings in JSON. -/
theorem compareText_tilde_suffix :
    (∀ v s : String, (∀ c ∈ v.toList.getLast?, isBlank c = false) →
      ('-' ∈ s.toList → '-' ∉ v.toList) →
        compareText (v ++ "~" ++ s) v = .lt ∧ compareText v (v ++ "~" ++ s) = .gt) ∧
    ∀ (answer : Trace → Command → Except CommandFailure String) (t : Trace) (output s : String),
      brokerAnswer answer t = .ok output →
        (trim output = mirroringVersion ++ "~" ++ s → ∀ p : Policy, p.kind = .ha →
          ((p.check (Recorded.packaged answer)).run t).1 = false) ∧
        (trim output = jsonVersion ++ "~" ++ s →
          (((Query.supportsJson (Recorded.packaged answer)).run' none).run t).1 = false) := by
  refine ⟨fun v s hlast hs => ⟨compareText_append_tilde hlast hs,
    compareText_append_tilde_gt hlast hs⟩, fun answer t output s hanswer => ⟨?_, ?_⟩⟩
  · intro houtput p hp
    -- each gate is open only from its version on, and a candidate of that version is below it
    rw [← Bool.not_eq_true, check_packaged hp, hanswer]
    exact not_reaches_of_tilde (by rintro c ⟨⟩; rfl) (by decide) houtput
  · intro houtput
    rw [← Bool.not_eq_true, supportsJson_packaged, hanswer]
    exact not_reaches_of_tilde (by rintro c ⟨⟩; rfl) (by decide) houtput

/-- A version with an epoch, hyphens and a tilde of its own, and a text that could be taken for an
epoch; the candidates of the required versions. -/
theorem compareText_tilde_suffix_candidate :
    let v := "1:2.0~-00"
    let s := "7:~ \t"
    (∀ c ∈ v.toList.getLast?, isBlank c = false) ∧ ('-' ∈ s.toList → '-' ∉ v.toList) ∧
      compareText (v ++ "~" ++ s) v = .lt ∧ compareText v (v ++ "~" ++ s) = .gt ∧
      (((Policy.mirrored "/" "mirror" "^").check
        (Recorded.packaged (constantAnswer " 3.0.0~rc1-1\n"))).run []).1 = false ∧
      (((Query.supportsJson (Recorded.packaged (constantAnswer "3.8.2~\n"))).run' none).run []).1 =
        false := by
  intro v s
  have hlast : ∀ c ∈ v.toList.getLast?, isBlank c = false := by
    change ∀ c ∈ "1:2.0~-00".toList.getLast?, isBlank c = false
    rintro c ⟨⟩
    rfl
  have hs : '-' ∈ s.toList → '-' ∉ v.toList := by decide
  obtain ⟨hcompare, hgates⟩ := compareText_tilde_suffix
  obtain ⟨hlt, hgt⟩ := hcompare v s hlast hs
  refine ⟨hlast, hs, hlt, hgt, ?_, ?_⟩
  · exact (hgates _ [] " 3.0.0~rc1-1\n" "rc1-1" rfl).1 (by decide) _ rfl
  · exact (hgates _ [] "3.8.2~\n" "" rfl).2 (by decide)

end BrokerPolicy.Version
