import Mathlib.Data.List.TakeWhile
import Mathlib.Tactic
import BrokerPolicy.Text.Blank

/-!
Trimming, end by end.

Blanks at an end do not matter: `trimStart_append_of_blank`, `trimEnd_append_of_blank` and
`trimChars_append_of_blank`. What is not blank keeps everything behind it from being trimmed at the
start and everything before it at the end: `trimStart_append`, `trimEnd_append`. What was trimmed is
there again as a text of blanks (`exists_trimStart`, `exists_trimEnd`).
-/

namespace BrokerPolicy.Text

/-- No digit is a blank. -/
lemma isBlank_eq_false_of_isDigit {c : Char} (h : c.isDigit = true) : isBlank c = false := by
  have hrange : 48 ≤ c.toNat ∧ c.toNat ≤ 57 := Char.isDigit_iff_toNat.1 h
  simp only [isBlank, Bool.or_eq_false_iff, Bool.and_eq_false_iff, decide_eq_false_iff_not,
    beq_eq_false_iff_ne]
  omega

lemma trimStart_append_of_blank {before : List Char} (cs : List Char)
    (h : ∀ c ∈ before, isBlank c = true) : trimStart (before ++ cs) = trimStart cs := by
  induction before with
  | nil => rfl
  | cons c before ih =>
      rw [List.cons_append, trimStart_cons_of_isBlank (h c List.mem_cons_self)]
      exact ih fun d hd => h d (List.mem_cons_of_mem _ hd)

/-- The end of a text is trimmed as the start of its reverse. -/
lemma trimEnd_eq_reverse (cs : List Char) : trimEnd cs = (trimStart cs.reverse).reverse := rfl

lemma trimEnd_append_of_blank (cs : List Char) {after : List Char}
    (h : ∀ c ∈ after, isBlank c = true) : trimEnd (cs ++ after) = trimEnd cs := by
  rw [trimEnd_eq_reverse, List.reverse_append, trimStart_append_of_blank, trimEnd_eq_reverse]
  exact fun c hc => h c (List.mem_reverse.1 hc)

lemma trimStart_of_head? {t : List Char} (h : ∀ c ∈ t.head?, isBlank c = false) :
    trimStart t = t := by
  cases t with
  | nil => rfl
  | cons c t => exact trimStart_of_head (h c rfl)

/-- Blanks and what is left make up the text, and what is left begins with none. -/
lemma exists_trimStart (cs : List Char) : ∃ before, cs = before ++ trimStart cs ∧
    (∀ c ∈ before, isBlank c = true) ∧ ∀ c ∈ (trimStart cs).head?, isBlank c = false := by
  refine ⟨cs.takeWhile isBlank, List.takeWhile_append_dropWhile.symm, ?_, fun c hc => ?_⟩
  · exact fun c hc => List.mem_takeWhile_imp hc
  · have := List.head?_dropWhile_not isBlank cs
    rw [← trimStart, Option.mem_def.1 hc] at this
    simpa using this

lemma trimEnd_of_getLast? {t : List Char} (h : ∀ c ∈ t.getLast?, isBlank c = false) :
    trimEnd t = t := by
  rw [trimEnd_eq_reverse, trimStart_of_head? (by rwa [List.head?_reverse]), List.reverse_reverse]

/-- The same holds at the end of a text. -/
lemma exists_trimEnd (cs : List Char) : ∃ after, cs = trimEnd cs ++ after ∧
    (∀ c ∈ after, isBlank c = true) ∧ ∀ c ∈ (trimEnd cs).getLast?, isBlank c = false := by
  obtain ⟨after, hcs, hblank, hhead⟩ := exists_trimStart cs.reverse
  refine ⟨after.reverse, ?_, fun c hc => hblank c (List.mem_reverse.1 hc), ?_⟩
  · rw [trimEnd_eq_reverse, ← List.reverse_append, ← hcs, List.reverse_reverse]
  · rwa [trimEnd_eq_reverse, List.getLast?_reverse]

/-- The blanks before a text end in it, if it is not all blank. -/
lemma trimStart_append {cs : List Char} (h : ∃ c ∈ cs, isBlank c = false) (ds : List Char) :
    trimStart (cs ++ ds) = trimStart cs ++ ds := by
  induction cs with
  | nil => obtain ⟨c, hc, -⟩ := h; exact absurd hc List.not_mem_nil
  | cons c cs ih =>
      cases hc : isBlank c with
      | false => rw [List.cons_append, trimStart_of_head hc, trimStart_of_head hc, List.cons_append]
      | true =>
          have htail : ∃ d ∈ cs, isBlank d = false := by
            obtain ⟨d, hd, hblank⟩ := h
            rcases List.mem_cons.1 hd with rfl | hd
            · simp [hc] at hblank
            · exact ⟨d, hd, hblank⟩
          rw [List.cons_append, trimStart_cons_of_isBlank hc, trimStart_cons_of_isBlank hc,
            ih htail]

lemma trimEnd_append (cs : List Char) {ds : List Char} (h : ∃ d ∈ ds, isBlank d = false) :
    trimEnd (cs ++ ds) = cs ++ trimEnd ds := by
  have hreverse : ∃ d ∈ ds.reverse, isBlank d = false := by
    simpa only [List.mem_reverse] using h
  rw [trimEnd_eq_reverse, List.reverse_append, trimStart_append hreverse, List.reverse_append,
    List.reverse_reverse, trimEnd_eq_reverse]

/-- Blanks put behind a text do not matter. -/
lemma trimChars_append_of_blank (cs : List Char) {after : List Char}
    (h : ∀ c ∈ after, isBlank c = true) : trimChars (cs ++ after) = trimChars cs := by
  rw [trimChars, trimChars]
  by_cases hcs : ∃ c ∈ cs, isBlank c = false
  · rw [trimStart_append hcs, trimEnd_append_of_blank _ h]
  · have hblank : ∀ c ∈ cs, isBlank c = true := by
      simpa using hcs
    rw [trimStart_append_of_blank _ hblank, trimStart_eq_nil_iff.2 h, trimStart_eq_nil_iff.2 hblank]

end BrokerPolicy.Text
