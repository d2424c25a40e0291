import BrokerPolicy.Proofs.Text.Decimal
import BrokerPolicy.Proofs.Text.Trimming
import BrokerPolicy.Proofs.Version.Order

/-!
What a version text says, and that texts are ordered by what they say.

* `Reads s v` declares how a text is read, without a procedure: which blanks do not count
  (`Trimmed`), what an epoch is (`EpochSplit`), where the revision begins (`RevisionSplit`). Every
  text reads in exactly one way, which is the one `parse` finds: `reads_iff`.
* `Precedes` and `Agrees` declare the order of two readings, lexicographic in epoch, release and
  revision. They go by the stretches of the parts and the table `rank` alone.
  `compareText_iff_declared` says that the order of texts is this one.
-/

namespace BrokerPolicy.Version

open Text

/-! ### Splitting at a character -/

/-- There is nothing to split at exactly if the character does not occur. -/
lemma splitFirst?_eq_none_iff {sep : Char} {cs : List Char} :
    splitFirst? sep cs = none ↔ sep ∉ cs := by
  induction cs with
  | nil => simp [splitFirst?]
  | cons c cs ih =>
      by_cases hc : c = sep
      · simp [splitFirst?, hc]
      · simp [splitFirst?, hc, ih, Ne.symm hc]

/-- A text is split at its first occurrence, whatever comes after. -/
lemma splitFirst?_append {sep : Char} {before : List Char} (after : List Char)
    (h : sep ∉ before) : splitFirst? sep (before ++ sep :: after) = some (before, after) := by
  induction before with
  | nil => simp [splitFirst?]
  | cons c before ih =>
      obtain ⟨hc, hbefore⟩ := not_or.1 (mt List.mem_cons.2 h)
      rw [List.cons_append, splitFirst?, if_neg (Ne.symm hc), ih hbefore]
      rfl

/-- The first occurrence is the one that has none before it. -/
lemma splitFirst?_eq_some_iff {sep : Char} {cs before after : List Char} :
    splitFirst? sep cs = some (before, after) ↔ cs = before ++ sep :: after ∧ sep ∉ before := by
  refine ⟨fun h => ?_, fun ⟨hcs, hbefore⟩ => hcs ▸ splitFirst?_append after hbefore⟩
  induction cs generalizing before with
  | nil => exact absurd h (by simp [splitFirst?])
  | cons c cs ih =>
      rw [splitFirst?] at h
      split at h
      · next hc =>
        obtain ⟨rfl, rfl⟩ := Prod.mk.inj (Option.some.inj h)
        exact ⟨by rw [hc, List.nil_append], List.not_mem_nil⟩
      · next hc =>
        obtain ⟨⟨before', after'⟩, hsplit, heq⟩ := Option.map_eq_some_iff.1 h
        obtain ⟨rfl, rfl⟩ := Prod.mk.inj heq
        obtain ⟨rfl, hbefore⟩ := ih hsplit
        exact ⟨rfl, by simpa [hbefore] using Ne.symm hc⟩

lemma splitLast?_eq_none_iff {sep : Char} {cs : List Char} :
    splitLast? sep cs = none ↔ sep ∉ cs := by
  rw [splitLast?, Option.map_eq_none_iff, splitFirst?_eq_none_iff, List.mem_reverse]

/-- The last occurrence is the one that has none after it. -/
lemma splitLast?_eq_some_iff {sep : Char} {cs before after : List Char} :
    splitLast? sep cs = some (before, after) ↔ cs = before ++ sep :: after ∧ sep ∉ after := by
  simp only [splitLast?, Option.map_eq_some_iff, Prod.exists, splitFirst?_eq_some_iff,
    Prod.mk.injEq]
  constructor
  · rintro ⟨as, bs, ⟨hcs, has⟩, rfl, rfl⟩
    refine ⟨?_, by rwa [List.mem_reverse]⟩
    rw [← List.reverse_reverse cs, hcs]
    simp
  · rintro ⟨rfl, hafter⟩
    refine ⟨after.reverse, before.reverse, ⟨by simp, by rwa [List.mem_reverse]⟩, ?_, ?_⟩
    · rw [List.reverse_reverse]
    · rw [List.reverse_reverse]

/-! ### The reading of a text -/

/-- `t` is a text without the blanks at its two ends. -/
def Trimmed (cs t : List Char) : Prop :=
  ∃ before after, cs = before ++ t ++ after ∧
    (∀ c ∈ before, isBlank c = true) ∧ (∀ c ∈ after, isBlank c = true) ∧
    (∀ c ∈ t.head?, isBlank c = false) ∧ ∀ c ∈ t.getLast?, isBlank c = false

/-- A text begins with digits, at least one, and a colon. -/
def BeginsWithEpoch (cs digits rest : List Char) : Prop :=
  cs = digits ++ ':' :: rest ∧ digits ≠ [] ∧ ∀ d ∈ digits, d.isDigit = true

/-- The epoch of a text and what is left of it: the number before the first colon, as far as it fits
64 bits, or zero and the whole text. -/
def EpochSplit (cs : List Char) (epoch : ℕ) (rest : List Char) : Prop :=
  (∃ digits, BeginsWithEpoch cs digits rest ∧ epoch = min (placeValue digits) (2 ^ 64 - 1)) ∨
    (¬ ∃ digits rest', BeginsWithEpoch cs digits rest') ∧ epoch = 0 ∧ rest = cs

/-- The text before the last hyphen and after it, or the whole text and nothing. -/
def RevisionSplit (cs release revision : List Char) : Prop :=
  (cs = release ++ '-' :: revision ∧ '-' ∉ revision) ∨
    '-' ∉ cs ∧ release = cs ∧ revision = []

/-- How a text is read as a version. -/
def Reads (s : String) (v : Version) : Prop :=
  ∃ text rest, Trimmed s.toList text ∧ EpochSplit text v.epoch rest ∧
    RevisionSplit rest v.release v.revision

/-- What is left without the blanks at the two ends is determined. -/
lemma trimmed_iff {cs t : List Char} : Trimmed cs t ↔ t = trimChars cs := by
  constructor
  · rintro ⟨before, after, rfl, hbefore, hafter, hhead, hlast⟩
    rw [trimChars, List.append_assoc, trimStart_append_of_blank _ hbefore]
    -- when nothing is left, the blanks on both sides are one run and the front takes all of it
    cases t with
    | nil => rw [List.nil_append, trimStart_eq_nil_iff.2 hafter]; rfl
    | cons c t =>
        rw [List.cons_append, trimStart_of_head (hhead c rfl), ← List.cons_append,
          trimEnd_append_of_blank _ hafter, trimEnd_of_getLast? hlast]
  · rintro rfl
    obtain ⟨before, hcs, hbefore, hhead⟩ := exists_trimStart cs
    obtain ⟨after, hrest, hafter, hlast⟩ := exists_trimEnd (trimStart cs)
    refine ⟨before, after, ?_, hbefore, hafter, fun c hc => hhead c ?_, hlast⟩
    · rw [List.append_assoc, trimChars, ← hrest, ← hcs]
    · -- the text keeps its first character when the blanks behind it are removed
      rw [hrest, List.head?_append, ← trimChars, Option.mem_def.1 hc]
      rfl

/-- Digits hold no colon. -/
lemma colon_not_mem_of_digits {digits : List Char} (h : ∀ d ∈ digits, d.isDigit = true) :
    ':' ∉ digits := fun hmem => absurd (h ':' hmem) (by decide)

/-- Digits before the first colon are the epoch. -/
lemma splitEpoch_of_begins {cs digits rest : List Char} (h : BeginsWithEpoch cs digits rest) :
    splitEpoch cs = (min (placeValue digits) (2 ^ 64 - 1), rest) := by
  obtain ⟨rfl, hne, hdigits⟩ := h
  have hall : digits.all Char.isDigit = true := List.all_eq_true.2 hdigits
  rw [← decimalValue_eq_placeValue hdigits]
  simp only [splitEpoch, splitFirst?_append rest (colon_not_mem_of_digits hdigits)]
  exact if_pos ⟨hne, hall⟩

/-- Anything else before a colon belongs to the release. -/
lemma splitEpoch_of_not_begins {cs : List Char}
    (h : ¬ ∃ digits rest, BeginsWithEpoch cs digits rest) : splitEpoch cs = (0, cs) := by
  rw [splitEpoch]
  split
  · next digits rest hsplit =>
    obtain ⟨hcs, -⟩ := splitFirst?_eq_some_iff.1 hsplit
    exact if_neg fun ⟨hne, hall⟩ => h ⟨digits, rest, hcs, hne, List.all_eq_true.1 hall⟩
  · rfl

/-- The epoch and what is left of the text are determined. -/
lemma epochSplit_iff {cs rest : List Char} {epoch : ℕ} :
    EpochSplit cs epoch rest ↔ splitEpoch cs = (epoch, rest) := by
  constructor
  · rintro (⟨digits, hbegins, rfl⟩ | ⟨hno, rfl, rfl⟩)
    · exact splitEpoch_of_begins hbegins
    · exact splitEpoch_of_not_begins hno
  · intro h
    by_cases hbegins : ∃ digits rest, BeginsWithEpoch cs digits rest
    · obtain ⟨digits, rest', hbegins⟩ := hbegins
      obtain ⟨rfl, rfl⟩ := Prod.mk.inj ((splitEpoch_of_begins hbegins).symm.trans h)
      exact Or.inl ⟨digits, hbegins, rfl⟩
    · obtain ⟨rfl, rfl⟩ := Prod.mk.inj ((splitEpoch_of_not_begins hbegins).symm.trans h)
      exact Or.inr ⟨hbegins, rfl, rfl⟩

/-- The revision is determined. -/
lemma revisionSplit_iff {cs release revision : List Char} :
    RevisionSplit cs release revision ↔
      (splitLast? '-' cs).getD (cs, []) = (release, revision) := by
  constructor
  · rintro (hsome | ⟨hno, rfl, rfl⟩)
    · rw [splitLast?_eq_some_iff.2 hsome, Option.getD_some]
    · rw [splitLast?_eq_none_iff.2 hno, Option.getD_none]
  · intro h
    cases hsplit : splitLast? '-' cs with
    | none =>
        rw [hsplit, Option.getD_none] at h
        obtain ⟨rfl, rfl⟩ := Prod.mk.inj h
        exact Or.inr ⟨splitLast?_eq_none_iff.1 hsplit, rfl, rfl⟩
    | some parts =>
        rw [hsplit, Option.getD_some] at h
        exact Or.inl (splitLast?_eq_some_iff.1 (h ▸ hsplit))

/-- A text is parsed in two splits, once it is trimmed. -/
lemma parse_eq {s : String} {epoch : ℕ} {rest release revision : List Char}
    (hepoch : splitEpoch (trimChars s.toList) = (epoch, rest))
    (hrevision : (splitLast? '-' rest).getD (rest, []) = (release, revision)) :
    parse s = { epoch, release, revision } := by
  rw [parse, hepoch]
  cases hsplit : splitLast? '-' rest with
  | none =>
      rw [hsplit, Option.getD_none] at hrevision
      obtain ⟨rfl, rfl⟩ := Prod.mk.inj hrevision
      simp only [hsplit]
  | some parts =>
      rw [hsplit, Option.getD_some] at hrevision
      simp only [hsplit, hrevision]

/-- **A text is read in exactly one way**, the one that `parse` finds. -/
lemma reads_iff {s : String} {v : Version} : Reads s v ↔ v = parse s := by
  constructor
  · rintro ⟨text, rest, htext, hepoch, hrevision⟩
    rw [trimmed_iff.1 htext] at hepoch
    exact (parse_eq (epochSplit_iff.1 hepoch) (revisionSplit_iff.1 hrevision)).symm
  · intro h
    rcases hepoch : splitEpoch (trimChars s.toList) with ⟨epoch, rest⟩
    rcases hrevision : (splitLast? '-' rest).getD (rest, []) with ⟨release, revision⟩
    rw [h, parse_eq hepoch hrevision]
    exact ⟨_, rest, trimmed_iff.2 rfl, epochSplit_iff.2 hepoch, revisionSplit_iff.2 hrevision⟩

/-! ### The order of readings -/

/-- Two parts have the same stretches, to their ends and beyond. -/
def SamePart (xs ys : List UInt8) : Prop :=
  ∀ n, stretchAt xs n = stretchAt ys n

/-- One version comes before another: by its epoch, then its release, then its revision. -/
def Precedes (v w : Version) : Prop :=
  v.epoch < w.epoch ∨ v.epoch = w.epoch ∧
    (PartLt (partBytes v.release) (partBytes w.release) ∨
      SamePart (partBytes v.release) (partBytes w.release) ∧
        PartLt (partBytes v.revision) (partBytes w.revision))

/-- Two versions have the same epoch and, stretch by stretch, the same parts. -/
def Agrees (v w : Version) : Prop :=
  v.epoch = w.epoch ∧ SamePart (partBytes v.release) (partBytes w.release) ∧
    SamePart (partBytes v.revision) (partBytes w.revision)

/-- A version is smaller exactly if it precedes the other. -/
lemma compareParsed_eq_lt_iff {v w : Version} : compareParsed v w = .lt ↔ Precedes v w := by
  rw [compareParsed_eq, Ordering.then_eq_lt, Ordering.then_eq_lt, Nat.compare_eq_lt,
    Nat.compare_eq_eq, comparePart_eq_lt_iff, comparePart_eq_lt_iff, comparePart_eq_eq_iff]
  rfl

/-- Versions are equal in order exactly if they agree. -/
lemma compareParsed_eq_eq_iff {v w : Version} : compareParsed v w = .eq ↔ Agrees v w := by
  rw [compareParsed_eq, Ordering.then_eq_eq, Ordering.then_eq_eq, Nat.compare_eq_eq,
    comparePart_eq_eq_iff, comparePart_eq_eq_iff]
  rfl

/-- **Version texts are ordered by what they say**: each of two texts has exactly one reading, and
the first text is smaller, larger or equal as its reading precedes, follows or agrees with the
other. Parts are equal in order exactly when all their stretches are the same. -/
theorem compareText_iff_declared (a b : String) :
    (∃ v w, (∀ v', Reads a v' ↔ v' = v) ∧ (∀ w', Reads b w' ↔ w' = w) ∧
      (compareText a b = .lt ↔ Precedes v w) ∧
      (compareText a b = .gt ↔ Precedes w v) ∧
      (compareText a b = .eq ↔ Agrees v w)) ∧
    ∀ xs ys, comparePart xs ys = .eq ↔ SamePart xs ys := by
  refine ⟨⟨parse a, parse b, fun v => reads_iff, fun w => reads_iff, compareParsed_eq_lt_iff, ?_,
    compareParsed_eq_eq_iff⟩, fun xs ys => comparePart_eq_eq_iff⟩
  rw [Std.OrientedCmp.gt_iff_lt]
  exact compareParsed_eq_lt_iff

/-- A tilde comes before the end of a release, a letter after the end, and a plus sign after the
letters. -/
theorem compareText_iff_declared_ranks :
    ∀ texts ∈ [("1~", "1"), ("1", "1a"), ("1z", "1+")],
      ∃ v w, Reads texts.1 v ∧ Reads texts.2 w ∧ Precedes v w := by
  intro texts htexts
  have hsmaller : ∀ texts ∈ [("1~", "1"), ("1", "1a"), ("1z", "1+")],
      compareText texts.1 texts.2 = .lt := by
    decide
  obtain ⟨⟨v, w, hv, hw, hlt, -⟩, -⟩ := compareText_iff_declared texts.1 texts.2
  exact ⟨v, w, (hv v).2 rfl, (hw w).2 rfl, hlt.1 (hsmaller texts htexts)⟩

/-- Leading zeros and a zero at the end say nothing. -/
example : compareText "1." "1.0" = .eq ∧ compareText "1.002" "1.2" = .eq := by decide

end BrokerPolicy.Version
