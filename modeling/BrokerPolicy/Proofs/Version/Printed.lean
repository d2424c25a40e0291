import BrokerPolicy.Proofs.Text.Decimal
import BrokerPolicy.Proofs.Version.Reading

/-!
Versions that are printed are read back.

* `printed` writes a version with its epoch and its revision, and `reads_printed` says what is read
  there: the same version, its epoch as far as it fits 64 bits. The release may hold colons, hyphens
  and blanks. Only the revision has to be one (`IsRevision`): without a hyphen, which would move the
  place where it begins, and without a blank at its end, which would not count.
* A text without hyphens, without blanks around it and without an epoch is all release
  (`reads_release`).
* `parse_printed` puts both together. Epochs are read in their order, since those that do not fit
  are read as the largest one that does.
-/

namespace BrokerPolicy.Version

open Text

/-! ### Printing -/

/-- A number in decimal, with zeros before it. -/
def epochDigits (zeros epoch : ℕ) : List Char :=
  List.replicate zeros '0' ++ Nat.toDigits 10 epoch

/-- A version with its epoch, which has zeros before it, and its revision. -/
def printed (zeros : ℕ) (v : Version) : String :=
  String.ofList (epochDigits zeros v.epoch ++ ':' :: (v.release ++ '-' :: v.revision))

/-- What can stand behind the last hyphen of a version, to its end. -/
def IsRevision (cs : List Char) : Prop :=
  '-' ∉ cs ∧ ∀ c ∈ cs.getLast?, isBlank c = false

lemma epochDigits_ne_nil (zeros epoch : ℕ) : epochDigits zeros epoch ≠ [] :=
  List.append_ne_nil_of_right_ne_nil _ (toDigits_ne_nil epoch)

lemma isDigit_of_mem_epochDigits {zeros epoch : ℕ} {d : Char} (h : d ∈ epochDigits zeros epoch) :
    d.isDigit = true := by
  rcases List.mem_append.1 h with hzero | hdigit
  · rw [List.eq_of_mem_replicate hzero]
    rfl
  · exact isDigit_of_mem_toDigits hdigit

/-- Zeros in front do not change the number. -/
lemma placeValue_epochDigits (zeros epoch : ℕ) :
    placeValue (epochDigits zeros epoch) = epoch := by
  rw [← decimalValue_eq_placeValue fun _ => isDigit_of_mem_epochDigits, epochDigits,
    decimalValue_zeros_append, decimalValue_toDigits]

/-! ### Reading what is printed -/

/-- There is nothing to trim from a text with no blank at either end. -/
lemma trimmed_self {cs : List Char} (hhead : ∀ c ∈ cs.head?, isBlank c = false)
    (hlast : ∀ c ∈ cs.getLast?, isBlank c = false) : Trimmed cs cs :=
  ⟨[], [], by simp, nofun, nofun, hhead, hlast⟩

/-- A printed version begins with a digit and ends in its revision, or in a hyphen. -/
lemma trimmed_printed {v : Version} (hrevision : IsRevision v.revision) (zeros : ℕ) :
    Trimmed (printed zeros v).toList
      (epochDigits zeros v.epoch ++ ':' :: (v.release ++ '-' :: v.revision)) := by
  rw [printed, String.toList_ofList]
  refine trimmed_self (fun c hc => ?_) (fun c hc => ?_)
  · rw [List.head?_append_of_ne_nil _ (epochDigits_ne_nil zeros v.epoch)] at hc
    exact isBlank_eq_false_of_isDigit (isDigit_of_mem_epochDigits (List.mem_of_head? hc))
  · have hend : c ∈ ('-' :: v.revision).getLast? := by
      simpa [List.getLast?_append, List.getLast?_cons] using hc
    rw [List.getLast?_cons, Option.mem_some_iff] at hend
    -- an empty revision leaves the hyphen as the last character, which is no blank
    cases hlast : v.revision.getLast? with
    | none =>
        rw [hlast] at hend
        subst hend
        rfl
    | some d =>
        rw [hlast] at hend
        exact hend ▸ hrevision.2 d hlast

/-- A printed version reads as itself, with the largest epoch in place of a larger one. -/
lemma reads_printed {v : Version} (hrevision : IsRevision v.revision) (zeros : ℕ) :
    Reads (printed zeros v) { v with epoch := min v.epoch (2 ^ 64 - 1) } := by
  have hbegins : BeginsWithEpoch
      (epochDigits zeros v.epoch ++ ':' :: (v.release ++ '-' :: v.revision))
      (epochDigits zeros v.epoch) (v.release ++ '-' :: v.revision) :=
    ⟨rfl, epochDigits_ne_nil _ _, fun _ => isDigit_of_mem_epochDigits⟩
  refine ⟨_, _, trimmed_printed hrevision zeros, Or.inl ⟨_, hbegins, ?_⟩,
    Or.inl ⟨rfl, hrevision.1⟩⟩
  rw [placeValue_epochDigits]

/-- A text without hyphens, blanks around it and an epoch is all release. -/
lemma reads_release {u : String} (hhyphen : '-' ∉ u.toList)
    (hhead : ∀ c ∈ u.toList.head?, isBlank c = false)
    (hlast : ∀ c ∈ u.toList.getLast?, isBlank c = false)
    (hepoch : ¬ ∃ digits rest, BeginsWithEpoch u.toList digits rest) :
    Reads u { epoch := 0, release := u.toList, revision := [] } :=
  ⟨_, _, trimmed_self hhead hlast, Or.inr ⟨hepoch, rfl, rfl⟩, Or.inr ⟨hhyphen, rfl, rfl⟩⟩

/-- **A printed version is read back**, whatever its release holds and however many zeros stand
before its epoch: as itself if the epoch fits 64 bits, otherwise with the largest epoch that does.
So epochs are read in their order. A text without hyphens, blanks around it and an epoch is read as
a release alone. -/
theorem parse_printed :
    (∀ (zeros : ℕ) (v : Version), IsRevision v.revision →
      (v.epoch < 2 ^ 64 → parse (printed zeros v) = v) ∧
        (2 ^ 64 ≤ v.epoch → parse (printed zeros v) = { v with epoch := 2 ^ 64 - 1 })) ∧
    (∀ (zeros zeros' : ℕ) (v w : Version), IsRevision v.revision → IsRevision w.revision →
      v.epoch ≤ w.epoch →
        (parse (printed zeros v)).epoch ≤ (parse (printed zeros' w)).epoch) ∧
    ∀ u : String, '-' ∉ u.toList → (∀ c ∈ u.toList.head?, isBlank c = false) →
      (∀ c ∈ u.toList.getLast?, isBlank c = false) →
      (¬ ∃ digits rest, BeginsWithEpoch u.toList digits rest) →
        parse u = { epoch := 0, release := u.toList, revision := [] } := by
  -- every printed version is read with its epoch cut at the largest word; the clauses follow
  have hparse (zeros : ℕ) (v : Version) (hv : IsRevision v.revision) :
      parse (printed zeros v) = { v with epoch := min v.epoch (2 ^ 64 - 1) } :=
    (reads_iff.1 (reads_printed hv zeros)).symm
  refine ⟨fun zeros v hv => ⟨fun hlt => ?_, fun hge => ?_⟩, ?_, ?_⟩
  · have hfits : min v.epoch (2 ^ 64 - 1) = v.epoch := by omega
    rw [hparse zeros v hv, hfits]
  · have hlargest : min v.epoch (2 ^ 64 - 1) = 2 ^ 64 - 1 := by omega
    rw [hparse zeros v hv, hlargest]
  · intro zeros zeros' v w hv hw hle
    rw [hparse zeros v hv, hparse zeros' w hw]
    exact min_le_min_right _ hle
  · intro u hhyphen hhead hlast hepoch
    exact (reads_iff.1 (reads_release hhyphen hhead hlast hepoch)).symm

/-- A release with blanks, a colon and a hyphen of its own, an epoch that does not fit 64 bits with
nothing behind it, and a release that begins with a colon. -/
theorem parse_printed_sample :
    let v : Version := ⟨7, [' ', '1', ':', '2', '-', ' '], [' ', '0', '~', 'b']⟩
    let w : Version := ⟨2 ^ 64, [], []⟩
    let u := ":1.2 3:4"
    (IsRevision v.revision ∧ IsRevision w.revision ∧ v.epoch < 2 ^ 64 ∧ 2 ^ 64 ≤ w.epoch ∧
      v.epoch ≤ w.epoch ∧ '-' ∉ u.toList ∧ (∀ c ∈ u.toList.head?, isBlank c = false) ∧
      (∀ c ∈ u.toList.getLast?, isBlank c = false) ∧
      ¬ ∃ digits rest, BeginsWithEpoch u.toList digits rest) ∧
    parse (printed 2 v) = v ∧ parse (printed 0 w) = { w with epoch := 2 ^ 64 - 1 } ∧
      (parse (printed 2 v)).epoch ≤ (parse (printed 0 w)).epoch ∧
      parse u = { epoch := 0, release := u.toList, revision := [] } := by
  intro v w u
  obtain ⟨hprinted, hordered, hrelease⟩ := parse_printed
  have hv : IsRevision v.revision := ⟨by decide, by rintro c ⟨⟩; rfl⟩
  have hw : IsRevision w.revision := ⟨by decide, nofun⟩
  have hlt : v.epoch < 2 ^ 64 := by decide
  have hge : 2 ^ 64 ≤ w.epoch := le_rfl
  have hle : v.epoch ≤ w.epoch := hlt.le.trans hge
  have hu : u.toList = [':', '1', '.', '2', ' ', '3', ':', '4'] := by decide
  have hhyphen : '-' ∉ u.toList := by decide
  have hhead : ∀ c ∈ u.toList.head?, isBlank c = false := by
    rw [hu]
    rintro c ⟨⟩
    rfl
  have hlast : ∀ c ∈ u.toList.getLast?, isBlank c = false := by
    rw [hu]
    rintro c ⟨⟩
    rfl
  have hepoch : ¬ ∃ digits rest, BeginsWithEpoch u.toList digits rest := by
    rintro ⟨digits, rest, heq, hne, hdigits⟩
    rw [hu] at heq
    cases digits with
    | nil => exact hne rfl
    | cons d digits =>
        obtain ⟨rfl, -⟩ := List.cons.inj heq
        exact absurd (hdigits ':' List.mem_cons_self) (by decide)
  exact ⟨⟨hv, hw, hlt, hge, hle, hhyphen, hhead, hlast, hepoch⟩, (hprinted 2 v hv).1 hlt,
    (hprinted 0 w hw).2 hge, hordered 2 0 v w hv hw hle, hrelease u hhyphen hhead hlast hepoch⟩

end BrokerPolicy.Version
