import BrokerPolicy.Proofs.Version.Part

/-!
The order of version texts is a total preorder.

Two texts are compared by rounds whose number depends on both of them. `compareUpTo n` looks at `n`
stretches of each part instead, whatever the parts are, so it is a lexicographic order on one type
of lists and inherits its laws from there. It is the order of any versions whose parts have no more
than `n` bytes (`compareParsed_eq_compareUpTo`), and for any three texts there is such an `n`.
-/

namespace BrokerPolicy.Version

/-- The bytes of a part. -/
abbrev partBytes (cs : List Char) : List UInt8 :=
  cs.flatMap String.utf8EncodeChar

lemma compareParsed_eq (v w : Version) : compareParsed v w =
    (compare v.epoch w.epoch).then
      ((comparePart (partBytes v.release) (partBytes w.release)).then
        (comparePart (partBytes v.revision) (partBytes w.revision))) :=
  rfl

/-- The order of versions by epoch and by the first `n` stretches of release and revision. -/
def compareUpTo (n : ℕ) : Version → Version → Ordering :=
  compareLex (compareOn Version.epoch) <|
    compareLex (compareOn fun v => stretches n (partBytes v.release))
      (compareOn fun v => stretches n (partBytes v.revision))

instance (n : ℕ) : Std.TransCmp (compareUpTo n) :=
  inferInstanceAs (Std.TransCmp (compareLex (compareOn Version.epoch) <|
    compareLex (compareOn fun v => stretches n (partBytes v.release))
      (compareOn fun v => stretches n (partBytes v.revision))))

/-- The number of bytes of the longer part. -/
def partSize (v : Version) : ℕ :=
  max (partBytes v.release).length (partBytes v.revision).length

/-- Versions with parts of at most so many bytes are compared in full. -/
lemma compareParsed_eq_compareUpTo {n : ℕ} {v w : Version} (hv : v.partSize ≤ n)
    (hw : w.partSize ≤ n) : compareParsed v w = compareUpTo n v w := by
  obtain ⟨hv₁, hv₂⟩ := max_le_iff.1 hv
  obtain ⟨hw₁, hw₂⟩ := max_le_iff.1 hw
  rw [compareParsed_eq, comparePart_eq_compare_stretches hv₁ hw₁,
    comparePart_eq_compare_stretches hv₂ hw₂]
  rfl

/-- Parsed versions are in a total preorder. -/
instance : Std.TransCmp compareParsed where
  eq_swap {v w} := by
    rw [compareParsed_eq_compareUpTo (le_max_left v.partSize w.partSize) (le_max_right _ _),
      compareParsed_eq_compareUpTo (le_max_right v.partSize w.partSize) (le_max_left _ _)]
    exact Std.OrientedCmp.eq_swap
  isLE_trans {u v w} huv hvw := by
    have hu : u.partSize ≤ max u.partSize (max v.partSize w.partSize) := le_max_left _ _
    have hv : v.partSize ≤ max u.partSize (max v.partSize w.partSize) :=
      le_max_of_le_right (le_max_left _ _)
    have hw : w.partSize ≤ max u.partSize (max v.partSize w.partSize) :=
      le_max_of_le_right (le_max_right _ _)
    rw [compareParsed_eq_compareUpTo hu hv] at huv
    rw [compareParsed_eq_compareUpTo hv hw] at hvw
    rw [compareParsed_eq_compareUpTo hu hw]
    exact Std.TransCmp.isLE_trans huv hvw

/-- Version texts are in a total preorder. -/
instance : Std.TransCmp compareText where
  eq_swap {a b} := by
    rw [compareText, compareText]
    exact Std.OrientedCmp.eq_swap
  isLE_trans {a b c} hab hbc := by
    rw [compareText] at *
    exact Std.TransCmp.isLE_trans hab hbc

/-- **The order of version texts is a total preorder**, on all texts: every text is equal to itself,
exchanging two texts reverses the order, and of three texts in order the outer two are in order,
equal only if both steps between them are. -/
theorem compareText_total_preorder (a b c : String) :
    compareText a a = .eq ∧
      compareText b a = (compareText a b).swap ∧
      (compareText a b ≠ .gt → compareText b c ≠ .gt →
        compareText a c ≠ .gt ∧
          (compareText a c = .eq ↔ compareText a b = .eq ∧ compareText b c = .eq)) := by
  refine ⟨Std.ReflCmp.compare_self, Std.OrientedCmp.eq_swap, fun hab hbc => ?_⟩
  have hab := Ordering.isLE_iff_ne_gt.2 hab
  have hbc := Ordering.isLE_iff_ne_gt.2 hbc
  refine ⟨Ordering.isLE_iff_ne_gt.1 (Std.TransCmp.isLE_trans hab hbc), fun hac => ?_, ?_⟩
  · -- the texts in between are also below the first and above the last
    have hca : (compareText c a).isLE = true :=
      Ordering.isLE_of_eq_eq (Std.OrientedCmp.eq_symm hac)
    exact ⟨Std.OrientedCmp.isLE_antisymm hab (Std.TransCmp.isLE_trans hbc hca),
      Std.OrientedCmp.isLE_antisymm hbc (Std.TransCmp.isLE_trans hca hab)⟩
  · rintro ⟨heq₁, heq₂⟩
    exact Std.TransCmp.eq_trans heq₁ heq₂

/-- A release candidate, the release with zeros of its own, and a later release. -/
theorem compareText_total_preorder_candidate :
    compareText "1:3.0.0~rc1" "1:3.00.0-" ≠ .gt ∧ compareText "1:3.00.0-" "1:3.0.0+é" ≠ .gt ∧
      compareText "1:3.0.0~rc1" "1:3.0.0+é" ≠ .gt ∧
      ¬ (compareText "1:3.0.0~rc1" "1:3.0.0+é" = .eq) := by
  have hab : compareText "1:3.0.0~rc1" "1:3.00.0-" ≠ .gt := by decide
  have hbc : compareText "1:3.00.0-" "1:3.0.0+é" ≠ .gt := by decide
  obtain ⟨-, -, hle⟩ := compareText_total_preorder "1:3.0.0~rc1" "1:3.00.0-" "1:3.0.0+é"
  obtain ⟨hac, heq⟩ := hle hab hbc
  exact ⟨hab, hbc, hac, fun h => absurd (heq.1 h).1 (by decide)⟩

end BrokerPolicy.Version
