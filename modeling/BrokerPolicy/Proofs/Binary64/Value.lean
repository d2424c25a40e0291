import Mathlib.Tactic
import BrokerPolicy.Binary64.Decimal

/-!
The rational numbers that binary numbers stand for.

`Binary64.value` is the number that is meant, and the integer part is its integer part, toward zero:
`trunc_eq_truncated`. The integer part of the absolute value is its floor
(`wholePart_eq_floor`), so an integral bound holds of the one if it holds of the other
(`wholePart_lt_iff_abs_value_lt`).

An integer that is larger than all signed words is larger than them as a binary number too, though
it is rounded: `exists_ofNat?_of_large`.
-/

namespace BrokerPolicy.Binary64

/-- The number that is meant. -/
def value (x : Binary64) : ℚ :=
  (if x.negative then -1 else 1) * (x.mantissa * 2 ^ x.exponent)

/-- The integer part of a rational number, toward zero. -/
def truncated (q : ℚ) : ℤ :=
  if 0 ≤ q then ⌊q⌋ else ⌈q⌉

lemma truncated_intCast (z : ℤ) : truncated z = z := by
  rw [truncated, Int.floor_intCast, Int.ceil_intCast, ite_self]

lemma truncated_neg (q : ℚ) : truncated (-q) = -truncated q := by
  rcases lt_trichotomy q 0 with hneg | rfl | hpos
  · rw [truncated, if_pos (neg_nonneg.2 hneg.le), truncated, if_neg hneg.not_ge, Int.floor_neg]
  · simp [truncated]
  · rw [truncated, if_neg (neg_neg_of_pos hpos).not_ge, truncated, if_pos hpos.le, Int.ceil_neg]

/-! ### The integer part -/

/-- Numerator and denominator are the two halves of the power of two. -/
lemma numerator_div_denominator (x : Binary64) :
    (x.numerator : ℚ) / x.denominator = x.mantissa * 2 ^ x.exponent := by
  have hexponent : x.exponent = (x.exponent.toNat : ℤ) - ((-x.exponent).toNat : ℤ) := by omega
  have hpow : (2 : ℚ) ^ x.exponent = 2 ^ x.exponent.toNat / 2 ^ (-x.exponent).toNat := by
    conv_lhs => rw [hexponent]
    rw [zpow_sub₀ two_ne_zero, zpow_natCast, zpow_natCast]
  rw [hpow, numerator, denominator, Nat.pow_eq, Nat.pow_eq]
  push_cast
  rw [mul_div_assoc]

/-- The sign aside, the value is the mantissa at its exponent. -/
lemma abs_value (x : Binary64) : |x.value| = x.mantissa * 2 ^ x.exponent := by
  have hnonneg : (0 : ℚ) ≤ x.mantissa * 2 ^ x.exponent := by positivity
  rw [value]
  cases x.negative with
  | true => rw [if_pos rfl, neg_one_mul, abs_neg, abs_of_nonneg hnonneg]
  | false => rw [if_neg Bool.false_ne_true, one_mul, abs_of_nonneg hnonneg]

/-- The bits left of the point are those of the floor. -/
lemma wholePart_eq_floor (x : Binary64) : (x.wholePart : ℤ) = ⌊|x.value|⌋ := by
  rw [abs_value, ← numerator_div_denominator, Rat.floor_natCast_div_natCast, wholePart,
    Int.natCast_ediv]

/-- A bound on the whole part is a bound on the value. -/
lemma wholePart_lt_iff_abs_value_lt (x : Binary64) (n : ℕ) : x.wholePart < n ↔ |x.value| < n := by
  have hfloor : ⌊|x.value|⌋ < (n : ℤ) ↔ |x.value| < ((n : ℤ) : ℚ) := Int.floor_lt
  rw [← wholePart_eq_floor, Nat.cast_lt, Int.cast_natCast] at hfloor
  exact hfloor

/-- The integer part is that of the number that is meant. -/
lemma trunc_eq_truncated (x : Binary64) : x.trunc = truncated x.value := by
  have hnonneg : (0 : ℚ) ≤ x.mantissa * 2 ^ x.exponent := by positivity
  have hwhole : truncated (x.mantissa * 2 ^ x.exponent) = x.wholePart := by
    rw [truncated, if_pos hnonneg, ← abs_value, wholePart_eq_floor]
  rw [trunc, value]
  cases x.negative with
  | true => rw [if_pos rfl, if_pos rfl, neg_one_mul, truncated_neg, hwhole]
  | false => rw [if_neg Bool.false_ne_true, if_neg Bool.false_ne_true, one_mul, hwhole]

/-! ### Large integers -/

/-- An integer above all signed words, rounded to a binary number, stays above them. -/
lemma exists_ofNat?_of_large {n : ℕ} (hlow : 2 ^ 63 ≤ n) (hhigh : n < 2 ^ 64) :
    ∃ x, ofNat? n = some x ∧ 2 ^ 63 ≤ x.wholePart := by
  have hne : n ≠ 0 := by omega
  have hlog : n.log2 = 63 := (Nat.log2_eq_iff hne).2 ⟨hlow, hhigh⟩
  have hexponent : exponentOf n 1 = 11 := by
    have hone : Nat.log2 1 = 0 := by decide
    have hscaled : ¬n / 1024 < 9007199254740992 := by omega
    simp [exponentOf, scaleDown, hlog, hone, hscaled]
  -- rounding to a multiple of `2 ^ 11` does not go below `2 ^ 63`, which is one
  have hround := roundHalfEven_bounds n (show 0 < 2048 by omega)
  have hscale : scaleDown n 1 11 = (n, 2048) := by simp [scaleDown]
  rw [ofNat?, nearest?, if_neg hne, hexponent]
  dsimp only
  rw [hscale]
  dsimp only
  generalize roundHalfEven n 2048 = r at hround
  split
  · next hr =>
    have hr : r < 2 ^ 53 := hr
    have hfull : 2 ^ 52 ≤ r := by omega
    refine ⟨⟨false, r, 11, hr, by decide, by decide, .inr hfull⟩, dif_pos ?_, ?_⟩
    · exact ⟨hr, by decide, by decide, .inr hfull⟩
    · show 2 ^ 63 ≤ r * 2 ^ 11 / 2 ^ 0
      omega
  · exact ⟨⟨false, 2 ^ 52, 12, by decide, by decide, by decide, .inr le_rfl⟩, rfl, by decide⟩

end BrokerPolicy.Binary64
