/-!
Finite binary floating-point numbers of 64 bits, in exact integer arithmetic.

A `Binary64` is `± mantissa · 2 ^ exponent` with the bounds of the format as part of the type, so a
value that overflows is no `Binary64` and shows as `none`.

* `nearest?` rounds a fraction to the nearest number of the format, a half to the even neighbour;
  `mul?` and `div?` are the rounded product and quotient.
* `trunc` is the integer part, toward zero; `natAbs_trunc` gives its size.
-/
namespace BrokerPolicy

/-- A finite number `± mantissa · 2 ^ exponent` of the 64-bit format. The exponent is the least one,
or the mantissa has its full 53 bits, so every number has one form, but for the two zeros. -/
structure Binary64 where
  negative : Bool
  mantissa : Nat
  exponent : Int
  mantissa_lt : mantissa < Nat.pow 2 53
  le_exponent : -1074 ≤ exponent
  exponent_le : exponent ≤ 971
  full : exponent = -1074 ∨ Nat.pow 2 52 ≤ mantissa
  deriving DecidableEq

namespace Binary64

/-- The zero of a given sign. -/
def zero (negative : Bool) : Binary64 where
  negative := negative
  mantissa := 0
  exponent := -1074
  mantissa_lt := by decide
  le_exponent := by decide
  exponent_le := by decide
  full := .inl rfl

/-- The number with these parts, if they are those of a finite number. -/
def ofParts? (negative : Bool) (mantissa : Nat) (exponent : Int) : Option Binary64 :=
  if h : mantissa < Nat.pow 2 53 ∧ -1074 ≤ exponent ∧ exponent ≤ 971 ∧
      (exponent = -1074 ∨ Nat.pow 2 52 ≤ mantissa) then
    some ⟨negative, mantissa, exponent, h.1, h.2.1, h.2.2.1, h.2.2.2⟩
  else none

def isZero (x : Binary64) : Bool :=
  x.mantissa == 0

/-- The numerator of the absolute value. -/
def numerator (x : Binary64) : Nat :=
  x.mantissa * Nat.pow 2 x.exponent.toNat

/-- The denominator of the absolute value, a power of two. -/
def denominator (x : Binary64) : Nat :=
  Nat.pow 2 (-x.exponent).toNat

/-- The integer part of the absolute value. -/
def wholePart (x : Binary64) : Nat :=
  x.numerator / x.denominator

/-- The integer part, toward zero. -/
def trunc (x : Binary64) : Int :=
  if x.negative then -(x.wholePart : Int) else x.wholePart

/-! ### Rounding -/

/-- The integer nearest to `num / den`; a half goes to the even neighbour. -/
def roundHalfEven (num den : Nat) : Nat :=
  let whole := num / den
  let rest := 2 * (num % den)
  if rest < den then whole
  else if den < rest then whole + 1
  else whole + whole % 2

/-- The numerator of `num / 2 ^ exponent` over `den`, and its denominator. -/
def scaleDown (num den : Nat) (exponent : Int) : Nat × Nat :=
  (num * Nat.pow 2 (-exponent).toNat, den * Nat.pow 2 exponent.toNat)

/-- The exponent at which `num / den` has 53 bits before the point, or the least one. -/
def exponentOf (num den : Nat) : Int :=
  let low : Int := (num.log2 : Int) - den.log2 - 53
  let (n, d) := scaleDown num den low
  max (-1074) (if n / d < Nat.pow 2 53 then low else low + 1)

/-- The number nearest to `num / den`, none if that is too large to be finite. -/
def nearest? (negative : Bool) (num den : Nat) : Option Binary64 :=
  if num = 0 then some (zero negative)
  else
    let exponent := exponentOf num den
    let (n, d) := scaleDown num den exponent
    let mantissa := roundHalfEven n d
    if mantissa < Nat.pow 2 53 then ofParts? negative mantissa exponent
    else ofParts? negative (Nat.pow 2 52) (exponent + 1)

/-- The rounded product. -/
def mul? (x y : Binary64) : Option Binary64 :=
  nearest? (x.negative != y.negative) (x.numerator * y.numerator) (x.denominator * y.denominator)

/-- The rounded quotient. -/
def div? (x y : Binary64) : Option Binary64 :=
  nearest? (x.negative != y.negative) (x.numerator * y.denominator) (x.denominator * y.numerator)

/-! ### Facts about the integer part -/

theorem denominator_pos (x : Binary64) : 0 < x.denominator :=
  Nat.two_pow_pos _

theorem natAbs_trunc (x : Binary64) : x.trunc.natAbs = x.wholePart := by
  unfold trunc
  split <;> simp

/-- The integer part is the largest integer that the absolute value reaches. -/
theorem wholePart_lt_iff (x : Binary64) (n : Nat) :
    x.wholePart < n ↔ x.numerator < n * x.denominator :=
  Nat.div_lt_iff_lt_mul x.denominator_pos

/-- Rounding moves a fraction by half a unit at most. -/
theorem roundHalfEven_bounds (num : Nat) {den : Nat} (h : 0 < den) :
    2 * num ≤ (2 * roundHalfEven num den + 1) * den ∧
      2 * (roundHalfEven num den * den) ≤ 2 * num + den := by
  have hsplit : den * (num / den) + num % den = num := Nat.div_add_mod num den
  have hlt : num % den < den := Nat.mod_lt num h
  have hcomm : den * (num / den) = num / den * den := Nat.mul_comm _ _
  have one (q : Nat) : (2 * q + 1) * den = 2 * (q * den) + den := by
    rw [Nat.add_mul, Nat.mul_assoc, Nat.one_mul]
  have succ (q : Nat) : (q + 1) * den = q * den + den := Nat.succ_mul q den
  -- below the half, above it, and on it, where the parity of the quotient decides
  simp only [roundHalfEven, one]
  split
  · omega
  · split
    · rw [succ]; omega
    · rcases Nat.mod_two_eq_zero_or_one (num / den) with h2 | h2
      · rw [h2, Nat.add_zero]; omega
      · rw [h2, succ]; omega

end Binary64

end BrokerPolicy
