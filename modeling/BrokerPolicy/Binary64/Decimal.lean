import BrokerPolicy.Binary64.Basic

/-!
Reading a decimal `± digits · 10 ^ exponent` as a binary number, in two ways.

* `ofDecimal?` gives the nearest number. The two cases in front only keep the powers of ten small:
  a decimal of that size is infinite or rounds to zero.
* `ofScaled?` starts from the rounded digits and multiplies or divides by rounded powers of ten, so
  its last bit may differ. It is how a reader works that has no wider arithmetic.
-/
namespace BrokerPolicy.Binary64

/-- The number nearest to `± digits · 10 ^ exponent`, none if that is too large to be finite. -/
def ofDecimal? (negative : Bool) (digits : Nat) (exponent : Int) : Option Binary64 :=
  let size : Int := (Nat.toDigits 10 digits).length + exponent
  if digits = 0 then some (zero negative)
  else if 310 < size then none
  else if size < -324 then some (zero negative)
  else nearest? negative (digits * Nat.pow 10 exponent.toNat) (Nat.pow 10 (-exponent).toNat)

/-- The number nearest to a natural number. -/
def ofNat? (n : Nat) : Option Binary64 :=
  nearest? false n 1

/-- The number nearest to a power of ten. -/
def pow10? (n : Nat) : Option Binary64 :=
  nearest? false (Nat.pow 10 n) 1

/-- Multiplies by a power of ten that is itself a number of the format, so at most the 308th. A
larger one overflows, or leaves a zero as it is. -/
def scaleUp? (x : Binary64) (exponent : Nat) : Option Binary64 :=
  if exponent ≤ 308 then (pow10? exponent).bind (mul? x)
  else if x.isZero then some x
  else none

/-- Divides by a power of ten, 308 places at a time. `steps` bounds their number. -/
def divPow10? : (steps : Nat) → Binary64 → (exponent : Nat) → Option Binary64
  | 0, x, _ => some x
  | steps + 1, x, exponent =>
    if exponent ≤ 308 then (pow10? exponent).bind (div? x)
    else if x.isZero then some x
    else do divPow10? steps (← (pow10? 308).bind (div? x)) (exponent - 308)

/-- The digits, rounded, times or over rounded powers of ten, rounded each time; none if that
becomes too large to be finite. A number divided four times by the 308th power is zero, so few
steps suffice. -/
def ofScaled? (negative : Bool) (digits : Nat) (exponent : Int) : Option Binary64 := do
  let x ← ofNat? digits
  let y ← if 0 ≤ exponent then scaleUp? x exponent.toNat else divPow10? 8 x exponent.natAbs
  return { y with negative }

end BrokerPolicy.Binary64
