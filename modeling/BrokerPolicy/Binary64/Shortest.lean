import BrokerPolicy.Binary64.Basic

/-!
The fewest decimal digits that read back as a given number.

The decimals that round to `x` fill an interval around it, ends included when the mantissa is even.
`shortest` looks at the grids of multiples of `10 ^ t`, the coarsest first, and takes the first grid
that has a point in the interval; one of the two grid points next to `x` is then in it, and of two
the nearer is taken. `Grid` compares a grid point with the interval in integers, all quantities over
a common denominator. `inInterval_of_hit` says that a hit reads back, and `hit?_eq_none` that a grid
is passed over only if both its points next to `x` lie outside.
-/
namespace BrokerPolicy.Binary64

/-- The grid of multiples of `10 ^ t` seen from a number: with `point` the size of one grid step and
`unit` a quarter of the last place of the number, both over a common denominator. -/
structure Grid where
  point : Nat
  unit : Nat

namespace Grid

/-- The grid of multiples of `10 ^ t` seen from `x`. -/
def ofPower (x : Binary64) (t : Int) : Grid where
  point := Nat.pow 10 t.toNat * Nat.pow 2 (2 - x.exponent).toNat
  unit := Nat.pow 10 (-t).toNat * Nat.pow 2 (x.exponent - 2).toNat

/-- The number itself. -/
def centre (g : Grid) (x : Binary64) : Nat :=
  4 * x.mantissa * g.unit

/-- The lower end of the interval; below a power of two the numbers lie twice as close. -/
def lower (g : Grid) (x : Binary64) : Nat :=
  (if x.mantissa = Nat.pow 2 52 ∧ -1074 < x.exponent then 4 * x.mantissa - 1
    else 4 * x.mantissa - 2) * g.unit

/-- The upper end of the interval. -/
def upper (g : Grid) (x : Binary64) : Nat :=
  (4 * x.mantissa + 2) * g.unit

/-- The `c`-th grid point reads back as `x`. -/
def inInterval (g : Grid) (x : Binary64) (c : Nat) : Bool :=
  if x.mantissa % 2 = 0 then g.lower x ≤ c * g.point && c * g.point ≤ g.upper x
  else g.lower x < c * g.point && c * g.point < g.upper x

/-- The grid point next to `x` that reads back as it, of two the nearer, of two as near the even. -/
def hit? (g : Grid) (x : Binary64) : Option Nat :=
  let below := g.centre x / g.point
  let above := below + 1
  match g.inInterval x below, g.inInterval x above with
  | true, true =>
    let down := g.centre x - below * g.point
    let up := above * g.point - g.centre x
    if down < up then some below
    else if up < down then some above
    else some (below + below % 2)
  | true, false => some below
  | false, true => some above
  | false, false => none

end Grid

/-- Tries the grids of multiples of `10 ^ t` and of the smaller powers of ten, `steps` of them. -/
def shortestFrom (x : Binary64) : (steps : Nat) → (t : Int) → Nat × Int
  | 0, t => ((Grid.ofPower x t).centre x / (Grid.ofPower x t).point, t)
  | steps + 1, t =>
    match (Grid.ofPower x t).hit? x with
    | some c => (c, t)
    | none => shortestFrom x steps (t - 1)

/-- The fewest digits that read back as the absolute value of `x`, and the power of ten of the last
of them. Seventeen digits always do. -/
def shortest (x : Binary64) : Nat × Int :=
  if x.isZero then (0, 0)
  else shortestFrom x 20 (((x.mantissa.log2 + x.exponent + 1) * 30103).fdiv 100000 + 1)

/-! ### What a hit means -/

/-- A hit lies in the interval of the decimals that round to the number. -/
theorem Grid.inInterval_of_hit {g : Grid} {x : Binary64} {c : Nat} (h : g.hit? x = some c) :
    g.inInterval x c = true := by
  unfold Grid.hit? at h
  simp only at h
  split at h
  · next hb ha =>
    split at h
    · cases h; exact hb
    · split at h
      · cases h; exact ha
      · rcases Nat.mod_two_eq_zero_or_one (g.centre x / g.point) with h2 | h2 <;>
          (rw [h2] at h; cases h; assumption)
  · next hb _ => cases h; exact hb
  · next _ ha => cases h; exact ha
  · exact absurd h (by simp)

/-- A grid is passed over only if both its points next to the number lie outside the interval. -/
theorem Grid.hit?_eq_none {g : Grid} {x : Binary64} :
    g.hit? x = none ↔ g.inInterval x (g.centre x / g.point) = false ∧
      g.inInterval x (g.centre x / g.point + 1) = false := by
  unfold Grid.hit?
  simp only
  split
  · next hb ha => simp only [hb, ha]; split <;> (try split) <;> simp
  · next hb ha => simp [hb]
  · next hb ha => simp [hb, ha]
  · next hb ha => simp [hb, ha]

end BrokerPolicy.Binary64
