import BrokerPolicy.Binary64.Decimal
import BrokerPolicy.Binary64.Shortest
import BrokerPolicy.Text.Digits

/-!
JSON numbers.

An integer that fits a 64-bit word, signed or unsigned, is kept as it is; every other number is a
finite binary one.

* `Integer` carries its bounds; `Integer.ofInt?` checks them.
* `Number.chars` is the written form. Integers are decimal. Of a binary number the fewest digits
  that read back are written: as they stand, with a fraction part, while the first digit is in the
  sixteen places before the point or the five after it, and with an exponent otherwise.
* `Literal` is a number as it is spelled, `Literal.number?` what it denotes.
-/
namespace BrokerPolicy.Json

/-- An integer that fits a signed or an unsigned word of 64 bits. -/
structure Integer where
  val : Int
  le_val : -0x8000000000000000 ≤ val
  val_lt : val < 0x10000000000000000
  deriving DecidableEq

namespace Integer

/-- The integer as a word, if it fits one. -/
def ofInt? (n : Int) : Option Integer :=
  if h : -0x8000000000000000 ≤ n ∧ n < 0x10000000000000000 then some ⟨n, h.1, h.2⟩ else none

/-- A signed word. -/
def ofInt64 (n : Int64) : Integer where
  val := n.toInt
  le_val := by have := n.le_toInt; omega
  val_lt := by have := n.toInt_lt; omega

theorem ofInt?_val (n : Integer) : ofInt? n.val = some n :=
  dif_pos ⟨n.le_val, n.val_lt⟩

theorem ofInt?_eq_none_iff {n : Int} :
    ofInt? n = none ↔ n < -0x8000000000000000 ∨ 0x10000000000000000 ≤ n := by
  simp only [ofInt?, dite_eq_right_iff, reduceCtorEq, imp_false]
  omega

end Integer

/-- A number: an integer of 64 bits or a finite binary number. -/
inductive Number where
  | integer (n : Integer)
  | float (x : Binary64)
  deriving DecidableEq

/-! ### The written form -/

/-- An integer in decimal. -/
def intChars (n : Int) : List Char :=
  if n < 0 then '-' :: Nat.toDigits 10 n.natAbs else Nat.toDigits 10 n.natAbs

/-- Digits as they stand, the last of them at `10 ^ exponent`, with a fraction part. -/
def positional (digits : List Char) (exponent : Int) : List Char :=
  if 0 ≤ exponent then digits ++ List.replicate exponent.toNat '0' ++ ['.', '0']
  else
    let places := exponent.natAbs
    if places < digits.length then
      digits.take (digits.length - places) ++ '.' :: digits.drop (digits.length - places)
    else '0' :: '.' :: List.replicate (places - digits.length) '0' ++ digits

/-- The first digit before the point, the others after it, and the exponent of the first with its
sign. -/
def scientific (digits : List Char) (lead : Int) : List Char :=
  let mantissa := match digits with
    | [] => []
    | [d] => [d]
    | d :: ds => d :: '.' :: ds
  mantissa ++ 'e' :: (if lead < 0 then '-' else '+') :: Nat.toDigits 10 lead.natAbs

/-- A binary number in the fewest digits that read back. -/
def floatChars (x : Binary64) : List Char :=
  let (n, exponent) := x.shortest
  let digits := Nat.toDigits 10 n
  let lead := exponent + digits.length - 1
  let body := if -5 ≤ lead ∧ lead < 16 then positional digits exponent else scientific digits lead
  if x.negative then '-' :: body else body

/-- The written form of a number. -/
def Number.chars : Number → List Char
  | .integer n => intChars n.val
  | .float x => floatChars x

/-! ### Spelled numbers -/

/-- A number as it is spelled: sign, digits before the point, digits after it and exponent. -/
structure Literal where
  negative : Bool
  whole : List Char
  fraction : Option (List Char) := none
  exponent : Option Int := none

/-- Appends digits to `n` while the result fits 64 bits, and counts the digits left over. -/
def appendWhileFits (n : Nat) : List Char → Nat × Nat
  | [] => (n, 0)
  | d :: ds =>
    let m := 10 * n + Text.digitValue d
    if m < UInt64.size then appendWhileFits m ds else (n, ds.length + 1)

namespace Literal

/-- The binary number that is meant. Digits are taken as long as they fit 64 bits; left over digits
before the point count as zeros, those after it do not count. -/
def float? (l : Literal) : Option Binary64 :=
  let (n, dropped) := appendWhileFits 0 l.whole
  let fraction := l.fraction.getD []
  let (m, rest) := appendWhileFits n fraction
  let places : Int := dropped - (fraction.length - rest : Nat)
  Binary64.ofScaled? l.negative m (places + l.exponent.getD 0)

/-- The number that a literal denotes: an integer if it is spelled as one, is not the negative zero
and fits a word; none if it is too large to be finite. -/
def number? (l : Literal) : Option Number :=
  let size : Int := Text.decimalValue l.whole
  let n := if l.negative then -size else size
  if l.fraction.isNone ∧ l.exponent.isNone ∧ ¬(l.negative ∧ n = 0) then
    match Integer.ofInt? n with
    | some n => some (.integer n)
    | none => l.float?.map .float
  else l.float?.map .float

end Literal

end BrokerPolicy.Json
