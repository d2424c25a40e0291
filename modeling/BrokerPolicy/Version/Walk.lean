import BrokerPolicy.Version.Debian

/-!
Two parts of versions compared with a place kept in each.

`comparePart` goes on with what is left of the parts. A `Walk` leaves the parts as they are and
keeps a place in each of them, besides what is being passed over there (`Phase`) and the number of
rounds that have begun. `Walk.next` looks at the bytes in the two places and moves on, or has found
the order. It asks where the parts end only when a round begins: as long as there is text in either
part, both places move on.
-/
namespace BrokerPolicy.Version

/-- What a walk along two parts is passing over. -/
inductive Phase where
  /-- Nothing: a round begins here, unless both parts are at their end. -/
  | round
  /-- Text, in both parts in step. -/
  | text
  /-- Zeros at the start of the left number. -/
  | leftZeros
  /-- Zeros at the start of the right number. -/
  | rightZeros
  /-- Digits, in both parts in step; `order` is that of the first two that differ. -/
  | digits (order : Ordering)
  deriving DecidableEq

/-- A walk along two parts: the place reached in each of them. -/
structure Walk where
  phase : Phase
  left : Nat
  right : Nat
  /-- How many rounds have begun. -/
  rounds : Nat
  deriving DecidableEq

namespace Walk

/-- There is text in this place of a part. -/
def textAt (xs : List UInt8) (i : Nat) : Bool :=
  xs[i]?.any fun b => !isDigit b

/-- There is a digit in this place of a part. -/
def digitAt (xs : List UInt8) (i : Nat) : Bool :=
  xs[i]?.any isDigit

/-- Before the first round. -/
def start : Walk where
  phase := .round
  left := 0
  right := 0
  rounds := 0

/-- Goes on from the bytes in the two places, or ends with the order of the parts. -/
def next (a b : List UInt8) (w : Walk) : Except Ordering Walk :=
  match w.phase with
  | .round =>
    if w.left < a.length || w.right < b.length then
      .ok { w with phase := .text, rounds := w.rounds + 1 }
    else .error .eq
  | .text =>
    if textAt a w.left || textAt b w.right then
      if weight a[w.left]? = weight b[w.right]? then
        .ok { w with left := w.left + 1, right := w.right + 1 }
      else .error (compare (weight a[w.left]?) (weight b[w.right]?))
    else .ok { w with phase := .leftZeros }
  | .leftZeros =>
    if a[w.left]? = some 0x30 then .ok { w with left := w.left + 1 }
    else .ok { w with phase := .rightZeros }
  | .rightZeros =>
    if b[w.right]? = some 0x30 then .ok { w with right := w.right + 1 }
    else .ok { w with phase := .digits .eq }
  | .digits order =>
    if digitAt a w.left && digitAt b w.right then
      let digits := compare (a[w.left]?.map UInt8.toNat) (b[w.right]?.map UInt8.toNat)
      .ok { w with phase := .digits (order.then digits), left := w.left + 1, right := w.right + 1 }
    else if digitAt a w.left then .error .gt
    else if digitAt b w.right then .error .lt
    else if order = .eq then .ok { w with phase := .round }
    else .error order

end Walk

end BrokerPolicy.Version
