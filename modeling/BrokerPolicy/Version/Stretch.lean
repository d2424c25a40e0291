import BrokerPolicy.Version.Debian

/-!
The order of Debian versions, said of one part at a time.

A part of a version is a sequence of stretches, each some text and the number after it. The sequence
does not end: behind the last byte of a part its stretches are empty (`stretchAt_nil`).

* `rank` is the table by which text is ordered: a tilde, the end of the text, letters, other bytes.
* `Stretch.compare` orders two stretches, by their text and then by their numbers.
* `stretchAt xs n` is the `n`-th stretch of a part, read off the part alone.
* `PartLt` is the lexicographic order of the sequences: the first stretch in which two parts differ
  decides.

The digits and the table are written out here, apart from the ones the comparison works with;
`isNumeral_eq_isDigit` and `weight_eq_rank` say that they are the same on text.
-/
namespace BrokerPolicy.Version

/-! ### Text and numbers -/

/-- A byte of a number: one of the ten digits. -/
def isNumeral (b : UInt8) : Bool :=
  '0'.toNat ≤ b.toNat && b.toNat ≤ '9'.toNat

/-- A byte of text. -/
def isText (b : UInt8) : Bool :=
  !isNumeral b

/-- The rank of a byte of text, where the end of the text has rank zero: a tilde comes before it,
letters come after it in the order of their codes, and then everything else. -/
def rank (b : UInt8) : Int :=
  if b.toNat = '~'.toNat then -1
  else if 'A'.toNat ≤ b.toNat ∧ b.toNat ≤ 'Z'.toNat ∨ 'a'.toNat ≤ b.toNat ∧ b.toNat ≤ 'z'.toNat then
    b.toNat
  else b.toNat + 256

/-- Some text, as the ranks of its bytes, and the number after it. -/
structure Stretch where
  text : List Int
  number : Nat
  deriving DecidableEq

/-- The order of two stretches. A mark of rank zero stands behind the text, so what follows the
end of the shorter text is compared with zero. -/
def Stretch.compare (x y : Stretch) : Ordering :=
  (Ord.compare (x.text ++ [0]) (y.text ++ [0])).then (Ord.compare x.number y.number)

/-- The number that digits denote, of any size. -/
def numberOf (digits : List UInt8) : Nat :=
  digits.foldl (fun n d => 10 * n + (d.toNat - 0x30)) 0

/-- The stretch at the start of a part. -/
def firstStretch (xs : List UInt8) : Stretch where
  text := (xs.takeWhile isText).map rank
  number := numberOf ((xs.dropWhile isText).takeWhile isNumeral)

/-- What follows the first stretch. -/
def afterStretch (xs : List UInt8) : List UInt8 :=
  (xs.dropWhile isText).dropWhile isNumeral

/-- The stretches of a part, counted from zero. -/
def stretchAt (xs : List UInt8) : Nat → Stretch
  | 0 => firstStretch xs
  | n + 1 => stretchAt (afterStretch xs) n

/-- One part comes before another: in the first stretch in which they differ. -/
def PartLt (xs ys : List UInt8) : Prop :=
  ∃ n, (∀ m < n, stretchAt xs m = stretchAt ys m) ∧
    (stretchAt xs n).compare (stretchAt ys n) = .lt

/-! ### The table and the comparison -/

/-- The digits are the ones at which the comparison ends text. -/
theorem isNumeral_eq_isDigit : isNumeral = isDigit := by
  funext b
  simp only [isNumeral, isDigit, UInt8.le_iff_toNat_le]
  rfl

/-- The comparison weighs a byte of text by its rank. -/
theorem weight_eq_rank {b : UInt8} (h : isText b = true) : weight (some b) = rank b := by
  have hdigit : isDigit b = false := by
    rw [← isNumeral_eq_isDigit]
    simpa [isText] using h
  have htilde : b = 0x7E ↔ b.toNat = '~'.toNat := UInt8.toNat_inj.symm
  have hletter : isLetter b = true ↔
      'A'.toNat ≤ b.toNat ∧ b.toNat ≤ 'Z'.toNat ∨ 'a'.toNat ≤ b.toNat ∧ b.toNat ≤ 'z'.toNat := by
    simp only [isLetter, Bool.or_eq_true, Bool.and_eq_true, decide_eq_true_eq,
      UInt8.le_iff_toNat_le]
    rfl
  simp only [weight, rank, hdigit, htilde, hletter, Bool.false_eq_true, if_false]

/-! ### The end of a part -/

theorem stretchAt_nil (n : Nat) : stretchAt [] n = { text := [], number := 0 } := by
  induction n with
  | zero => rfl
  | succ n ih => exact ih

/-- A part that is not at its end gets shorter with every stretch. -/
theorem length_afterStretch_lt {xs : List UInt8} (h : xs ≠ []) :
    (afterStretch xs).length < xs.length := by
  have le (p : UInt8 → Bool) (zs : List UInt8) : (zs.dropWhile p).length ≤ zs.length :=
    (List.dropWhile_suffix p).length_le
  cases xs with
  | nil => exact absurd rfl h
  | cons x xs =>
    by_cases hx : isNumeral x = true
    · have ht : isText x = false := by simp [isText, hx]
      have : afterStretch (x :: xs) = xs.dropWhile isNumeral := by
        simp [afterStretch, ht, hx]
      rw [this, List.length_cons]
      exact Nat.lt_succ_of_le (le isNumeral xs)
    · have ht : isText x = true := by simp [isText, hx]
      have : afterStretch (x :: xs) = (xs.dropWhile isText).dropWhile isNumeral := by
        simp [afterStretch, ht]
      rw [this, List.length_cons]
      exact Nat.lt_succ_of_le (Nat.le_trans (le isNumeral _) (le isText xs))

end BrokerPolicy.Version
