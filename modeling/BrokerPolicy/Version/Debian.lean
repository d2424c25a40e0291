import BrokerPolicy.Text.Blank
import BrokerPolicy.Text.Digits
import BrokerPolicy.Text.Utf8

/-!
Debian package versions, `[epoch:]release[-revision]`, and their order.

* `Version.parse` reads a version from any text: blanks around it do not count, an epoch is a number
  before the first colon, the revision stands after the last hyphen.
* `comparePart` orders releases and revisions. Text and numbers alternate; text is compared
  byte by byte through `weight`, in which a tilde comes before the end of the text, letters after it
  and other bytes after those; numbers are compared by value.
* `passText` and `compareNumber` are one round of that walk. `passText_eq_drop` says that both sides
  are passed over in step and neither beyond its end, `length_afterRound_lt` that every round takes
  a byte, and `compareRounds_eq_of_le` that no more rounds are needed than there are bytes.
-/
namespace BrokerPolicy

/-- The parts of a Debian version. -/
structure Version where
  epoch : Nat
  /-- The version of the software in the package. -/
  release : List Char
  /-- The version of the packaging. -/
  revision : List Char
  deriving DecidableEq

namespace Version

/-! ### Reading -/

/-- The largest epoch; larger ones count as it. -/
def maxEpoch : Nat := UInt64.size - 1

/-- The text before and after the first occurrence of a character. -/
def splitFirst? (sep : Char) : List Char → Option (List Char × List Char)
  | [] => none
  | c :: cs =>
    if c = sep then some ([], cs)
    else (splitFirst? sep cs).map fun (before, after) => (c :: before, after)

/-- The text before and after the last occurrence of a character. -/
def splitLast? (sep : Char) (cs : List Char) : Option (List Char × List Char) :=
  (splitFirst? sep cs.reverse).map fun (after, before) => (before.reverse, after.reverse)

/-- The epoch and the text after its colon; zero and the whole text if there is none. -/
def splitEpoch (cs : List Char) : Nat × List Char :=
  match splitFirst? ':' cs with
  | some (digits, rest) =>
    if digits ≠ [] ∧ digits.all Char.isDigit then (min (Text.decimalValue digits) maxEpoch, rest)
    else (0, cs)
  | none => (0, cs)

/-- The parts of a version text. -/
def parse (s : String) : Version :=
  let (epoch, rest) := splitEpoch (Text.trimChars s.toList)
  match splitLast? '-' rest with
  | some (release, revision) => { epoch, release, revision }
  | none => { epoch, release := rest, revision := [] }

/-! ### The order of the parts -/

/-- A decimal digit. -/
def isDigit (b : UInt8) : Bool :=
  0x30 ≤ b && b ≤ 0x39

/-- An ASCII letter. -/
def isLetter (b : UInt8) : Bool :=
  (0x41 ≤ b && b ≤ 0x5A) || (0x61 ≤ b && b ≤ 0x7A)

/-- The rank of a byte inside text; a digit ranks as the end of the text does. -/
def weight : Option UInt8 → Int
  | none => 0
  | some b =>
    if b = 0x7E then -1
    else if isDigit b then 0
    else if isLetter b then b.toNat
    else b.toNat + 256

/-- A part begins with text. -/
def startsText (xs : List UInt8) : Bool :=
  xs.head?.any fun b => !isDigit b

/-- Passes over the text at the start of both parts: what follows it, or the order of the first two
bytes that differ in weight. -/
def passText : List UInt8 → List UInt8 → Except Ordering (List UInt8 × List UInt8)
  | x :: xs, y :: ys =>
    if isDigit x && isDigit y then .ok (x :: xs, y :: ys)
    else if weight (some x) = weight (some y) then passText xs ys
    else .error (compare (weight (some x)) (weight (some y)))
  | xs, ys =>
    if startsText xs || startsText ys then .error (compare (weight xs.head?) (weight ys.head?))
    else .ok (xs, ys)

/-- The digits of the number at the start of a part, without leading zeros. -/
def leadingNumber (xs : List UInt8) : List UInt8 :=
  (xs.takeWhile isDigit).dropWhile (· == 0x30)

/-- Compares numbers without leading zeros: the longer one is larger, of two as long the one with
the larger first digit that differs. -/
def compareNumber (ds es : List UInt8) : Ordering :=
  (compare ds.length es.length).then (compare (ds.map UInt8.toNat) (es.map UInt8.toNat))

/-- Compares parts by rounds of text and number, `rounds` of them at most. -/
def compareRounds : (rounds : Nat) → List UInt8 → List UInt8 → Ordering
  | 0, _, _ => .eq
  | rounds + 1, xs, ys =>
    if xs.isEmpty && ys.isEmpty then .eq
    else match passText xs ys with
      | .error order => order
      | .ok (xs, ys) =>
        match compareNumber (leadingNumber xs) (leadingNumber ys) with
        | .eq => compareRounds rounds (xs.dropWhile isDigit) (ys.dropWhile isDigit)
        | order => order

/-- The order of two releases or revisions. Every round passes over a byte at least. -/
def comparePart (xs ys : List UInt8) : Ordering :=
  compareRounds (xs.length + ys.length) xs ys

/-- The order of two parsed versions: by epoch, release and revision. -/
def compareParsed (a b : Version) : Ordering :=
  (compare a.epoch b.epoch).then <|
    (comparePart (Text.Utf8.encode a.release) (Text.Utf8.encode b.release)).then <|
      comparePart (Text.Utf8.encode a.revision) (Text.Utf8.encode b.revision)

/-- The order of two version texts. -/
def compareText (a b : String) : Ordering :=
  compareParsed (parse a) (parse b)

/-! ### One round after the other -/

/-- Text is passed over on both sides in step. -/
theorem passText_eq_drop {xs ys xs' ys' : List UInt8} (h : passText xs ys = .ok (xs', ys')) :
    ∃ n ≤ min xs.length ys.length, xs' = xs.drop n ∧ ys' = ys.drop n := by
  fun_induction passText xs ys with
  | case1 x xs y ys hd => cases h; exact ⟨0, Nat.zero_le _, rfl, rfl⟩
  | case2 x xs y ys hd hw ih =>
    obtain ⟨n, hn, hx, hy⟩ := ih h
    refine ⟨n + 1, ?_, hx, hy⟩
    simp only [List.length_cons]
    omega
  | case3 => cases h
  | case4 => cases h
  | case5 => cases h; exact ⟨0, Nat.zero_le _, rfl, rfl⟩

/-- After the text there is a number on both sides, or the end. -/
theorem not_startsText_of_passText {xs ys xs' ys' : List UInt8}
    (h : passText xs ys = .ok (xs', ys')) : startsText xs' = false ∧ startsText ys' = false := by
  fun_induction passText xs ys with
  | case1 x xs y ys hd =>
    cases h
    simpa [startsText] using hd
  | case2 x xs y ys hd hw ih => exact ih h
  | case3 => cases h
  | case4 => cases h
  | case5 _ _ _ ht => cases h; simpa using ht

/-- A round takes a byte at least, unless both sides are at their end. -/
theorem length_afterRound_lt {xs ys xs' ys' : List UInt8} (hne : ¬(xs.isEmpty && ys.isEmpty))
    (h : passText xs ys = .ok (xs', ys')) :
    (xs'.dropWhile isDigit).length + (ys'.dropWhile isDigit).length < xs.length + ys.length := by
  have le (zs : List UInt8) : (zs.dropWhile isDigit).length ≤ zs.length :=
    (List.dropWhile_suffix isDigit).length_le
  have lt {zs : List UInt8} (ht : startsText zs = false) (hz : zs ≠ []) :
      (zs.dropWhile isDigit).length < zs.length := by
    cases zs with
    | nil => exact absurd rfl hz
    | cons z zs =>
      have hd : isDigit z = true := by simpa [startsText] using ht
      simpa [List.dropWhile_cons, hd] using Nat.lt_succ_of_le (le zs)
  obtain ⟨tx, ty⟩ := not_startsText_of_passText h
  obtain ⟨n, hn, hx, hy⟩ := passText_eq_drop h
  have lx := le xs'
  have ly := le ys'
  have ex : xs'.length = xs.length - n := by rw [hx, List.length_drop]
  have ey : ys'.length = ys.length - n := by rw [hy, List.length_drop]
  -- a round that passes no text begins with digits on one side, and those it drops
  rcases Nat.eq_zero_or_pos n with rfl | hpos
  · rw [List.drop_zero] at hx hy
    subst hx hy
    by_cases h0 : xs' = []
    · have h1 : ys' ≠ [] := by rintro rfl; simp [h0] at hne
      have := lt ty h1
      omega
    · have := lt tx h0
      omega
  · omega

/-- No more rounds are needed than there are bytes. -/
theorem compareRounds_eq_of_le {m n : Nat} {xs ys : List UInt8} (hm : xs.length + ys.length ≤ m)
    (hn : xs.length + ys.length ≤ n) : compareRounds m xs ys = compareRounds n xs ys := by
  have done {n : Nat} {xs ys : List UInt8} (h : (xs.isEmpty && ys.isEmpty) = true) :
      compareRounds n xs ys = .eq := by
    cases n with
    | zero => rfl
    | succ n => rw [compareRounds, if_pos h]
  have ends {xs ys : List UInt8} (h : xs.length + ys.length ≤ 0) :
      (xs.isEmpty && ys.isEmpty) = true := by
    cases xs <;> cases ys <;> simp at h ⊢
  -- on the larger bound; each round leaves less than it was given
  induction m generalizing n xs ys with
  | zero => rw [done (ends hm), done (ends hm)]
  | succ m ih =>
    by_cases hne : (xs.isEmpty && ys.isEmpty) = true
    · rw [done hne, done hne]
    · cases n with
      | zero => exact absurd (ends hn) hne
      | succ n =>
        rw [compareRounds, compareRounds, if_neg hne, if_neg hne]
        cases hp : passText xs ys with
        | error order => rfl
        | ok r =>
          have hlt := length_afterRound_lt hne hp
          have := @ih n (r.1.dropWhile isDigit) (r.2.dropWhile isDigit) (by omega) (by omega)
          simp only [this]

theorem compareRounds_eq_comparePart {n : Nat} {xs ys : List UInt8}
    (h : xs.length + ys.length ≤ n) : compareRounds n xs ys = comparePart xs ys :=
  compareRounds_eq_of_le h (Nat.le_refl _)

end Version

end BrokerPolicy
