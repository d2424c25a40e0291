import Mathlib.Data.List.TakeWhile
import Mathlib.Tactic
import BrokerPolicy.Version.Stretch

/-!
Numbers in versions: they are compared digit by digit, and the result is the order of their values.

* `numberOf_cons` and `numberOf_lt_pow` read a numeral from its first digit on: the digit counts
  with its place, and what follows stays below one unit of that place.
* `compare_digits`: of two numerals of the same length the first digit that differs decides.
* `length_le_of_numberOf_le`: without leading zeros the longer numeral is the larger number.
* `compareNumber_leadingNumber` puts the two together, for numerals of any length and with any
  number of leading zeros.
-/

namespace BrokerPolicy.Version

/-! ### The value of a numeral -/

lemma toNat_of_isDigit {d : UInt8} (h : isDigit d = true) : 0x30 ≤ d.toNat ∧ d.toNat ≤ 0x39 := by
  simp only [isDigit, Bool.and_eq_true, decide_eq_true_eq, UInt8.le_iff_toNat_le] at h
  exact h

/-- Digits read on after a number shift it by their places. -/
lemma foldl_digits (n : ℕ) (ds : List UInt8) :
    ds.foldl (fun n d => 10 * n + (d.toNat - 0x30)) n = n * 10 ^ ds.length + numberOf ds := by
  induction ds generalizing n with
  | nil => simp [numberOf]
  | cons d ds ih =>
      have hd : numberOf (d :: ds) = (d.toNat - 0x30) * 10 ^ ds.length + numberOf ds := by
        rw [numberOf, List.foldl_cons, ih, Nat.mul_zero, Nat.zero_add]
      rw [List.foldl_cons, ih, hd, List.length_cons, pow_succ]
      ring

/-- The first digit counts with its place. -/
lemma numberOf_cons (d : UInt8) (ds : List UInt8) :
    numberOf (d :: ds) = (d.toNat - 0x30) * 10 ^ ds.length + numberOf ds := by
  rw [numberOf, List.foldl_cons, foldl_digits, Nat.mul_zero, Nat.zero_add]

/-- A numeral of `n` digits denotes a number below `10 ^ n`. -/
lemma numberOf_lt_pow {ds : List UInt8} (h : ∀ d ∈ ds, isDigit d = true) :
    numberOf ds < 10 ^ ds.length := by
  induction ds with
  | nil => simp [numberOf]
  | cons d ds ih =>
      have hd := toNat_of_isDigit (h d List.mem_cons_self)
      have hrest := ih fun e he => h e (List.mem_cons_of_mem _ he)
      have hplace : (d.toNat - 0x30) * 10 ^ ds.length ≤ 9 * 10 ^ ds.length :=
        Nat.mul_le_mul_right _ (by omega)
      rw [numberOf_cons, List.length_cons, pow_succ]
      omega

/-- Leading zeros do not count. -/
lemma numberOf_dropWhile_zero (ds : List UInt8) :
    numberOf (ds.dropWhile (· == 0x30)) = numberOf ds := by
  induction ds with
  | nil => rfl
  | cons d ds ih =>
      by_cases hd : d = 0x30
      · subst hd
        rw [List.dropWhile_cons_of_pos (by rfl), ih, numberOf_cons]
        simp
      · rw [List.dropWhile_cons_of_neg (by simpa using hd)]

/-! ### Numerals in order -/

/-- Of numerals of the same length the first digit that differs decides. -/
lemma compare_digits {ds es : List UInt8} (hd : ∀ d ∈ ds, isDigit d = true)
    (he : ∀ e ∈ es, isDigit e = true) (hlen : ds.length = es.length) :
    compare (ds.map UInt8.toNat) (es.map UInt8.toNat) = compare (numberOf ds) (numberOf es) := by
  induction ds generalizing es with
  | nil =>
      obtain rfl : es = [] := List.length_eq_zero_iff.1 hlen.symm
      rfl
  | cons d ds ih =>
      obtain ⟨e, es, rfl⟩ := List.exists_cons_of_length_eq_add_one hlen.symm
      have hlen' : ds.length = es.length := Nat.succ.inj hlen
      have hds := fun x hx => hd x (List.mem_cons_of_mem _ hx)
      have hes := fun x hx => he x (List.mem_cons_of_mem _ hx)
      have hd0 := toNat_of_isDigit (hd d List.mem_cons_self)
      have he0 := toNat_of_isDigit (he e List.mem_cons_self)
      have hdlt := numberOf_lt_pow hds
      have helt := numberOf_lt_pow hes
      rw [List.map_cons, List.map_cons, List.compare_cons_cons, ih hds hes hlen', numberOf_cons,
        numberOf_cons, hlen']
      rw [hlen'] at hdlt
      -- a larger first digit outweighs all that follows the smaller one
      rcases lt_trichotomy d.toNat e.toNat with hlt | heq | hgt
      · have hplace : (d.toNat - 0x30 + 1) * 10 ^ es.length ≤ (e.toNat - 0x30) * 10 ^ es.length :=
          Nat.mul_le_mul_right _ (by omega)
        rw [Nat.add_one_mul] at hplace
        rw [Nat.compare_eq_lt.2 hlt, Ordering.lt_then, eq_comm, Nat.compare_eq_lt]
        omega
      · rw [heq, Nat.compare_eq_eq.2 rfl, Ordering.eq_then, Nat.compare_eq_ite_lt,
          Nat.compare_eq_ite_lt]
        simp only [Nat.add_lt_add_iff_left]
      · have hplace : (e.toNat - 0x30 + 1) * 10 ^ es.length ≤ (d.toNat - 0x30) * 10 ^ es.length :=
          Nat.mul_le_mul_right _ (by omega)
        rw [Nat.add_one_mul] at hplace
        rw [Nat.compare_eq_gt.2 hgt, Ordering.gt_then, eq_comm, Nat.compare_eq_gt]
        omega

/-- Without leading zeros, the numeral of a smaller number is not longer. -/
lemma length_le_of_numberOf_le {ds es : List UInt8} (hd : ∀ d ∈ ds, isDigit d = true)
    (he : ∀ e ∈ es, isDigit e = true) (h0 : ds.head? ≠ some 0x30)
    (h : numberOf ds ≤ numberOf es) : ds.length ≤ es.length := by
  cases ds with
  | nil => exact Nat.zero_le _
  | cons d ds =>
      have hd0 := toNat_of_isDigit (hd d List.mem_cons_self)
      have hne : d.toNat ≠ 0x30 := by
        intro heq
        have hzero : d = 0x30 := UInt8.toNat_inj.1 heq
        exact h0 (by rw [hzero, List.head?_cons])
      -- with no zero in front, the first digit alone outweighs every shorter numeral
      have hplace : 1 * 10 ^ ds.length ≤ (d.toNat - 0x30) * 10 ^ ds.length :=
        Nat.mul_le_mul_right _ (by omega)
      have hes := numberOf_lt_pow he
      rw [numberOf_cons] at h
      have hpow : 10 ^ ds.length < 10 ^ es.length := by omega
      exact (Nat.pow_lt_pow_iff_right (by omega)).1 hpow

/-- Numerals without leading zeros compare as their values. -/
lemma compareNumber_eq {ds es : List UInt8} (hd : ∀ d ∈ ds, isDigit d = true)
    (he : ∀ e ∈ es, isDigit e = true) (hd0 : ds.head? ≠ some 0x30) (he0 : es.head? ≠ some 0x30) :
    compareNumber ds es = compare (numberOf ds) (numberOf es) := by
  rw [compareNumber]
  -- of numerals without zeros in front, the longer is the larger; at one length the digits decide
  rcases lt_trichotomy ds.length es.length with hlt | heq | hgt
  · have hnum : numberOf ds < numberOf es := by
      by_contra hle
      have := length_le_of_numberOf_le he hd he0 (Nat.not_lt.1 hle)
      omega
    rw [Nat.compare_eq_lt.2 hlt, Nat.compare_eq_lt.2 hnum, Ordering.lt_then]
  · rw [heq, Nat.compare_eq_eq.2 rfl, Ordering.eq_then, compare_digits hd he heq]
  · have hnum : numberOf es < numberOf ds := by
      by_contra hle
      have := length_le_of_numberOf_le hd he hd0 (Nat.not_lt.1 hle)
      omega
    rw [Nat.compare_eq_gt.2 hgt, Nat.compare_eq_gt.2 hnum, Ordering.gt_then]

/-- The numbers at the start of two parts compare as their values. -/
lemma compareNumber_leadingNumber (xs ys : List UInt8) :
    compareNumber (leadingNumber xs) (leadingNumber ys) =
      compare (numberOf (xs.takeWhile isNumeral)) (numberOf (ys.takeWhile isNumeral)) := by
  rw [isNumeral_eq_isDigit]
  have digits (zs : List UInt8) : ∀ d ∈ leadingNumber zs, isDigit d = true := fun d hd =>
    List.mem_takeWhile_imp ((List.dropWhile_suffix _).mem hd)
  have noZero (zs : List UInt8) : (leadingNumber zs).head? ≠ some 0x30 := fun h => by
    have := List.head?_dropWhile_not (· == (0x30 : UInt8)) (zs.takeWhile isDigit)
    rw [← leadingNumber, h] at this
    simp at this
  rw [compareNumber_eq (digits xs) (digits ys) (noZero xs) (noZero ys), leadingNumber,
    leadingNumber, numberOf_dropWhile_zero, numberOf_dropWhile_zero]

end BrokerPolicy.Version
