import Mathlib.Tactic
import BrokerPolicy.Text.Digits

/-!
Numbers in decimal: the digits that are written for a number denote it (`decimalValue_toDigits`),
and a number other than zero is written without a leading zero (`head?_toDigits_ne_zero`). Both
are by induction on the number, one digit at a time from its end (`toDigits_of_le`). Zeros put
before the digits do not count: `decimalValue_zeros_append`.

What digits denote can be said without reading them: each counts with its place (`placeValue`,
`decimalValue_eq_placeValue`).
-/

namespace BrokerPolicy.Text

lemma digitValue_digitChar : ∀ d < 10, digitValue (Nat.digitChar d) = d := by
  decide

/-- The last digit is the remainder. -/
lemma toDigits_of_le {n : ℕ} (h : 10 ≤ n) :
    Nat.toDigits 10 n = Nat.toDigits 10 (n / 10) ++ [Nat.digitChar (n % 10)] := by
  have hlast : n % 10 < 10 := Nat.mod_lt n (by omega)
  have hdiv : 0 < n / 10 := Nat.div_pos h (by omega)
  calc Nat.toDigits 10 n = Nat.toDigits 10 (10 * (n / 10) + n % 10) := by rw [Nat.div_add_mod]
    _ = Nat.toDigits 10 (n / 10) ++ Nat.toDigits 10 (n % 10) :=
        (Nat.toDigits_append_toDigits (by omega) hdiv hlast).symm
    _ = Nat.toDigits 10 (n / 10) ++ [Nat.digitChar (n % 10)] := by
        rw [Nat.toDigits_of_lt_base hlast]

/-- What is written for a number is read as that number. -/
lemma decimalValue_toDigits (n : ℕ) : decimalValue (Nat.toDigits 10 n) = n := by
  induction n using Nat.strong_induction_on with
  | _ n ih =>
      rcases Nat.lt_or_ge n 10 with hlt | hge
      · rw [Nat.toDigits_of_lt_base hlt]
        show 10 * 0 + digitValue n.digitChar = n
        rw [digitValue_digitChar n hlt, Nat.mul_zero, Nat.zero_add]
      · have hvalue : decimalValue (Nat.toDigits 10 (n / 10)) = n / 10 := ih (n / 10) (by omega)
        rw [toDigits_of_le hge, decimalValue, baseValue_concat,
          digitValue_digitChar _ (Nat.mod_lt n (by omega)), ← decimalValue, hvalue]
        exact Nat.div_add_mod n 10

lemma toDigits_ne_nil (n : ℕ) : Nat.toDigits 10 n ≠ [] :=
  List.length_pos_iff.1 Nat.length_toDigits_pos

lemma isDigit_of_mem_toDigits {n : ℕ} {c : Char} (h : c ∈ Nat.toDigits 10 n) : c.isDigit = true :=
  Nat.isDigit_of_mem_toDigits (by omega) (by omega) h

/-- No zero stands in front, unless the number is zero. -/
lemma head?_toDigits_ne_zero {n : ℕ} (h : n ≠ 0) : (Nat.toDigits 10 n).head? ≠ some '0' := by
  induction n using Nat.strong_induction_on with
  | _ n ih =>
      rcases Nat.lt_or_ge n 10 with hlt | hge
      · have hchar : ∀ d < 10, d ≠ 0 → Nat.digitChar d ≠ '0' := by decide
        rw [Nat.toDigits_of_lt_base hlt]
        exact fun heq => hchar n hlt h (Option.some.inj heq)
      · rw [toDigits_of_le hge, List.head?_append_of_ne_nil _ (toDigits_ne_nil _)]
        exact ih (n / 10) (by omega) (by omega)

/-- The number that decimal digits denote by their places. -/
def placeValue (ds : List Char) : ℕ :=
  Nat.ofDigits 10 (ds.reverse.map fun d => d.toNat - '0'.toNat)

/-- To read digits one after the other is to weigh each by its place. -/
lemma decimalValue_eq_placeValue {ds : List Char} (h : ∀ d ∈ ds, d.isDigit = true) :
    decimalValue ds = placeValue ds := by
  induction ds using List.reverseRecOn with
  | nil => rfl
  | append_singleton ds d ih =>
      have hdigit : digitValue d = d.toNat - '0'.toNat := if_pos (h d (by simp))
      have hfront : decimalValue ds = placeValue ds :=
        ih fun c hc => h c (List.mem_append_left _ hc)
      rw [decimalValue, baseValue_concat, ← decimalValue, hfront, hdigit, placeValue, placeValue,
        List.reverse_append, List.reverse_singleton, List.singleton_append, List.map_cons,
        Nat.ofDigits_cons, Nat.add_comm]

/-- Leading zeros do not count. -/
lemma decimalValue_zeros_append (n : ℕ) (ds : List Char) :
    decimalValue (List.replicate n '0' ++ ds) = decimalValue ds := by
  induction n with
  | zero => rfl
  | succ n ih =>
      rw [List.replicate_succ, List.cons_append, decimalValue, baseValue, List.foldl_cons]
      exact ih

end BrokerPolicy.Text
