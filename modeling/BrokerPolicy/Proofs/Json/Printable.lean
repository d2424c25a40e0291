import BrokerPolicy.Json.Printer
import Mathlib.Tactic

/-!
No control is ever written.

Inside strings the controls below the space are escaped (`escapeChar_printable`), and nothing else
that is written is one: digits and signs of numbers, words, brackets, commas and colons. So the
compact form of a value holds none, whatever stands in its strings and in the keys of its objects,
at any depth (`Value.printable_chars`, by induction on the value).
-/

namespace BrokerPolicy.Json

/-- No character is a control below the space. -/
def Printable (cs : List Char) : Prop :=
  ∀ c ∈ cs, 0x20 ≤ c.toNat

section

variable {c : Char} {cs ds : List Char}

instance : Decidable (Printable cs) :=
  List.decidableBAll (fun c : Char => 0x20 ≤ c.toNat) cs

lemma printable_cons : Printable (c :: cs) ↔ 0x20 ≤ c.toNat ∧ Printable cs :=
  List.forall_mem_cons

lemma printable_append : Printable (cs ++ ds) ↔ Printable cs ∧ Printable ds :=
  List.forall_mem_append

/-- What is taken from printable characters is printable. -/
lemma Printable.of_subset (h : Printable ds) (hsub : cs ⊆ ds) : Printable cs :=
  fun c hc => h c (hsub hc)

end

/-! ### Numbers -/

/-- Digits are printable. -/
lemma printable_toDigits (n : ℕ) : Printable (Nat.toDigits 10 n) := by
  intro c hc
  have hdigit := Nat.isDigit_of_mem_toDigits (by omega) (by omega) hc
  simp only [Char.isDigit, Bool.and_eq_true, decide_eq_true_eq] at hdigit
  have hle : 0x30 ≤ c.toNat := UInt32.le_iff_toNat_le.1 hdigit.1
  omega

lemma printable_replicate (n : ℕ) : Printable (List.replicate n '0') := by
  intro c hc
  obtain rfl := List.eq_of_mem_replicate hc
  decide

lemma printable_intChars (n : ℤ) : Printable (intChars n) := by
  rw [intChars]
  split
  · exact printable_cons.2 ⟨by decide, printable_toDigits _⟩
  · exact printable_toDigits _

/-- A number is printable wherever its point stands, with the zeros it needs. -/
lemma printable_positional {digits : List Char} (h : Printable digits) (exponent : ℤ) :
    Printable (positional digits exponent) := by
  rw [positional]
  split
  · rw [printable_append, printable_append]
    exact ⟨⟨h, printable_replicate _⟩, by decide⟩
  · dsimp only
    split
    · rw [printable_append, printable_cons]
      exact ⟨h.of_subset (List.take_subset _ _), by decide, h.of_subset (List.drop_subset _ _)⟩
    · rw [printable_append, printable_cons, printable_cons]
      exact ⟨⟨by decide, by decide, printable_replicate _⟩, h⟩

/-- So is a number written with an exponent. -/
lemma printable_scientific {digits : List Char} (h : Printable digits) (lead : ℤ) :
    Printable (scientific digits lead) := by
  have hpower : Printable ('e' :: (if lead < 0 then '-' else '+') ::
      Nat.toDigits 10 lead.natAbs) := by
    refine printable_cons.2 ⟨by decide, printable_cons.2 ⟨?_, printable_toDigits _⟩⟩
    split <;> decide
  match digits, h with
  | [], _ => exact hpower
  | [d], h => exact printable_append.2 ⟨h, hpower⟩
  | d :: e :: ds, h =>
      obtain ⟨hd, hds⟩ := printable_cons.1 h
      exact printable_append.2 ⟨printable_cons.2 ⟨hd, printable_cons.2 ⟨by decide, hds⟩⟩, hpower⟩

/-- However a binary number is written, it holds no control. -/
lemma printable_floatChars (x : Binary64) : Printable (floatChars x) := by
  have hdigits := printable_toDigits x.shortest.1
  have hbody (lead : ℤ) : Printable (if -5 ≤ lead ∧ lead < 16 then
      positional (Nat.toDigits 10 x.shortest.1) x.shortest.2
      else scientific (Nat.toDigits 10 x.shortest.1) lead) := by
    split
    · exact printable_positional hdigits _
    · exact printable_scientific hdigits _
  rw [floatChars]
  dsimp only
  split
  · exact printable_cons.2 ⟨by decide, hbody _⟩
  · exact hbody _

/-! ### Values -/

/-- A string holds no control between its quotes, since controls are escaped. -/
lemma printable_stringChars (s : String) : Printable (stringChars s) := by
  refine printable_cons.2 ⟨by decide, printable_append.2 ⟨?_, by decide⟩⟩
  intro d hd
  obtain ⟨c, -, hc⟩ := List.mem_flatMap.1 hd
  exact escapeChar_printable hc

mutual

/-- No control is written, whatever a value holds. -/
theorem Value.printable_chars : (v : Value) → Printable v.chars
  | .null => by decide
  | .bool true => by decide
  | .bool false => by decide
  | .number (.integer n) => printable_intChars n.val
  | .number (.float x) => printable_floatChars x
  | .string s => printable_stringChars s
  | .array items => printable_cons.2 ⟨by decide, printable_itemsChars items⟩
  | .object members => printable_cons.2 ⟨by decide, printable_membersChars members⟩

theorem printable_itemsChars : (vs : List Value) → Printable (itemsChars vs)
  | [] => by decide
  | v :: vs => printable_append.2 ⟨v.printable_chars, printable_moreItemsChars vs⟩

theorem printable_moreItemsChars : (vs : List Value) → Printable (moreItemsChars vs)
  | [] => by decide
  | v :: vs => by
      rw [moreItemsChars, printable_append, printable_cons]
      exact ⟨⟨by decide, v.printable_chars⟩, printable_moreItemsChars vs⟩

theorem printable_membersChars : (ms : List (String × Value)) → Printable (membersChars ms)
  | [] => by decide
  | (k, v) :: ms => by
      rw [membersChars, printable_append, printable_append, printable_cons]
      exact ⟨⟨printable_stringChars k, by decide, v.printable_chars⟩, printable_moreMembersChars ms⟩

theorem printable_moreMembersChars : (ms : List (String × Value)) → Printable (moreMembersChars ms)
  | [] => by decide
  | (k, v) :: ms => by
      rw [moreMembersChars, printable_append, printable_append, printable_cons, printable_cons]
      exact ⟨⟨⟨by decide, printable_stringChars k⟩, by decide, v.printable_chars⟩,
        printable_moreMembersChars ms⟩

end

end BrokerPolicy.Json
