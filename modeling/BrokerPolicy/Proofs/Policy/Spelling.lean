import BrokerPolicy.Policy.Coercion
import BrokerPolicy.Policy.Vocabulary
import BrokerPolicy.Proofs.Text.Decimal
import Mathlib.Tactic

/-!
Values that stand for themselves as texts.

Strings, numbers and truth values have a spelling and nothing else does; it is what a text is read
as (`string_eq`). A number is spelled with a digit or a minus sign in front (`beginsNumber_chars`)
and never like a word, so a scope or a mode is given by a string alone: `spelling?_eq_word_iff`.
-/

namespace BrokerPolicy

open Json

/-- The text that a value stands for, if it stands for itself. -/
def Json.Value.spelling? : Value → Option String
  | .string s => some s
  | .number n => some (String.ofList n.chars)
  | .bool b => some (if b then "true" else "false")
  | _ => none

/-- The text begins like a number. -/
def BeginsNumber (cs : List Char) : Prop :=
  ∃ c rest, cs = c :: rest ∧ (c.isDigit = true ∨ c = '-')

lemma BeginsNumber.append {cs : List Char} (h : BeginsNumber cs) (ds : List Char) :
    BeginsNumber (cs ++ ds) := by
  obtain ⟨c, rest, rfl, hc⟩ := h
  exact ⟨c, rest ++ ds, rfl, hc⟩

/-- Digits begin as a number does. -/
lemma beginsNumber_of_digits {cs : List Char} (hne : cs ≠ []) (h : ∀ c ∈ cs, c.isDigit = true) :
    BeginsNumber cs := by
  obtain ⟨c, rest, rfl⟩ := List.exists_cons_of_ne_nil hne
  exact ⟨c, rest, rfl, .inl (h c List.mem_cons_self)⟩

lemma beginsNumber_toDigits (n : ℕ) : BeginsNumber (Nat.toDigits 10 n) :=
  beginsNumber_of_digits (Text.toDigits_ne_nil n) fun _ => Text.isDigit_of_mem_toDigits

/-- Wherever the point stands, a digit comes first. -/
lemma beginsNumber_positional (n : ℕ) (exponent : ℤ) :
    BeginsNumber (positional (Nat.toDigits 10 n) exponent) := by
  rw [positional]
  split
  · exact ((beginsNumber_toDigits n).append _).append _
  · dsimp only
    split
    · have hne : (Nat.toDigits 10 n).take ((Nat.toDigits 10 n).length - exponent.natAbs) ≠ [] := by
        rw [← List.length_pos_iff, List.length_take]
        omega
      refine (beginsNumber_of_digits hne fun c hc => ?_).append _
      exact Text.isDigit_of_mem_toDigits (List.mem_of_mem_take hc)
    · exact ⟨'0', _, rfl, .inl rfl⟩

lemma beginsNumber_scientific (n : ℕ) (lead : ℤ) :
    BeginsNumber (scientific (Nat.toDigits 10 n) lead) := by
  obtain ⟨c, rest, hdigits, hc⟩ := beginsNumber_toDigits n
  rw [hdigits]
  cases rest with
  | nil => exact ⟨c, _, rfl, hc⟩
  | cons d ds => exact ⟨c, _, rfl, hc⟩

/-- Every number is written with a digit or a minus sign first. -/
lemma beginsNumber_chars (n : Number) : BeginsNumber n.chars := by
  cases n with
  | integer n =>
      rw [Number.chars, intChars]
      split
      · exact ⟨'-', _, rfl, .inr rfl⟩
      · exact beginsNumber_toDigits _
  | float x =>
      rw [Number.chars, floatChars]
      dsimp only
      split
      · exact ⟨'-', _, rfl, .inr rfl⟩
      · split
        · exact beginsNumber_positional _ _
        · exact beginsNumber_scientific _ _

/-- A word is a text that begins with a letter and is not the name of a truth value. -/
def IsWord (s : String) : Prop :=
  s ≠ "true" ∧ s ≠ "false" ∧ ∀ c ∈ s.toList.head?, c.isDigit = false ∧ c ≠ '-'

/-- Only a string spells a word. -/
lemma spelling?_eq_word_iff {v : Value} {word : String} (hword : IsWord word) :
    v.spelling? = some word ↔ v = .string word := by
  obtain ⟨htrue, hfalse, hhead⟩ := hword
  constructor
  · intro h
    cases v with
    | string s => exact congrArg Value.string (Option.some.inj h)
    -- a number is written with a digit or a minus first, with which no word begins
    | number n =>
        obtain ⟨c, rest, hchars, hc⟩ := beginsNumber_chars n
        obtain rfl : String.ofList n.chars = word := Option.some.inj h
        rw [String.toList_ofList, hchars] at hhead
        obtain ⟨hdigit, hminus⟩ := hhead c rfl
        rcases hc with hc | hc
        · rw [hc] at hdigit
          cases hdigit
        · exact absurd hc hminus
    | bool b =>
        cases b with
        | true => exact absurd (Option.some.inj h).symm htrue
        | false => exact absurd (Option.some.inj h).symm hfalse
    | null | array items | object members => cases h
  · rintro rfl
    rfl

namespace Coercion

lemma string_eq (field : String) (v : Value) : string field v =
    match v.spelling? with
    | some s => .ok s
    | none => .error (.notConvertible field v.text .string) := by
  cases v <;> rfl

/-- A value is read as a text exactly if it has a spelling. -/
lemma string_eq_ok_iff {field : String} {v : Value} {s : String} :
    string field v = .ok s ↔ v.spelling? = some s := by
  rw [string_eq]
  cases v.spelling? <;> simp

end Coercion

/-! ### Words of the vocabularies -/

/-- The names of scopes are words that no other value is spelled as. -/
lemma Scope.isWord_name (x : Scope) : IsWord x.name := by
  cases x <;> simp [IsWord, Scope.name]

lemma MirrorMode.isWord_name (x : MirrorMode) : IsWord x.name := by
  cases x <;> simp [IsWord, MirrorMode.name]

lemma SyncMode.isWord_name (x : SyncMode) : IsWord x.name := by
  cases x <;> simp [IsWord, SyncMode.name]

end BrokerPolicy
