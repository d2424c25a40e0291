import BrokerPolicy.Failure
import BrokerPolicy.Json.Printer

/-!
Reading the fields of an entry, which may spell a value in several ways.

* `string` takes strings, numbers and booleans by their text; `optionalString` takes null for no
  value.
* `integer` takes integers, the integer part of other numbers, booleans and decimal texts, each if
  the result is a signed word; nothing is clamped or wrapped (`wordOfInt?_eq_some_iff`).
* `boolean` takes everything: null, zero and what is empty are false.
* `definition` takes a text or an object by its text.
-/
namespace BrokerPolicy.Coercion

open Json

/-- The refusal of a value. -/
def mismatch {α : Type} (field : String) (value : Value) (expected : Expected) :
    Except PolicyError α :=
  .error (.notConvertible field value.text expected)

/-- A text, from a value that stands for itself. -/
def string (field : String) : Value → Except PolicyError String
  | .string s => .ok s
  | .number n => .ok (String.ofList n.chars)
  | .bool b => .ok (if b then "true" else "false")
  | value => mismatch field value .string

/-- A text, or none from null. -/
def optionalString (field : String) : Value → Except PolicyError (Option String)
  | .null => .ok none
  | value => (string field value).map some

/-- An integer as a signed word, if it fits. -/
def wordOfInt? (n : Int) : Option Int64 :=
  if -0x8000000000000000 ≤ n ∧ n < 0x8000000000000000 then some (Int64.ofInt n) else none

/-- Digits, at least one and nothing else. -/
def natOfDigits? (ds : List Char) : Option Nat :=
  if ds ≠ [] ∧ ds.all Char.isDigit then some (Text.decimalValue ds) else none

/-- A decimal integer with at most one sign. -/
def intOfDecimal? : List Char → Option Int
  | '+' :: ds => (natOfDigits? ds).map Int.ofNat
  | '-' :: ds => (natOfDigits? ds).map fun n => -(n : Int)
  | ds => (natOfDigits? ds).map Int.ofNat

/-- The integer part of a number, if it lies between the signed words and is none of the ends: a
binary number of size `2 ^ 63` may stand for one that is larger. -/
def wordOfFloat? (x : Binary64) : Option Int64 :=
  if x.wholePart < 0x8000000000000000 then wordOfInt? x.trunc else none

/-- A signed word. -/
def integer (field : String) (value : Value) : Except PolicyError Int64 :=
  let word? : Option Int64 := match value with
    | .number (.integer n) => wordOfInt? n.val
    | .number (.float x) => wordOfFloat? x
    | .string s => (intOfDecimal? (Text.trimChars s.toList)).bind wordOfInt?
    | .bool b => some (if b then 1 else 0)
    | _ => none
  match word? with
  | some n => .ok n
  | none => mismatch field value .integer

/-- A truth value: null, zero and what is empty are false. -/
def boolean : Value → Bool
  | .null => false
  | .bool b => b
  | .number (.integer n) => n.val != 0
  | .number (.float x) => !x.isZero
  | .string s => s != ""
  | .array items => !items.isEmpty
  | .object members => !members.isEmpty

/-- A definition text, or none from null. -/
def definition : Value → Except PolicyError (Option String)
  | .null => .ok none
  | .string s => .ok (some s)
  | .object members => .ok (some (Value.object members).text)
  | value => mismatch "definition" value .document

/-! ### Words -/

/-- A word stands for exactly the integer that it was made from. -/
theorem wordOfInt?_eq_some_iff {n : Int} {w : Int64} :
    wordOfInt? n = some w ↔ w.toInt = n := by
  unfold wordOfInt?
  split
  · next h =>
    rw [Option.some.injEq]
    constructor
    · rintro rfl; exact Int64.toInt_ofInt_of_le (by omega) (by omega)
    · rintro rfl; exact Int64.ofInt_toInt w
  · next h =>
    have := w.le_toInt
    have := w.toInt_lt
    simp only [reduceCtorEq, false_iff]
    omega

end BrokerPolicy.Coercion
