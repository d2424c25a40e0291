import BrokerPolicy.Json.Value

/-!
The written form of JSON values.

* `Value.chars` is the compact form: no blanks, members in the order in which the object holds them.
* `Value.indented` is the form over several lines, two blanks for each level; empty arrays and
  objects stay on one line.
* In strings a quote, a backslash and the controls below the space are escaped and nothing else
  (`escapeChar_of_plain`), so no such control is written into a string: `escapeChar_printable`.
-/
namespace BrokerPolicy.Json

/-- A character inside a JSON string. -/
def escapeChar (c : Char) : List Char :=
  if c = '"' ∨ c = '\\' then ['\\', c]
  else if c = '\x08' then ['\\', 'b']
  else if c = '\t' then ['\\', 't']
  else if c = '\n' then ['\\', 'n']
  else if c = '\x0c' then ['\\', 'f']
  else if c = '\r' then ['\\', 'r']
  else if c.toNat < 0x20 then
    ['\\', 'u', '0', '0', Nat.digitChar (c.toNat / 16), Nat.digitChar (c.toNat % 16)]
  else [c]

/-- A string in quotes. -/
def stringChars (s : String) : List Char :=
  '"' :: s.toList.flatMap escapeChar ++ ['"']

mutual

/-- The compact written form of a value. -/
def Value.chars : Value → List Char
  | .null => ['n', 'u', 'l', 'l']
  | .bool true => ['t', 'r', 'u', 'e']
  | .bool false => ['f', 'a', 'l', 's', 'e']
  | .number n => n.chars
  | .string s => stringChars s
  | .array items => '[' :: itemsChars items
  | .object members => '\x7b' :: membersChars members

/-- The items of an array and the bracket after them. -/
def itemsChars : List Value → List Char
  | [] => [']']
  | v :: vs => v.chars ++ moreItemsChars vs

/-- The items after the first. -/
def moreItemsChars : List Value → List Char
  | [] => [']']
  | v :: vs => ',' :: v.chars ++ moreItemsChars vs

/-- The members of an object and the brace after them. -/
def membersChars : List (String × Value) → List Char
  | [] => ['\x7d']
  | (k, v) :: ms => stringChars k ++ ':' :: v.chars ++ moreMembersChars ms

/-- The members after the first. -/
def moreMembersChars : List (String × Value) → List Char
  | [] => ['\x7d']
  | (k, v) :: ms => ',' :: stringChars k ++ ':' :: v.chars ++ moreMembersChars ms

end

/-- The compact text of a value. -/
def Value.text (v : Value) : String :=
  String.ofList v.chars

/-! ### Over several lines -/

/-- A new line at a level of indentation. -/
def newLine (level : Nat) : List Char :=
  '\n' :: List.replicate (2 * level) ' '

mutual

/-- The written form over several lines of a value at a level of indentation. -/
def Value.indented (level : Nat) : Value → List Char
  | .array (v :: vs) =>
    '[' :: newLine (level + 1) ++ v.indented (level + 1) ++ indentedItems level vs
  | .object ((k, v) :: ms) =>
    '\x7b' :: newLine (level + 1) ++ stringChars k ++ ':' :: ' ' :: v.indented (level + 1) ++
      indentedMembers level ms
  | v => v.chars

/-- The items after the first and the closing bracket on a line of its own. -/
def indentedItems (level : Nat) : List Value → List Char
  | [] => newLine level ++ [']']
  | v :: vs => ',' :: newLine (level + 1) ++ v.indented (level + 1) ++ indentedItems level vs

/-- The members after the first and the closing brace on a line of its own. -/
def indentedMembers (level : Nat) : List (String × Value) → List Char
  | [] => newLine level ++ ['\x7d']
  | (k, v) :: ms =>
    ',' :: newLine (level + 1) ++ stringChars k ++ ':' :: ' ' :: v.indented (level + 1) ++
      indentedMembers level ms

end

/-- The text of a value over several lines. -/
def Value.indentedText (v : Value) : String :=
  String.ofList (v.indented 0)

/-! ### Escapes -/

theorem escapeChar_of_plain {c : Char} (hq : c ≠ '"') (hb : c ≠ '\\') (h : 0x20 ≤ c.toNat) :
    escapeChar c = [c] := by
  have ne {d : Char} (hd : d.toNat < 0x20) : c ≠ d := by rintro rfl; omega
  simp [escapeChar, hq, hb, ne, Nat.not_lt.2 h]

theorem digitChar_printable : ∀ n < 16, 0x20 ≤ (Nat.digitChar n).toNat := by
  decide

/-- No control is written into a string. -/
theorem escapeChar_printable {c d : Char} (h : d ∈ escapeChar c) : 0x20 ≤ d.toNat := by
  have pair {a b : Char} (ha : 0x20 ≤ a.toNat) (hb : 0x20 ≤ b.toNat) (h : d ∈ [a, b]) :
      0x20 ≤ d.toNat := by
    simp only [List.mem_cons, List.not_mem_nil, or_false] at h
    rcases h with rfl | rfl <;> assumption
  -- every escape is a backslash and a letter, but for the controls written by their code
  unfold escapeChar at h
  split at h
  · next hc => exact pair (by decide) (by rcases hc with rfl | rfl <;> decide) h
  split at h
  · exact pair (by decide) (by decide) h
  split at h
  · exact pair (by decide) (by decide) h
  split at h
  · exact pair (by decide) (by decide) h
  split at h
  · exact pair (by decide) (by decide) h
  split at h
  · exact pair (by decide) (by decide) h
  split at h
  · next hc =>
    simp only [List.mem_cons, List.not_mem_nil, or_false] at h
    rcases h with rfl | rfl | rfl | rfl | rfl | rfl
    · decide
    · decide
    · decide
    · decide
    · exact digitChar_printable _ (by omega)
    · exact digitChar_printable _ (by omega)
  · next hc =>
    simp only [List.mem_cons, List.not_mem_nil, or_false] at h
    exact h ▸ Nat.not_lt.1 hc

end BrokerPolicy.Json
