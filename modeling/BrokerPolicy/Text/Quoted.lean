import BrokerPolicy.Text.Hidden

/-!
A text in double quotes, as it stands inside a message.

`quote` puts a backslash before a quote and a backslash, writes `\0`, `\t`, `\n` and `\r` for four
controls and `\u{…}` with the code point in lower-case hexadecimal for every other hidden character.
Everything else stands for itself (`escape_of_shown`), and nothing is left out (`escape_ne_nil`).
-/
namespace BrokerPolicy.Text

/-- The code point of a character in hexadecimal, in braces. -/
def braced (c : Char) : List Char :=
  '\x7b' :: Nat.toDigits 16 c.toNat ++ ['\x7d']

/-- The written form of a character inside quotes. -/
def escape (c : Char) : List Char :=
  if c = '"' ∨ c = '\\' then ['\\', c]
  else if c = '\x00' then ['\\', '0']
  else if c = '\t' then ['\\', 't']
  else if c = '\n' then ['\\', 'n']
  else if c = '\r' then ['\\', 'r']
  else if isHidden c then '\\' :: 'u' :: braced c
  else [c]

/-- The text in double quotes. -/
def quote (s : String) : String :=
  String.ofList ('"' :: s.toList.flatMap escape ++ ['"'])

/-! ### What escaping keeps -/

theorem escape_of_shown {c : Char} (h : isHidden c = false) (hq : c ≠ '"') (hb : c ≠ '\\') :
    escape c = [c] := by
  have h0 : c ≠ '\x00' := by rintro rfl; simp [isHidden_of_isControl] at h
  have ht : c ≠ '\t' := by rintro rfl; simp [isHidden_of_isControl] at h
  have hn : c ≠ '\n' := by rintro rfl; simp [isHidden_of_isControl] at h
  have hr : c ≠ '\r' := by rintro rfl; simp [isHidden_of_isControl] at h
  simp [escape, h, hq, hb, h0, ht, hn, hr]

/-- A character is always written in at least one character. -/
theorem escape_ne_nil (c : Char) : escape c ≠ [] := by
  unfold escape
  repeat' split
  all_goals simp

end BrokerPolicy.Text
