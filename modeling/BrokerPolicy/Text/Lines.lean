/-!
Lines and fields of a text.

* `splitOn sep cs` cuts a text at every `sep`; there is always one piece more than there are cuts
  (`length_splitOn`).
* `lines` are the pieces ended by a line feed, less one carriage return before it, and what follows
  the last line feed unless that is empty. A carriage return that no line feed follows belongs to
  its line.
-/
namespace BrokerPolicy.Text

/-- The pieces of a text between the occurrences of `sep`. -/
def splitOn (sep : Char) : List Char → List (List Char)
  | [] => [[]]
  | c :: cs =>
    if c = sep then [] :: splitOn sep cs
    else match splitOn sep cs with
      | piece :: pieces => (c :: piece) :: pieces
      | [] => [[c]]

/-- A line without the carriage return before its line feed. -/
def dropReturn (line : List Char) : List Char :=
  if line.getLast? = some '\r' then line.dropLast else line

/-- Ended lines lose their carriage return; an unfinished last line is kept as it is, if it holds
anything. -/
def closeLines : List (List Char) → List (List Char)
  | [] => []
  | [last] => if last = [] then [] else [last]
  | line :: rest => dropReturn line :: closeLines rest

/-- The lines of a text. -/
def lines (cs : List Char) : List (List Char) :=
  closeLines (splitOn '\n' cs)

/-! ### Cutting at a separator -/

theorem splitOn_ne_nil (sep : Char) (cs : List Char) : splitOn sep cs ≠ [] := by
  cases cs with
  | nil => simp [splitOn]
  | cons c cs =>
    unfold splitOn
    split
    · simp
    · split <;> simp

/-- There is one piece more than there are separators. -/
theorem length_splitOn (sep : Char) (cs : List Char) :
    (splitOn sep cs).length = cs.count sep + 1 := by
  induction cs with
  | nil => rfl
  | cons c cs ih =>
    unfold splitOn
    split
    · next h => simp [h, ih]
    · next h =>
      split
      · next heq => simp [heq] at ih; simp [h, ih]
      · next heq => exact absurd heq (splitOn_ne_nil sep cs)

/-- A text without the separator is a single piece. -/
theorem splitOn_of_not_mem {sep : Char} {cs : List Char} (h : sep ∉ cs) :
    splitOn sep cs = [cs] := by
  induction cs with
  | nil => rfl
  | cons c cs ih =>
    simp only [List.mem_cons, not_or] at h
    simp [splitOn, Ne.symm h.1, ih h.2]

/-- The piece before the first separator comes first. -/
theorem splitOn_append_cons {sep : Char} {cs : List Char} (h : sep ∉ cs) (rest : List Char) :
    splitOn sep (cs ++ sep :: rest) = cs :: splitOn sep rest := by
  induction cs with
  | nil => simp [splitOn]
  | cons c cs ih =>
    simp only [List.mem_cons, not_or] at h
    simp [splitOn, Ne.symm h.1, ih h.2]

/-- An ended line is the first line, less its carriage return. -/
theorem lines_append_cons {line : List Char} (h : '\n' ∉ line) (rest : List Char) :
    lines (line ++ '\n' :: rest) = dropReturn line :: lines rest := by
  unfold lines
  rw [splitOn_append_cons h]
  cases heq : splitOn '\n' rest with
  | nil => exact absurd heq (splitOn_ne_nil _ _)
  | cons p ps => rfl

end BrokerPolicy.Text
