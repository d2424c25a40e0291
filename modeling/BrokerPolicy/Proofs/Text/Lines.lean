import BrokerPolicy.Proofs.Text.Trimming
import BrokerPolicy.Text.Lines

/-!
The lines of a text that is written line by line.

In a `document` every line has an end of its own, a line feed alone or after a carriage return, and
the last one may have none. Its lines are those that were written, except that one may come without
a carriage return of its own (`lines_ended`) and an empty last line may not come at all. Whoever
does not mind either finds what was written: `filterMap_lines_document`.

Blanks do not mind, since a carriage return is one: `trimChars_dropReturn`.
-/

namespace BrokerPolicy.Text

/-! ### Fields -/

/-- The first field ends where the text does or at the first separator. -/
lemma exists_splitOn_append {sep : Char} {cs rest : List Char} (h : sep ∉ cs)
    (hrest : ∀ c ∈ rest.head?, c = sep) : ∃ fields, splitOn sep (cs ++ rest) = cs :: fields := by
  cases rest with
  | nil => exact ⟨[], by rw [List.append_nil, splitOn_of_not_mem h]⟩
  | cons c rest =>
      obtain rfl : c = sep := hrest c rfl
      exact ⟨_, splitOn_append_cons h rest⟩

/-! ### Ends of lines -/

/-- What may end a line. -/
inductive LineEnd where
  | feed
  | returnFeed

namespace LineEnd

def chars : LineEnd → List Char
  | .feed => ['\n']
  | .returnFeed => ['\r', '\n']

end LineEnd

/-- Lines one after the other, each with its end. If the text is not closed the last line has
none. -/
def document (closed : Bool) : List (List Char × LineEnd) → List Char
  | [] => []
  | (line, ending) :: rest =>
    line ++ (if closed ∨ rest ≠ [] then ending.chars else []) ++ document closed rest

lemma dropReturn_concat (line : List Char) : dropReturn (line ++ ['\r']) = line := by
  rw [dropReturn, if_pos List.getLast?_concat, List.dropLast_concat]

/-- A line that ends in anything else stays as it is. -/
lemma dropReturn_of_getLast? {line : List Char} (h : line.getLast? ≠ some '\r') :
    dropReturn line = line :=
  if_neg h

/-- A line ends in a carriage return or keeps all it has. -/
lemma dropReturn_cases (line : List Char) :
    dropReturn line = line ∨ line = dropReturn line ++ ['\r'] := by
  by_cases h : line.getLast? = some '\r'
  · obtain ⟨before, rfl⟩ := List.getLast?_eq_some_iff.1 h
    rw [dropReturn_concat]
    exact Or.inr rfl
  · exact Or.inl (dropReturn_of_getLast? h)

lemma sublist_dropReturn (line : List Char) : (dropReturn line).Sublist line := by
  rw [dropReturn]
  split
  · exact List.dropLast_sublist line
  · exact List.Sublist.refl line

lemma dropReturn_concat_of_ne {c : Char} (hc : c ≠ '\r') (line : List Char) :
    dropReturn (line ++ [c]) = line ++ [c] := by
  refine dropReturn_of_getLast? ?_
  rw [List.getLast?_concat]
  exact fun h => hc (Option.some.inj h)

/-- Only the end of a line is looked at, so what stands before another character is kept. -/
lemma dropReturn_append_cons {c : Char} (hc : c ≠ '\r') (cs ds : List Char) :
    dropReturn (cs ++ c :: ds) = cs ++ c :: dropReturn ds := by
  rcases List.eq_nil_or_concat' ds with rfl | ⟨before, d, rfl⟩
  · exact dropReturn_concat_of_ne hc cs
  · rw [← List.cons_append, ← List.append_assoc]
    by_cases hd : d = '\r'
    · rw [hd, dropReturn_concat, dropReturn_concat]
    · rw [dropReturn_concat_of_ne hd, dropReturn_concat_of_ne hd, List.append_assoc,
        List.cons_append]

/-- An ended line comes as it is or without a carriage return of its own. -/
lemma lines_ended {line : List Char} (h : '\n' ∉ line) (ending : LineEnd) (rest : List Char) :
    ∃ read, lines (line ++ ending.chars ++ rest) = read :: lines rest ∧
      (read = line ∨ read = dropReturn line) := by
  cases ending with
  | feed =>
      refine ⟨dropReturn line, ?_, Or.inr rfl⟩
      rw [LineEnd.chars, List.append_assoc]
      exact lines_append_cons h rest
  | returnFeed =>
      refine ⟨line, ?_, Or.inl rfl⟩
      -- the return before a feed is part of the line as it is split, and dropped only then
      have hreturn : '\n' ∉ line ++ ['\r'] := by
        simpa using h
      have hlines := lines_append_cons hreturn rest
      rw [dropReturn_concat, List.append_assoc] at hlines
      rw [LineEnd.chars, List.append_assoc]
      exact hlines

/-! ### Documents -/

/-- The first line of a document does not touch the others. -/
lemma drop_lines_document {line : List Char} (h : '\n' ∉ line) (ending : LineEnd) (closed : Bool)
    (rest : List (List Char × LineEnd)) :
    (lines (document closed ((line, ending) :: rest))).drop 1 = lines (document closed rest) := by
  rw [document]
  by_cases hend : closed ∨ rest ≠ []
  · obtain ⟨read, hread, -⟩ := lines_ended h ending (document closed rest)
    rw [if_pos hend, hread, List.drop_succ_cons, List.drop_zero]
  · obtain rfl : rest = [] := by
      by_contra hne
      exact hend (Or.inr hne)
    rw [if_neg hend, List.append_nil, document, List.append_nil, lines, splitOn_of_not_mem h,
      closeLines]
    split <;> rfl

/-- What is found in the lines of a document is what was written, by whoever finds nothing in an
empty line and the same with a carriage return and without. -/
lemma filterMap_lines_document {β : Type} {f : List Char → Option β} (hnil : f [] = none)
    (closed : Bool) {written : List (List Char × LineEnd)}
    (hwritten : ∀ l ∈ written, '\n' ∉ l.1 ∧ f (dropReturn l.1) = f l.1) :
    (lines (document closed written)).filterMap f = written.filterMap fun l => f l.1 := by
  induction written with
  | nil => rfl
  | cons l rest ih =>
      obtain ⟨line, ending⟩ := l
      rw [List.forall_mem_cons] at hwritten
      obtain ⟨⟨hline, hreturn⟩, hrest⟩ := hwritten
      rw [List.filterMap_cons, ← ih hrest, document]
      -- only the very last line may come without an end, and then it may be empty
      by_cases hend : closed ∨ rest ≠ []
      · obtain ⟨read, hread, hsame⟩ := lines_ended hline ending (document closed rest)
        have hf : f read = f line := by
          rcases hsame with rfl | rfl
          · rfl
          · exact hreturn
        rw [if_pos hend, hread, List.filterMap_cons, hf]
      · obtain rfl : rest = [] := by
          by_contra hne
          exact hend (Or.inr hne)
        rw [if_neg hend, List.append_nil, document, List.append_nil, lines,
          splitOn_of_not_mem hline, closeLines]
        by_cases hempty : line = []
        · rw [if_pos hempty, hempty, hnil]
          rfl
        · rw [if_neg hempty]
          rfl

/-! ### Blanks -/

/-- A carriage return at the end is trimmed with the other blanks. -/
lemma trimChars_dropReturn (line : List Char) : trimChars (dropReturn line) = trimChars line := by
  rcases dropReturn_cases line with h | h
  · rw [h]
  · conv_rhs => rw [h]
    rw [trimChars_append_of_blank]
    exact List.forall_mem_singleton.2 rfl

end BrokerPolicy.Text
