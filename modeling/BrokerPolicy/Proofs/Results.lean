import Mathlib.Tactic

/-!
Results that are good or errors, taken apart: where a good result of two steps comes from
(`bind_eq_ok_iff`) and where one that was changed afterwards does (`map_eq_ok_iff`), which no error
is (`map_eq_error_iff`). What is not good is an error (`exists_eq_error_iff`).
-/

namespace BrokerPolicy.Results

variable {ε α β : Type} {x : Except ε α}

/-- What goes well in two steps goes well in both. -/
lemma bind_eq_ok_iff {f : α → Except ε β} {b : β} :
    x >>= f = .ok b ↔ ∃ a, x = .ok a ∧ f a = .ok b := by
  cases x <;> simp [bind, Except.bind]

lemma map_eq_ok_iff {f : α → β} {b : β} : x.map f = .ok b ↔ ∃ a, x = .ok a ∧ f a = b := by
  cases x <;> simp [Except.map]

/-- Errors pass through a map as they are. -/
lemma map_eq_error_iff {f : α → β} {e : ε} : x.map f = .error e ↔ x = .error e := by
  cases x <;> simp [Except.map]

/-- What does not go well fails. -/
lemma exists_eq_error_iff : (∃ e, x = .error e) ↔ ¬∃ a, x = .ok a := by
  cases x <;> simp

lemma toOption_eq_some_iff {a : α} : x.toOption = some a ↔ x = .ok a := by
  cases x <;> simp [Except.toOption]

end BrokerPolicy.Results
