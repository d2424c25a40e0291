import BrokerPolicy.Policy.Apply

/-!
Applying, clearing and rendering lists of policies.

A batch goes through all its policies whatever happens to any of them, and counts every one of them
(`Tally.total_count`). Rendering stops at the first policy that has no command, so a list is
rendered only as a whole (`renderAll_eq_ok_iff`).
-/
namespace BrokerPolicy

/-- How many policies of a batch went through and how many did not. -/
structure Tally where
  succeeded : Nat := 0
  notApplied : Nat := 0
  deriving DecidableEq

/-- Counts one more policy by its result. -/
def Tally.count (t : Tally) : Option String → Tally
  | some _ => { t with succeeded := t.succeeded + 1 }
  | none => { t with notApplied := t.notApplied + 1 }

/-- The number of policies counted. -/
def Tally.total (t : Tally) : Nat :=
  t.succeeded + t.notApplied

theorem Tally.total_count (t : Tally) (r : Option String) : (t.count r).total = t.total + 1 := by
  cases r <;> simp only [count, total] <;> omega

namespace Policy

variable {m : Type → Type} [Monad m]

/-- Does the same with every policy of a list, in order, and counts the results. -/
def forAll (act : Policy → m (Option String)) (tally : Tally) : List Policy → m Tally
  | [] => return tally
  | p :: ps => do
    let result ← act p
    forAll act (tally.count result) ps

/-- Sets all policies of a list on the broker. -/
def applyAll (host : Host m) (ps : List Policy) : m Tally :=
  forAll (·.apply host) {} ps

/-- Clears all policies of a list from the broker. -/
def clearAll (host : Host m) (ps : List Policy) : m Tally :=
  forAll (·.clear host) {} ps

/-- The commands that set the policies of a list, or the first error. -/
def renderAll : List Policy → Except PolicyError (List Command)
  | [] => .ok []
  | p :: ps =>
    match p.setCommand with
    | .error e => .error e
    | .ok command => (renderAll ps).map (command :: ·)

/-- A list is rendered policy by policy, if all its policies have a command. -/
theorem renderAll_eq_ok_iff {ps : List Policy} {cs : List Command} :
    renderAll ps = .ok cs ↔ ps.map setCommand = cs.map .ok := by
  induction ps generalizing cs with
  | nil => cases cs <;> simp [renderAll]
  | cons p ps ih =>
    cases cs with
    | nil =>
      unfold renderAll
      cases p.setCommand <;> cases renderAll ps <;> simp [Except.map]
    | cons c cs =>
      rw [List.map_cons, List.map_cons, List.cons.injEq, ← ih, renderAll]
      cases p.setCommand <;> cases renderAll ps <;> simp [Except.map]

end Policy

end BrokerPolicy
