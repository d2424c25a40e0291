import BrokerPolicy.Host.Recorded
import Mathlib.Tactic

/-!
What procedures leave in the trace of a recorded host.

* `Trace.replies` are the answers to the commands of a trace. They are told from the trace alone:
  each is what the runner answers after all that stands before its command. `Trace.calls` are the
  commands with their answers.
* `Recorded.Quiet x queries` says that a procedure asks these version queries but runs no command
  and shows no status. Quiet procedures one after the other are quiet (`Quiet.bind`).
-/

namespace BrokerPolicy

namespace Trace

/-! ### The parts of a trace -/

@[simp]
lemma commands_append (t u : Trace) : commands (t ++ u) = commands t ++ commands u :=
  List.filterMap_append

@[simp]
lemma versionQueries_append (t u : Trace) :
    versionQueries (t ++ u) = versionQueries t ++ versionQueries u :=
  List.filterMap_append

@[simp]
lemma statuses_append (t u : Trace) : statuses (t ++ u) = statuses t ++ statuses u :=
  List.filterMap_append

@[simp]
lemma logs_append (t u : Trace) : logs (t ++ u) = logs t ++ logs u :=
  List.filterMap_append

/-- The answers to the commands of a trace that follows another. -/
def replies (answer : Trace → Command → Except CommandFailure String) (before : Trace) :
    Trace → List (Except CommandFailure String)
  | [] => []
  | .command c :: t => answer before c :: replies answer (before ++ [.command c]) t
  | event :: t => replies answer (before ++ [event]) t

variable {answer : Trace → Command → Except CommandFailure String} {before : Trace}

/-- Later answers depend on all that happened before. -/
lemma replies_append (t u : Trace) :
    replies answer before (t ++ u) = replies answer before t ++ replies answer (before ++ t) u := by
  induction t generalizing before with
  | nil => rw [List.nil_append, replies, List.nil_append, List.append_nil]
  | cons event t ih =>
      rw [List.append_cons before event t, List.cons_append]
      cases event with
      | command c => rw [replies, replies, ih, List.cons_append]
      | _ => exact ih

/-- Without commands there is nothing to answer. -/
lemma replies_of_commands {t : Trace} (h : t.commands = []) : replies answer before t = [] := by
  induction t generalizing before with
  | nil => rfl
  | cons event t ih =>
      cases event with
      | command c => exact absurd h (List.cons_ne_nil c _)
      | _ => exact ih h

/-- The commands of a trace that follows another, each with its answer. -/
def calls (answer : Trace → Command → Except CommandFailure String) (before : Trace) :
    Trace → List (Command × Except CommandFailure String)
  | [] => []
  | .command c :: t => (c, answer before c) :: calls answer (before ++ [.command c]) t
  | event :: t => calls answer (before ++ [event]) t

/-- Later calls have answers that depend on all that happened before. -/
lemma calls_append (t u : Trace) :
    calls answer before (t ++ u) = calls answer before t ++ calls answer (before ++ t) u := by
  induction t generalizing before with
  | nil => rw [List.nil_append, calls, List.nil_append, List.append_nil]
  | cons event t ih =>
      rw [List.append_cons before event t, List.cons_append]
      cases event with
      | command c => rw [calls, calls, ih, List.cons_append]
      | _ => exact ih

/-- The calls of a trace are its commands with their answers. -/
lemma calls_eq_zip (t : Trace) :
    calls answer before t = t.commands.zip (replies answer before t) := by
  induction t generalizing before with
  | nil => rfl
  | cons event t ih =>
      cases event with
      | command c => exact congrArg ((c, answer before c) :: ·) ih
      | _ => exact ih

lemma map_fst_calls (answer : Trace → Command → Except CommandFailure String) (before t : Trace) :
    (calls answer before t).map Prod.fst = t.commands := by
  induction t generalizing before with
  | nil => rfl
  | cons event t ih =>
      cases event with
      | command c => exact congrArg (c :: ·) (ih (before ++ [.command c]))
      | _ => exact ih _

/-! ### Entries of the log alone -/

lemma calls_logged (entries : List LogEvent) :
    calls answer before (entries.map Event.log) = [] := by
  induction entries generalizing before with
  | nil => rfl
  | cons entry entries ih => exact ih

lemma logs_logged (entries : List LogEvent) : logs (entries.map Event.log) = entries := by
  rw [logs, List.filterMap_map]
  exact List.filterMap_some

lemma versionQueries_logged (entries : List LogEvent) :
    versionQueries (entries.map Event.log) = [] := by
  rw [versionQueries, List.filterMap_map]
  exact List.filterMap_eq_nil_iff.2 fun _ _ => rfl

end Trace

namespace Recorded

variable {α β : Type}

lemma fst_run_bind (x : Recorded α) (f : α → Recorded β) (t : Trace) :
    ((x >>= f).run t).1 = ((f (x.run t).1).run (x.run t).2).1 :=
  rfl

/-! ### Quiet procedures -/

/-- A procedure asks version queries and perhaps logs, but does nothing else. -/
def Quiet (x : Recorded α) (queries : List (String × String)) : Prop :=
  ∀ t : Trace, ∃ asked : Trace, (x.run t).2 = t ++ asked ∧
    asked.commands = [] ∧ asked.statuses = [] ∧ asked.versionQueries = queries

lemma Quiet.pure (a : α) : Quiet (Pure.pure a) [] :=
  fun t => ⟨[], (List.append_nil t).symm, rfl, rfl, rfl⟩

lemma Quiet.log (event : LogEvent) : Quiet (Recorded.log event) [] :=
  fun _ => ⟨[.log event], rfl, rfl, rfl, rfl⟩

lemma Quiet.probe (version : Trace → (package version : String) → Except PolicyError Ordering)
    (package requested : String) :
    Quiet (Recorded.probe version package requested) [(package, requested)] :=
  fun _ => ⟨[.versionQuery package requested], rfl, rfl, rfl, rfl⟩

/-- Two quiet procedures make the queries of both. -/
lemma Quiet.bind {x : Recorded α} {f : α → Recorded β} {qs rs : List (String × String)}
    (hx : Quiet x qs) (hf : ∀ a, Quiet (f a) rs) : Quiet (x >>= f) (qs ++ rs) := by
  intro t
  obtain ⟨asked, hasked, hcommands, hstatuses, hqueries⟩ := hx t
  obtain ⟨later, hlater, hcommands', hstatuses', hqueries'⟩ := hf (x.run t).1 (t ++ asked)
  refine ⟨asked ++ later, ?_, ?_, ?_, ?_⟩
  · rw [← List.append_assoc, ← hlater, ← hasked]
    rfl
  · rw [Trace.commands_append, hcommands, hcommands', List.append_nil]
  · rw [Trace.statuses_append, hstatuses, hstatuses', List.append_nil]
  · rw [Trace.versionQueries_append, hqueries, hqueries']

end Recorded

end BrokerPolicy
