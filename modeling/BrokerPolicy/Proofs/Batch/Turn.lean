import BrokerPolicy.Batch
import BrokerPolicy.Proofs.Host.Recorded

/-!
One turn of a batch.

Setting and clearing differ in four things, which make an `Operation`: the check before anything is
done, the command, the verb in the log and the status after a failure. Both carry out the same
procedure (`apply_eq_perform`, `clear_eq_perform`).

What becomes of a policy is its `Outcome`. It is told from the trace in which the turn begins
(`Operation.outcome`), and all that the turn does to the trace can be told from it (`perform_run`).
-/

namespace BrokerPolicy

/-! ### Operations -/

/-- What is done with every policy of a batch. -/
structure Operation where
  /-- Whether the broker can take a policy. -/
  check : Policy → Recorded Bool
  /-- The version queries that the check makes. -/
  asks : Policy → List (String × String)
  /-- The command of a policy. -/
  command : Policy → Except PolicyError Command
  /-- What the log calls it. -/
  verb : String
  /-- The status after a failure. -/
  blame : Policy → String
  /-- The check does nothing but ask. -/
  quiet : ∀ p, Recorded.Quiet (check p) (asks p)

namespace Operation

/-- Does with a policy that passed what there is to do. -/
def carryOut (op : Operation) (host : Host Recorded) (p : Policy) : Recorded (Option String) := do
  host.log (p.announcement op.verb)
  match ← Policy.runCommand host (op.command p) with
  | .ok output =>
    host.log (p.outputEvent output)
    return some output
  | .error e =>
    p.reportFailure host e (op.blame p)
    return none

/-- Does with a policy what there is to do, if it passes. -/
def perform (op : Operation) (host : Host Recorded) (p : Policy) : Recorded (Option String) := do
  if ← op.check p then op.carryOut host p else return none

end Operation

/-! ### Outcomes -/

/-- What becomes of a policy. -/
inductive Outcome where
  /-- It does not pass the check. -/
  | declined
  /-- Its command cannot be formed. -/
  | malformed (error : PolicyError)
  /-- Its command fails. -/
  | failed (command : Command) (failure : CommandFailure)
  /-- Its command is answered. -/
  | succeeded (command : Command) (output : String)

namespace Outcome

/-- What is returned. -/
def output? : Outcome → Option String
  | .succeeded _ output => some output
  | _ => none

/-- The command that is run. -/
def command? : Outcome → Option Command
  | .declined | .malformed _ => none
  | .failed c _ | .succeeded c _ => some c

/-- The answer to the command. -/
def reply? : Outcome → Option (Except CommandFailure String)
  | .declined | .malformed _ => none
  | .failed _ failure => some (.error failure)
  | .succeeded _ output => some (.ok output)

/-- The command that is run, with the answer to it. -/
def call? : Outcome → Option (Command × Except CommandFailure String)
  | .declined | .malformed _ => none
  | .failed c failure => some (c, .error failure)
  | .succeeded c output => some (c, .ok output)

/-- The outcome is one of a policy with this command, which passes the check or does not. -/
def Fits (passes : Bool) (command : Except PolicyError Command) : Outcome → Prop
  | .declined => passes = false
  | .malformed e => passes = true ∧ command = .error e
  | .failed c _ | .succeeded c _ => passes = true ∧ command = .ok c

/-- The policy passed, but its command could not be formed or failed. -/
def isFailure : Outcome → Bool
  | .declined | .succeeded .. => false
  | .malformed _ | .failed .. => true

/-- What happens after the check. -/
def events (op : Operation) (p : Policy) : Outcome → Trace
  | .declined => []
  | .malformed e =>
    [.log (p.announcement op.verb), .log (p.failureEvent e (op.blame p)),
      .status .blocked (op.blame p)]
  | .failed c failure =>
    [.log (p.announcement op.verb), .command c,
      .log (p.failureEvent (.commandFailed failure) (op.blame p)), .status .blocked (op.blame p)]
  | .succeeded c output =>
    [.log (p.announcement op.verb), .command c, .log (p.outputEvent output)]

lemma commands_events (op : Operation) (p : Policy) (o : Outcome) :
    (o.events op p).commands = o.command?.toList := by
  cases o <;> rfl

/-- A status is shown after a failure only. -/
lemma statuses_events (op : Operation) (p : Policy) (o : Outcome) :
    (o.events op p).statuses = if o.isFailure then [(.blocked, op.blame p)] else [] := by
  cases o <;> rfl

lemma versionQueries_events (op : Operation) (p : Policy) (o : Outcome) :
    (o.events op p).versionQueries = [] := by
  cases o <;> rfl

/-- The commands that are run go with the answers to them. -/
lemma zip_commands_replies (os : List Outcome) :
    (os.filterMap command?).zip (os.filterMap reply?) = os.filterMap call? := by
  induction os with
  | nil => rfl
  | cons o os ih =>
      cases o with
      | declined | malformed e => exact ih
      | failed c failure => exact congrArg ((c, .error failure) :: ·) ih
      | succeeded c output => exact congrArg ((c, .ok output) :: ·) ih

lemma succeeded_count (o : Outcome) :
    (Tally.count {} o.output?).succeeded = o.reply?.toList.countP Except.isOk := by
  cases o <;> rfl

end Outcome

namespace Operation

variable (answer : Trace → Command → Except CommandFailure String)
  (version : Trace → (package version : String) → Except PolicyError Ordering)

/-- What becomes of a policy that passed, after all that happened before. -/
def outcomeOf (op : Operation) (t : Trace) (p : Policy) : Outcome :=
  match op.command p with
  | .error e => .malformed e
  | .ok c =>
    match answer (t ++ [.log (p.announcement op.verb)]) c with
    | .error failure => .failed c failure
    | .ok output => .succeeded c output

/-- Past the check, an outcome fits the command. -/
lemma fits_outcomeOf (op : Operation) (t : Trace) (p : Policy) :
    (op.outcomeOf answer t p).Fits true (op.command p) := by
  rw [outcomeOf]
  cases op.command p with
  | error e => exact ⟨rfl, rfl⟩
  | ok c =>
      dsimp only
      cases answer (t ++ [.log (p.announcement op.verb)]) c with
      | error failure => exact ⟨rfl, rfl⟩
      | ok output => exact ⟨rfl, rfl⟩

/-- The answers of a turn are read off its events again. -/
lemma replies_events (op : Operation) (t : Trace) (p : Policy) :
    Trace.replies answer t ((op.outcomeOf answer t p).events op p) =
      (op.outcomeOf answer t p).reply?.toList := by
  rw [outcomeOf]
  cases op.command p with
  | error e => rfl
  | ok c =>
      cases h : answer (t ++ [.log (p.announcement op.verb)]) c with
      | error failure =>
          simp only [h, Outcome.events, Outcome.reply?, Trace.replies]
          rfl
      | ok output =>
          simp only [h, Outcome.events, Outcome.reply?, Trace.replies]
          rfl

/-- A command that is run leaves itself in the trace, and its answer decides. -/
lemma runCommand_run {host : Host Recorded} (hhost : host.run = Recorded.runner answer)
    (c : Command) (t : Trace) : (Policy.runCommand host (.ok c)).run t =
      ((answer t c).mapError .commandFailed, t ++ [.command c]) := by
  cases h : answer t c with
  | error failure =>
      have hrun : (host.run c).run t = (.error failure, t ++ [.command c]) := by
        rw [hhost]
        exact Prod.ext h rfl
      rw [Policy.runCommand, StateT.run_bind, hrun]
      rfl
  | ok output =>
      have hrun : (host.run c).run t = (.ok output, t ++ [.command c]) := by
        rw [hhost]
        exact Prod.ext h rfl
      rw [Policy.runCommand, StateT.run_bind, hrun]
      rfl

/-- Past the check, the outcome tells the result and everything that happens. -/
lemma carryOut_run (op : Operation) (t : Trace) (p : Policy) :
    (op.carryOut (Recorded.host answer version) p).run t =
      ((op.outcomeOf answer t p).output?, t ++ (op.outcomeOf answer t p).events op p) := by
  rw [carryOut, outcomeOf]
  -- step by step, in the four ways a turn can go on past the check
  cases op.command p with
  | error e =>
      refine Prod.ext rfl ?_
      change t ++ [_] ++ [_] ++ [_] = t ++ [_, _, _]
      simp only [List.append_assoc, List.cons_append, List.nil_append]
  | ok c =>
      rw [StateT.run_bind]
      change StateT.run (_ >>= _) (t ++ [.log (p.announcement op.verb)]) = _
      rw [StateT.run_bind, runCommand_run answer rfl]
      dsimp only
      cases answer (t ++ [.log (p.announcement op.verb)]) c with
      | error failure =>
          refine Prod.ext rfl ?_
          change t ++ [_] ++ [_] ++ [_] ++ [_] = t ++ [_, _, _, _]
          simp only [List.append_assoc, List.cons_append, List.nil_append]
      | ok output =>
          refine Prod.ext rfl ?_
          change t ++ [_] ++ [_] ++ [_] = t ++ [_, _, _]
          simp only [List.append_assoc, List.cons_append, List.nil_append]

/-! ### Setting and clearing -/

/-- What is said about a version leaves no command, no status and no query. -/
lemma quiet_acceptMirroring (p : Policy) (installed : Except PolicyError Ordering) :
    Recorded.Quiet (p.acceptMirroring (Recorded.host answer version) installed) [] := by
  cases installed with
  | error e => exact (Recorded.Quiet.log _).bind fun _ => Recorded.Quiet.pure _
  | ok order =>
      cases order with
      | lt =>
          refine (Recorded.Quiet.log _).bind fun _ => ?_
          exact (Recorded.Quiet.log _).bind fun _ => Recorded.Quiet.pure _
      | eq => exact Recorded.Quiet.pure _
      | gt => exact Recorded.Quiet.pure _

/-- Setting asks for the version of the broker where queues are mirrored. -/
def setting : Operation where
  check := Policy.check (Recorded.host answer version)
  asks p :=
    match p.kind with
    | .ha => [(brokerPackage, mirroringVersion)]
    | .generic | .ttl => []
  command := Policy.setCommand
  verb := "Setting"
  blame := Policy.createFailed
  quiet p := by
    rw [Policy.check]
    cases p.kind with
    | generic => exact Recorded.Quiet.pure _
    | ha =>
        refine (Recorded.Quiet.probe _ _ _).bind fun installed => ?_
        exact quiet_acceptMirroring answer version p installed
    | ttl => exact Recorded.Quiet.pure _

/-- Clearing asks for nothing. -/
def clearing : Operation where
  check _ := return true
  asks _ := []
  command := Policy.clearCommand
  verb := "Clearing"
  blame := Policy.clearFailed
  quiet _ := Recorded.Quiet.pure _

/-- Setting a policy is the operation `setting`. -/
lemma apply_eq_perform (p : Policy) :
    p.apply (Recorded.host answer version) =
      (setting answer version).perform (Recorded.host answer version) p := by
  rw [Policy.apply, Policy.tryApply, perform, bind_assoc]
  refine bind_congr fun passed => ?_
  cases passed with
  | false => rfl
  | true =>
      rw [if_pos rfl, if_pos rfl, carryOut, bind_assoc]
      refine bind_congr fun _ => ?_
      rw [bind_assoc]
      refine bind_congr fun result => ?_
      cases result <;> rfl

/-- Clearing a policy is the operation `clearing`. -/
lemma clear_eq_perform (p : Policy) :
    p.clear (Recorded.host answer version) =
      clearing.perform (Recorded.host answer version) p := by
  rw [Policy.clear, Policy.tryClear, perform, bind_assoc]
  rfl

/-! ### A turn -/

/-- The outcome of a policy when its turn comes. -/
def outcome (op : Operation) (t : Trace) (p : Policy) : Outcome :=
  if ((op.check p).run t).1 then op.outcomeOf answer ((op.check p).run t).2 p else .declined

/-- The outcome fits the check, made when the turn begins, and the command. -/
lemma fits_outcome (op : Operation) (t : Trace) (p : Policy) :
    (op.outcome answer t p).Fits ((op.check p).run t).1 (op.command p) := by
  rw [outcome]
  cases ((op.check p).run t).1 with
  | false => rfl
  | true => exact fits_outcomeOf answer op ((op.check p).run t).2 p

/-- A command is run for a policy that passes and has one. -/
lemma command?_outcome (op : Operation) (t : Trace) (p : Policy) :
    (op.outcome answer t p).command? =
      if ((op.check p).run t).1 then (op.command p).toOption else none := by
  rw [outcome]
  cases ((op.check p).run t).1 with
  | false => rfl
  | true =>
      rw [if_pos rfl, if_pos rfl, outcomeOf]
      cases op.command p with
      | error e => rfl
      | ok c =>
          cases h : answer (((op.check p).run t).2 ++ [.log (p.announcement op.verb)]) c with
          | error failure => simp only [h]; rfl
          | ok output => simp only [h]; rfl

lemma replies_outcome (op : Operation) (t : Trace) (p : Policy) :
    Trace.replies answer ((op.check p).run t).2 ((op.outcome answer t p).events op p) =
      (op.outcome answer t p).reply?.toList := by
  rw [outcome]
  cases ((op.check p).run t).1 with
  | false => rfl
  | true => exact replies_events answer op ((op.check p).run t).2 p

/-- The outcome tells what a turn returns and, after the check, what it does. -/
lemma perform_run (op : Operation) (t : Trace) (p : Policy) :
    (op.perform (Recorded.host answer version) p).run t =
      ((op.outcome answer t p).output?,
        ((op.check p).run t).2 ++ (op.outcome answer t p).events op p) := by
  rw [perform, outcome, StateT.run_bind]
  change StateT.run (if ((op.check p).run t).1 = true then _ else _) ((op.check p).run t).2 = _
  cases ((op.check p).run t).1 with
  | false => exact Prod.ext rfl (List.append_nil _).symm
  | true => exact carryOut_run answer version op ((op.check p).run t).2 p

end Operation

end BrokerPolicy
