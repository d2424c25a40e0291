import BrokerPolicy.Proofs.Batch.Turn

/-!
What a batch leaves behind.

Every policy of a batch has its `Turn`, whatever became of those before it. An `Account` says which
commands, answers, statuses and version queries the turns leave in the trace of a host, and how they
are counted. A turn has an account of its own (`account_perform`), accounts of turns one after the
other add up (`Account.append`), and so a whole batch has one (`account_forAll`). The text of the
statuses is left open in an account; `applyAll_clearAll_account` gives the two texts.
-/

namespace BrokerPolicy

/-! ### Turns -/

/-- A turn of a batch: a policy, and all that has happened before. -/
structure Turn where
  policy : Policy
  start : Trace

/-- The turns of a batch. The next one starts where the last one ends. -/
def turns (act : Policy → Recorded (Option String)) (start : Trace) : List Policy → List Turn
  | [] => []
  | p :: ps => ⟨p, start⟩ :: turns act ((act p).run start).2 ps

/-- The policy passes the check when its turn comes. -/
def Turn.passes (op : Operation) (turn : Turn) : Bool :=
  ((op.check turn.policy).run turn.start).1

/-! ### Accounts -/

/-- What the turns of a batch leave in a trace, and how they are counted, where `failed` is the
status that a policy gets if it fails. -/
structure Account (answer : Trace → Command → Except CommandFailure String) (op : Operation)
    (failed : Policy → String) (ps : List Policy) (turns : List Turn) (before events : Trace)
    (tally : Tally) : Prop where
  /-- Every policy has its turn. -/
  policies : turns.map Turn.policy = ps
  /-- One command is run for every policy that passes and has one. -/
  commands : events.commands =
    (turns.filter (Turn.passes op)).filterMap fun turn => (op.command turn.policy).toOption
  /-- The answers are those of the turns. -/
  replies : Trace.replies answer before events =
    turns.filterMap fun turn => (op.outcome answer turn.start turn.policy).reply?
  /-- Good answers are successes. -/
  succeeded : tally.succeeded = (Trace.replies answer before events).countP Except.isOk
  /-- All policies are counted. -/
  total : tally.succeeded + tally.notApplied = ps.length
  /-- One status is shown for every policy that passes but has no command or a failing one. -/
  statuses : events.statuses =
    (turns.filter fun turn => (op.outcome answer turn.start turn.policy).isFailure).map fun turn =>
      (.blocked, failed turn.policy)
  /-- Nothing but the checks asks for versions. -/
  versionQueries : events.versionQueries = turns.flatMap fun turn => op.asks turn.policy

/-- The sum of two counts. -/
def Tally.add (t u : Tally) : Tally where
  succeeded := t.succeeded + u.succeeded
  notApplied := t.notApplied + u.notApplied

/-- To count one more policy is to add a count of one. -/
lemma Tally.count_eq_add (t : Tally) (r : Option String) : t.count r = t.add (count {} r) := by
  cases r <;> rfl

lemma Tally.add_assoc (t u v : Tally) : (t.add u).add v = t.add (u.add v) := by
  simp only [add, Nat.add_assoc]

lemma Tally.zero_add (t : Tally) : Tally.add {} t = t := by
  simp only [add, Nat.zero_add]

namespace Account

variable {answer : Trace → Command → Except CommandFailure String} {op : Operation}
  {failed : Policy → String} {before : Trace}

/-- No turns leave nothing. -/
lemma nil : Account answer op failed [] [] before [] {} :=
  ⟨rfl, rfl, rfl, List.countP_nil.symm, rfl, rfl, rfl⟩

/-- Turns one after the other leave what each of them leaves. -/
lemma append {ps ps' : List Policy} {turns turns' : List Turn} {events events' : Trace}
    {tally tally' : Tally} (h : Account answer op failed ps turns before events tally)
    (h' : Account answer op failed ps' turns' (before ++ events) events' tally') :
    Account answer op failed (ps ++ ps') (turns ++ turns') before (events ++ events')
      (tally.add tally') where
  policies := by
    rw [List.map_append, h.policies, h'.policies]
  commands := by
    rw [Trace.commands_append, h.commands, h'.commands, List.filter_append, List.filterMap_append]
  replies := by
    rw [Trace.replies_append, h.replies, h'.replies, List.filterMap_append]
  succeeded := by
    rw [Trace.replies_append, List.countP_append, ← h.succeeded, ← h'.succeeded, Tally.add]
  total := by
    have htotal := h.total
    have htotal' := h'.total
    rw [List.length_append]
    change tally.succeeded + tally'.succeeded + (tally.notApplied + tally'.notApplied) = _
    omega
  statuses := by
    rw [Trace.statuses_append, h.statuses, h'.statuses, List.filter_append, List.map_append]
  versionQueries := by
    rw [Trace.versionQueries_append, h.versionQueries, h'.versionQueries, List.flatMap_append]

end Account

section Batch

variable (answer : Trace → Command → Except CommandFailure String)
  (version : Trace → (package version : String) → Except PolicyError Ordering)

/-- The account of a single turn. -/
lemma account_perform (op : Operation) (t : Trace) (p : Policy) : ∃ events,
    ((op.perform (Recorded.host answer version) p).run t).2 = t ++ events ∧
      Account answer op op.blame [p] [⟨p, t⟩] t events
        (Tally.count {} ((op.perform (Recorded.host answer version) p).run t).1) := by
  -- what the check asks leaves neither commands nor statuses, so all else comes from the outcome
  obtain ⟨asked, hasked, hcommands, hstatuses, hqueries⟩ := op.quiet p t
  refine ⟨asked ++ (op.outcome answer t p).events op p, ?_, rfl, ?_, ?_, ?_, ?_, ?_, ?_⟩
  · rw [Operation.perform_run, hasked, List.append_assoc]
  · rw [Trace.commands_append, hcommands, List.nil_append, Outcome.commands_events,
      Operation.command?_outcome]
    cases hpass : ((op.check p).run t).1 with
    | false => simp [Turn.passes, hpass]
    | true => cases hcommand : (op.command p).toOption <;> simp [Turn.passes, hpass, hcommand]
  · rw [Trace.replies_append, Trace.replies_of_commands hcommands, List.nil_append, ← hasked,
      Operation.replies_outcome]
    cases hreply : (op.outcome answer t p).reply? <;> simp [hreply]
  · rw [Trace.replies_append, Trace.replies_of_commands hcommands, List.nil_append, ← hasked,
      Operation.replies_outcome, Operation.perform_run, Outcome.succeeded_count]
  · rw [Operation.perform_run]
    cases (op.outcome answer t p).output? <;> rfl
  · rw [Trace.statuses_append, hstatuses, List.nil_append, Outcome.statuses_events]
    cases hfailure : (op.outcome answer t p).isFailure <;> simp [hfailure]
  · rw [Trace.versionQueries_append, hqueries, Outcome.versionQueries_events, List.append_nil,
      List.flatMap_singleton]

/-- **A batch has the account of its turns**, if every turn carries out the operation. -/
lemma account_forAll {op : Operation} {act : Policy → Recorded (Option String)}
    (hact : ∀ p, act p = op.perform (Recorded.host answer version) p) (tally : Tally)
    (before : Trace) (ps : List Policy) : ∃ events counted,
      (Policy.forAll act tally ps).run before = (tally.add counted, before ++ events) ∧
        Account answer op op.blame ps (turns act before ps) before events counted := by
  -- the trace grows and the count goes on with every turn, so both are general in the induction
  induction ps generalizing tally before with
  | nil =>
      refine ⟨[], {}, ?_, Account.nil⟩
      rw [List.append_nil]
      rfl
  | cons p ps ih =>
      obtain ⟨events, hevents, haccount⟩ := account_perform answer version op before p
      rw [← hact] at hevents haccount
      have hrest := ih (tally.count ((act p).run before).1) ((act p).run before).2
      obtain ⟨events', counted, hrun, haccount'⟩ := hrest
      rw [hevents] at hrun haccount'
      refine ⟨events ++ events', Tally.add (Tally.count {} ((act p).run before).1) counted, ?_, ?_⟩
      · rw [← Tally.add_assoc, ← Tally.count_eq_add, ← List.append_assoc, ← hrun, ← hevents]
        rfl
      · rw [turns, hevents]
        exact haccount.append haccount'

/-- **Batches are isolated and accounted for**: setting and clearing a list give every policy its
turn, and the commands, the answers, the counts and the statuses are those of the turns, whatever
the runner and the version probe answer to anything that happened before. The statuses name the
policies that could not be created or cleared. Clearing does not ask for versions. -/
theorem applyAll_clearAll_account (before : Trace) (ps : List Policy) :
    (∃ events, ((Policy.applyAll (Recorded.host answer version) ps).run before).2 =
        before ++ events ∧
      Account answer (.setting answer version)
        (fun p => "RabbitMQ failed to create policy " ++ p.name) ps
        (turns (·.apply (Recorded.host answer version)) before ps) before events
        ((Policy.applyAll (Recorded.host answer version) ps).run before).1) ∧
    ∃ events, ((Policy.clearAll (Recorded.host answer version) ps).run before).2 =
        before ++ events ∧
      Account answer .clearing (fun p => "RabbitMQ failed to clear policy " ++ p.name) ps
        (turns (·.clear (Recorded.host answer version)) before ps) before events
        ((Policy.clearAll (Recorded.host answer version) ps).run before).1 ∧
      events.versionQueries = [] := by
  constructor
  · -- both are the same operation with every policy, so both have the account of their turns
    obtain ⟨events, counted, hrun, haccount⟩ := account_forAll answer version
      (Operation.apply_eq_perform answer version) {} before ps
    rw [Policy.applyAll, hrun, Tally.zero_add]
    exact ⟨events, rfl, haccount⟩
  · obtain ⟨events, counted, hrun, haccount⟩ := account_forAll answer version
      (Operation.clear_eq_perform answer version) {} before ps
    rw [Policy.clearAll, hrun, Tally.zero_add]
    refine ⟨events, rfl, haccount, ?_⟩
    rw [haccount.versionQueries, List.flatMap_eq_nil_iff]
    exact fun turn _ => rfl

end Batch

/-- A policy without a definition between others that can be set. -/
def mixedPolicies : List Policy :=
  [Policy.timeToLive "/" "expiry" "^logs", Policy.generic "/" "bare",
    Policy.mirrored "/" "mirror" "^"]

/-- A runner that fails when it is called first. -/
def coldAnswer (before : Trace) (_ : Command) : Except CommandFailure String :=
  if before.commands = [] then .error (.notRun brokerTool "busy") else .ok ""

/-- The first policy fails, the second has no command, the third is declined, as the broker is too
old, and only the fourth is set. Nothing is declined when they are cleared. -/
theorem applyAll_clearAll_account_mixed :
    let version : Trace → (package version : String) → Except PolicyError Ordering :=
      fun _ _ _ => .ok .lt
    let host := Recorded.host coldAnswer version
    let ps := mixedPolicies ++ [Policy.timeToLive "/" "late" "^q"]
    (∃ events, ((Policy.applyAll host ps).run []).2 = events ∧
      Account coldAnswer (.setting coldAnswer version)
        (fun p => "RabbitMQ failed to create policy " ++ p.name) ps (turns (·.apply host) [] ps) []
        events { succeeded := 1, notApplied := 3 } ∧
      events.statuses = [(.blocked, "RabbitMQ failed to create policy expiry"),
        (.blocked, "RabbitMQ failed to create policy bare")]) ∧
    ∃ events, ((Policy.clearAll host ps).run []).2 = events ∧
      Account coldAnswer .clearing (fun p => "RabbitMQ failed to clear policy " ++ p.name) ps
        (turns (·.clear host) [] ps) [] events { succeeded := 3, notApplied := 1 } ∧
      events.statuses = [(.blocked, "RabbitMQ failed to clear policy expiry")] := by
  intro version host ps
  obtain ⟨⟨set, hset, haccount⟩, cleared, hcleared, haccount', -⟩ :=
    applyAll_clearAll_account coldAnswer version [] ps
  rw [List.nil_append] at hset hcleared
  have htally : ((Policy.applyAll host ps).run []).1 = { succeeded := 1, notApplied := 3 } := by
    decide +kernel
  have htally' : ((Policy.clearAll host ps).run []).1 = { succeeded := 3, notApplied := 1 } := by
    decide +kernel
  refine ⟨⟨set, hset, htally ▸ haccount, ?_⟩, cleared, hcleared, htally' ▸ haccount', ?_⟩
  · rw [← hset]
    decide +kernel
  · rw [← hcleared]
    decide +kernel

end BrokerPolicy
