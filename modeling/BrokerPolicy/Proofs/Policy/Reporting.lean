import BrokerPolicy.Proofs.Batch.Turn

/-!
What is told of a policy that is set or cleared.

To set or clear a policy is to try it and then to tell what came of it (`apply_run`, `clear_run`).
`report` is what is told, entries of the log and statuses alone, and it depends on the result only.

What is tried is either declined, and then all is told already (`Declined`, `check_run`), or a
command is announced. Whatever comes of that (`Succeeded`, `Failed`), it is told in the same way by
both procedures (`told_of_announced`). Together: `apply_clear_told`.
-/

namespace BrokerPolicy

namespace Policy

variable (answer : Trace → Command → Except CommandFailure String)
  (version : Trace → (package version : String) → Except PolicyError Ordering)

/-! ### What is told -/

/-- What is told of a result; nothing if the policy is declined. -/
def report (p : Policy) (status : String) : Except PolicyError (Option String) → Trace
  | .ok none => []
  | .ok (some output) => [.log (p.outputEvent output)]
  | .error e => [.log (p.failureEvent e status), .status .blocked status]

/-- The version of the broker is asked for where queues are mirrored. -/
def asked (p : Policy) : Trace :=
  if p.kind = .ha then [.versionQuery brokerPackage mirroringVersion] else []

/-- After the check, of which the events are `before`, a command was announced and run, and what was
answered to it was told. -/
def Succeeded (command : Except PolicyError Command) (t before events told : Trace)
    (output : String) : Prop :=
  ∃ (c : Command) (debug info : LogEvent), command = .ok c ∧
    answer (t ++ before ++ [Event.log debug]) c = .ok output ∧
    events = before ++ [Event.log debug, Event.command c] ∧ told = [.log info] ∧
    debug.level = .debug ∧ info.level = .info ∧ info.message = output

/-- After the check, of which the events are `before`, a command was announced and could not be
formed, or it was run and failed. The error was told with its code, and with one status. -/
def Failed (command : Except PolicyError Command) (status : String) (t before events told : Trace)
    (e : PolicyError) : Prop :=
  ∃ debug error : LogEvent,
    (command = .error e ∧ events = before ++ [Event.log debug] ∨
      ∃ (c : Command) (failure : CommandFailure), command = .ok c ∧
        answer (t ++ before ++ [Event.log debug]) c = .error failure ∧
        e = .commandFailed failure ∧ events = before ++ [Event.log debug, Event.command c]) ∧
    told = [.log error, .status .blocked status] ∧
    debug.level = .debug ∧ error.level = .error ∧ ("code", e.code) ∈ error.fields

/-- What happens when a policy is declined by what is answered about the version of the broker: it
is told whether the broker is too old or its version is not known. -/
def Declined (p : Policy) (compared : Except PolicyError Ordering) (events : Trace) : Prop :=
  p.kind = .ha ∧
    ((compared = .ok .lt ∧ ∃ warn info : LogEvent,
        events = p.asked ++ [Event.log warn, Event.log info] ∧
          warn.level = .warn ∧ info.level = .info) ∨
      (∃ e, compared = .error e) ∧ ∃ error : LogEvent,
        events = p.asked ++ [Event.log error] ∧ error.level = .error)

/-- To tell what happened runs no command. -/
lemma commands_report (p : Policy) (status : String) (result : Except PolicyError (Option String)) :
    (p.report status result).commands = [] := by
  rcases result with e | _ | output <;> rfl

lemma versionQueries_report (p : Policy) (status : String)
    (result : Except PolicyError (Option String)) :
    (p.report status result).versionQueries = [] := by
  rcases result with e | _ | output <;> rfl

/-! ### Trying and telling -/

/-- Setting a policy is to try it, and then to tell what came of it. -/
lemma apply_run (p : Policy) (t : Trace) :
    (p.apply (Recorded.host answer version)).run t =
      let tried := (p.tryApply (Recorded.host answer version)).run t
      (tried.1.toOption.join, tried.2 ++ p.report p.createFailed tried.1) := by
  rw [apply, StateT.run_bind]
  change StateT.run _ ((p.tryApply (Recorded.host answer version)).run t).2 = _
  dsimp only
  generalize ((p.tryApply (Recorded.host answer version)).run t).2 = u
  rcases ((p.tryApply (Recorded.host answer version)).run t).1 with e | _ | output
  · exact Prod.ext rfl (List.append_assoc u _ _)
  · exact Prod.ext rfl (List.append_nil u).symm
  · rfl

/-- Clearing a policy is to try it, and then to tell what came of it. -/
lemma clear_run (p : Policy) (t : Trace) :
    (p.clear (Recorded.host answer version)).run t =
      let tried := (p.tryClear (Recorded.host answer version)).run t
      (tried.1.toOption, tried.2 ++ p.report p.clearFailed (tried.1.map some)) := by
  rw [clear, StateT.run_bind]
  change StateT.run _ ((p.tryClear (Recorded.host answer version)).run t).2 = _
  dsimp only
  generalize ((p.tryClear (Recorded.host answer version)).run t).2 = u
  rcases ((p.tryClear (Recorded.host answer version)).run t).1 with e | output
  · exact Prod.ext rfl (List.append_assoc u _ _)
  · rfl

/-- Announces a command and runs it, if it could be formed. -/
def announced (host : Host Recorded) (p : Policy) (verb : String)
    (command : Except PolicyError Command) : Recorded (Except PolicyError String) := do
  host.log (p.announcement verb)
  runCommand host command

/-- The log names the policy before the command is run. -/
lemma announced_run (p : Policy) (verb : String) (command : Except PolicyError Command)
    (t : Trace) : (p.announced (Recorded.host answer version) verb command).run t =
      (runCommand (Recorded.host answer version) command).run
        (t ++ [Event.log (p.announcement verb)]) :=
  rfl

/-- Whatever is announced is told. -/
lemma told_of_announced (p : Policy) (verb status : String) (command : Except PolicyError Command)
    (t before : Trace) :
    ∃ result events, (p.announced (Recorded.host answer version) verb command).run (t ++ before) =
      (result, t ++ events) ∧
        match result with
        | .ok output =>
          Succeeded answer command t before events (p.report status (.ok (some output))) output
        | .error e =>
          Failed answer command status t before events (p.report status (.error e)) e := by
  rw [announced_run]
  cases command with
  | error e =>
      refine ⟨.error e, _, Prod.ext rfl (List.append_assoc t before _), ?_⟩
      exact ⟨_, _, .inl ⟨rfl, rfl⟩, rfl, rfl, rfl, by simp [failureEvent]⟩
  | ok c =>
      have hevents : t ++ before ++ [Event.log (p.announcement verb)] ++ [Event.command c] =
          t ++ (before ++ [Event.log (p.announcement verb), Event.command c]) := by
        simp only [List.append_assoc, List.cons_append, List.nil_append]
      rw [Operation.runCommand_run answer rfl, hevents]
      refine ⟨_, _, rfl, ?_⟩
      cases h : answer (t ++ before ++ [Event.log (p.announcement verb)]) c with
      | error failure =>
          exact ⟨_, _, .inr ⟨c, failure, rfl, h, rfl, rfl⟩, rfl, rfl, rfl, by simp [failureEvent]⟩
      | ok output => exact ⟨c, _, _, rfl, h, rfl, rfl, rfl, rfl, rfl⟩

/-- A policy passes the check once its version is asked for, or it is declined and that is told. -/
lemma check_run (p : Policy) (t : Trace) :
    (p.check (Recorded.host answer version)).run t = (true, t ++ p.asked) ∨
      ∃ events, (p.check (Recorded.host answer version)).run t = (false, t ++ events) ∧
        p.Declined (version t brokerPackage mirroringVersion) events := by
  -- only a mirroring policy asks for the version; every other one is let through unasked
  by_cases hkind : p.kind = .ha
  · have hasked : p.asked = [.versionQuery brokerPackage mirroringVersion] := if_pos hkind
    have hrun : (p.check (Recorded.host answer version)).run t =
        (p.acceptMirroring (Recorded.host answer version)
          (version t brokerPackage mirroringVersion)).run (t ++ p.asked) := by
      rw [check, hkind, hasked]
      rfl
    rw [hrun]
    cases hversion : version t brokerPackage mirroringVersion with
    | error e =>
        refine .inr ⟨p.asked ++ [_], Prod.ext rfl (List.append_assoc t _ _), hkind, .inr ?_⟩
        exact ⟨⟨e, rfl⟩, _, rfl, rfl⟩
    | ok order =>
        cases order with
        | lt =>
            have hevents (warn info : Event) : t ++ p.asked ++ [warn] ++ [info] =
                t ++ (p.asked ++ [warn, info]) := by
              simp only [List.append_assoc, List.cons_append, List.nil_append]
            refine .inr ⟨p.asked ++ [_, _], Prod.ext rfl (hevents _ _), hkind, .inl ?_⟩
            exact ⟨rfl, _, _, rfl, rfl, rfl⟩
        | eq | gt => exact .inl rfl
  · have hasked : p.asked = [] := if_neg hkind
    left
    rw [hasked, List.append_nil, check]
    cases h : p.kind with
    | ha => exact absurd h hkind
    | generic | ttl => rfl

/-- **What is told of a policy that is set or cleared.** The output is returned if trying returns
it, and nothing is added but what is told: the output, or the error and one status. To set a policy
is first to ask whether the broker can take it, which may decline it and tells that by itself. -/
theorem apply_clear_told (p : Policy) (t : Trace) :
    let host := Recorded.host answer version
    (∃ result events told, (p.tryApply host).run t = (result, t ++ events) ∧
      ((p.apply host).run t).2 = t ++ events ++ told ∧
      told.commands = [] ∧ told.versionQueries = [] ∧
      (∀ output, ((p.apply host).run t).1 = some output ↔ result = .ok (some output)) ∧
      match result with
      | .ok (some output) => Succeeded answer p.setCommand t p.asked events told output
      | .error e =>
        Failed answer p.setCommand ("RabbitMQ failed to create policy " ++ p.name) t p.asked events
          told e
      | .ok none =>
        p.Declined (version t brokerPackage mirroringVersion) events ∧ told = []) ∧
    ∃ result events told, (p.tryClear host).run t = (result, t ++ events) ∧
      ((p.clear host).run t).2 = t ++ events ++ told ∧
      told.commands = [] ∧ told.versionQueries = [] ∧ events.versionQueries = [] ∧
      (∀ output, ((p.clear host).run t).1 = some output ↔ result = .ok output) ∧
      match result with
      | .ok output => Succeeded answer p.clearCommand t [] events told output
      | .error e =>
        Failed answer p.clearCommand ("RabbitMQ failed to clear policy " ++ p.name) t [] events
          told e := by
  intro host
  constructor
  · rw [apply_run]
    rcases check_run answer version p t with hcheck | ⟨events, hcheck, hdeclined⟩
    · obtain ⟨result, events, hrun, htold⟩ := told_of_announced answer version p "Setting"
        p.createFailed p.setCommand t p.asked
      -- what is told is that of the announced command, moved behind what the check asked
      have htried : (p.tryApply host).run t = (result.map some, t ++ events) := by
        rw [tryApply, StateT.run_bind, hcheck]
        change StateT.run (Except.map some <$> p.announced host "Setting" p.setCommand) _ = _
        rw [StateT.run_map, hrun]
        rfl
      rw [htried]
      refine ⟨_, events, _, rfl, rfl, commands_report _ _ _, versionQueries_report _ _ _,
        fun output => ?_, ?_⟩
      · cases result <;> simp [Except.map, Except.toOption]
      · cases result <;> exact htold
    · have htried : (p.tryApply host).run t = (.ok none, t ++ events) := by
        rw [tryApply, StateT.run_bind, hcheck]
        rfl
      rw [htried]
      refine ⟨_, events, _, rfl, rfl, rfl, rfl, fun output => ?_, hdeclined, rfl⟩
      simp [Except.toOption]
  · obtain ⟨result, events, hrun, htold⟩ := told_of_announced answer version p "Clearing"
      p.clearFailed p.clearCommand t []
    have htried : (p.tryClear host).run t = (result, t ++ events) := by
      rw [List.append_nil] at hrun
      exact hrun
    rw [clear_run, htried]
    refine ⟨_, events, _, rfl, rfl, commands_report _ _ _, versionQueries_report _ _ _, ?_,
      fun output => ?_, ?_⟩
    · cases result with
      | ok output =>
          obtain ⟨c, debug, info, -, -, rfl, -⟩ := htold
          rfl
      | error e =>
          obtain ⟨debug, error, ⟨-, rfl⟩ | ⟨c, failure, -, -, -, rfl⟩, -⟩ := htold
          · rfl
          · rfl
    · cases result <;> simp [Except.toOption]
    · cases result <;> exact htold

end Policy

end BrokerPolicy
