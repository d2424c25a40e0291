import BrokerPolicy.Proofs.Listing.Session

/-!
All policies of a broker, or none.

In a settled format a question is one call, and lines without a row leave entries in the log and
nothing else. So a listing is told by the questions that were tried, one for each virtual host:
either all of them could be answered and their policies stand one after the other, or the first that
could not ends the listing, and nothing is listed. `Listing` says this together with the calls and
the log, `Listing.cons` is the step from one virtual host to the next and `listing_policiesFrom` the
run over all of them. From there to the whole question: `policies_whole_or_none`.
-/

namespace BrokerPolicy

/-! ### What is listed -/

/-- A virtual host whose policies were asked for, the reply, and the policies that it lists. -/
structure Try where
  vhost : String
  reply : Except CommandFailure String
  rows : List Row

/-- The call that was made for a virtual host. -/
def Try.call (f : Format) (t : Try) : Command × Except CommandFailure String :=
  (listPolicies t.vhost ++ f.flags, t.reply)

/-- The entry of the log for a virtual host whose policies cannot be told. -/
def failedListing (vhost : String) (e : PolicyError) : LogEvent where
  level := .error
  message := "list_policies failed"
  fields := [("vhost", vhost), ("error", e.message)]

/-- The entry of the log for virtual hosts that cannot be told. -/
def unknownVhosts (e : PolicyError) : LogEvent where
  level := .debug
  message := "list_vhosts failed"
  fields := [("error", e.message)]

/-- What is listed of virtual hosts in a format, none if that fails, with the calls that are made
and the entries of the log. -/
inductive Listing (f : Format) : List String → Option (List Row) →
    List (Command × Except CommandFailure String) → List LogEvent → Prop
  /-- The policies of all virtual hosts, which were asked for one by one. -/
  | whole {tries : List Try} {skipped : List LogEvent}
      (hread : ∀ t ∈ tries, f.rows t.reply = .ok t.rows)
      (hskipped : ∀ entry ∈ skipped, entry.level = .debug) :
      Listing f (tries.map Try.vhost) (some (tries.flatMap Try.rows)) (tries.map (Try.call f))
        skipped
  /-- Nothing, as the policies of a virtual host cannot be told. Those before it were asked for, and
  those behind it were not. -/
  | stopped {tries : List Try} {vhost : String} {rest : List String}
      {reply : Except CommandFailure String} {e : PolicyError} {skipped : List LogEvent}
      (hread : ∀ t ∈ tries, f.rows t.reply = .ok t.rows) (hfailed : f.rows reply = .error e)
      (hskipped : ∀ entry ∈ skipped, entry.level = .debug) :
      Listing f (tries.map Try.vhost ++ vhost :: rest) none
        (tries.map (Try.call f) ++ [(listPolicies vhost ++ f.flags, reply)])
        (skipped ++ [failedListing vhost e])

/-- A virtual host in front whose policies can be told. -/
lemma Listing.cons {f : Format} {vhosts : List String} {result : Option (List Row)}
    {calls : List (Command × Except CommandFailure String)} {logs skipped : List LogEvent}
    (t : Try) (hread : f.rows t.reply = .ok t.rows)
    (hskipped : ∀ entry ∈ skipped, entry.level = .debug) (h : Listing f vhosts result calls logs) :
    Listing f (t.vhost :: vhosts) (result.map (t.rows ++ ·)) (t.call f :: calls)
      (skipped ++ logs) := by
  cases h with
  | @whole tries skipped' hmore hskipped' =>
      show Listing f ((t :: tries).map Try.vhost) (some ((t :: tries).flatMap Try.rows))
        ((t :: tries).map (Try.call f)) _
      exact .whole (List.forall_mem_cons.2 ⟨hread, hmore⟩)
        (List.forall_mem_append.2 ⟨hskipped, hskipped'⟩)
  | @stopped tries vhost rest reply e skipped' hmore hfailed hskipped' =>
      rw [← List.append_assoc]
      show Listing f ((t :: tries).map Try.vhost ++ vhost :: rest) none
        ((t :: tries).map (Try.call f) ++ [(listPolicies vhost ++ f.flags, reply)]) _
      exact .stopped (List.forall_mem_cons.2 ⟨hread, hmore⟩) hfailed
        (List.forall_mem_append.2 ⟨hskipped, hskipped'⟩)

/-- What is listed in a format when the question for the virtual hosts has this result, with the
calls that are made after it and the entries of the log. Without virtual hosts nothing is asked. -/
def ListedOf (f : Format) (vhosts : Except PolicyError (List String)) (rows : List Row)
    (calls : List (Command × Except CommandFailure String)) (logs : List LogEvent) : Prop :=
  match vhosts with
  | .ok vhosts => ∃ result, rows = result.getD [] ∧ Listing f vhosts result calls logs
  | .error e => rows = [] ∧ calls = [] ∧ logs = [unknownVhosts e]

/-! ### One virtual host after the other -/

namespace Query

variable (answer : Trace → Command → Except CommandFailure String)
  (version : Trace → (package required : String) → Trace × Except PolicyError Ordering)
  (f : Format)

/-- Going through the virtual hosts is a listing: whole, or up to the first that fails. -/
lemma listing_policiesFrom (listed : List Row) (vhosts : List String) (before : Trace) :
    ∃ result events, ((policiesFrom (Recorded.probing answer version) listed vhosts).run
        (some f)).run before =
        (((result.map (listed ++ ·)).getD [], some f), before ++ events) ∧
      events.versionQueries = [] ∧
      Listing f vhosts result (Trace.calls answer before events) events.logs := by
  induction vhosts generalizing listed before with
  | nil =>
      refine ⟨some [], [], ?_, rfl, ?_⟩
      · rw [List.append_nil]
        show ((listed, some f), before) = ((listed ++ [], some f), before)
        rw [List.append_nil]
      · have hnone : ∀ t ∈ ([] : List Try), f.rows t.reply = .ok t.rows := List.forall_mem_nil _
        exact .whole hnone (List.forall_mem_nil _)
  | cons vhost vhosts ih =>
      obtain ⟨skipped, hskipped, hrun⟩ := @tryPoliciesIn_run answer version f vhost before
      rw [policiesFrom, StateT.run_bind, StateT.run_bind, hrun]
      -- what the question for the policies of the first virtual host leaves
      let c : Command := listPolicies vhost ++ f.flags
      let tried : Trace := .command c :: skipped.map Event.log
      have hqueries : tried.versionQueries = [] := Trace.versionQueries_logged skipped
      have hcalls : Trace.calls answer before tried = [(c, answer before c)] :=
        congrArg ((c, answer before c) :: ·) (Trace.calls_logged skipped)
      have hlogs : tried.logs = skipped := Trace.logs_logged skipped
      cases hrows : f.rows (answer before c) with
      | error e =>
          have hnone : ∀ t ∈ ([] : List Try), f.rows t.reply = .ok t.rows := List.forall_mem_nil _
          refine ⟨none, tried ++ [.log (failedListing vhost e)], ?_, ?_, ?_⟩
          · rw [← List.append_assoc]
            rfl
          · rw [Trace.versionQueries_append, hqueries]
            rfl
          · rw [Trace.calls_append, hcalls, Trace.logs_append, hlogs]
            exact .stopped hnone hrows hskipped
      | ok rows =>
          obtain ⟨result, events, hmore, hqueries', hlisting⟩ :=
            ih (listed ++ rows) (before ++ tried)
          refine ⟨result.map (rows ++ ·), tried ++ events, ?_, ?_, ?_⟩
          · rw [← List.append_assoc]
            refine hmore.trans ?_
            cases result with
            | none => rfl
            | some more =>
                show ((listed ++ rows ++ more, some f), _) = ((listed ++ (rows ++ more), some f), _)
                rw [List.append_assoc listed]
          · rw [Trace.versionQueries_append, hqueries, hqueries', List.append_nil]
          · rw [Trace.calls_append, hcalls, Trace.logs_append, hlogs]
            exact hlisting.cons ⟨vhost, answer before c, rows⟩ hrows hskipped

/-- After the virtual hosts come their listings, and nothing else is run or asked. -/
lemma listed_policies (before : Trace) : ∃ rows events calls,
    ((policies (Recorded.probing answer version)).run (some f)).run before =
        ((rows, some f), before ++ events) ∧
      events.versionQueries = [] ∧
      Trace.calls answer before events =
        (listVhosts ++ f.flags, answer before (listVhosts ++ f.flags)) :: calls ∧
      ListedOf f (f.vhosts (answer before (listVhosts ++ f.flags))) rows calls events.logs := by
  let c : Command := listVhosts ++ f.flags
  have hvhosts : ((vhosts (Recorded.probing answer version)).run (some f)).run before =
      match f.vhosts (answer before c) with
      | .ok vhosts => ((vhosts, some f), before ++ [.command c])
      | .error e => (([], some f), before ++ [.command c] ++ [.log (unknownVhosts e)]) := by
    rw [vhosts, StateT.run_bind, StateT.run_bind, tryVhosts_run]
    cases f.vhosts (answer before c) <;> rfl
  rw [policies, StateT.run_bind, StateT.run_bind, hvhosts]
  cases f.vhosts (answer before c) with
  | error e =>
      refine ⟨[], [.command c, .log (unknownVhosts e)], [], ?_, rfl, rfl, rfl, rfl, rfl⟩
      rw [List.append_cons before _ [.log (unknownVhosts e)]]
      rfl
  | ok vhosts =>
      obtain ⟨result, events, hrun, hqueries, hlisting⟩ :=
        listing_policiesFrom answer version f [] vhosts (before ++ [.command c])
      refine ⟨(result.map ([] ++ ·)).getD [], .command c :: events, _, ?_, hqueries, rfl, result,
        ?_, hlisting⟩
      · rw [List.append_cons before _ events]
        exact hrun
      · cases result <;> rfl

end Query

/-- **All policies or none**: when all policies are asked for, the virtual hosts are asked for
first, by a single call. If these cannot be told, nothing is listed and nothing else is asked, and
one entry of the log says so. Otherwise the policies are asked for virtual host by virtual host. If
all these questions can be answered, the answers are listed one after the other. The first that
cannot be answered ends it with nothing listed, and one error in the log names its virtual host. -/
theorem policies_whole_or_none (answer : Trace → Command → Except CommandFailure String)
    (version : Trace → (package required : String) → Trace × Except PolicyError Ordering)
    (format : Option Format) (before : Trace) :
    let host := Recorded.probing answer version
    let asking := before ++ Query.settling version format before
    ∃ f rows events calls,
      ((Query.policies host).run format).run before = ((rows, some f), asking ++ events) ∧
      events.versionQueries = [] ∧
      Trace.calls answer asking events =
        (listVhosts ++ f.flags, answer asking (listVhosts ++ f.flags)) :: calls ∧
      ListedOf f (((Query.tryVhosts host).run format).run before).1.1 rows calls events.logs ∧
      ∀ vhost t, (((Query.tryPoliciesIn host vhost).run (some f)).run t).1.1 =
        f.rows (answer t (listPolicies vhost ++ f.flags)) := by
  intro host asking
  obtain ⟨rows, events, calls, hrun, hqueries, hcalls, hlisted⟩ :=
    Query.listed_policies answer version (Query.settled version format before) asking
  have hpolicies : Query.Settles host (Query.policies host) := Query.settles_vhosts.bind _
  refine ⟨_, rows, events, calls, ?_, hqueries, hcalls, ?_, fun vhost t => ?_⟩
  · rw [Query.Settles.run_eq answer version hpolicies, hrun]
  · rw [Query.Settles.run_eq answer version Query.settles_tryVhosts, Query.tryVhosts_run]
    exact hlisted
  · obtain ⟨skipped, -, htried⟩ := @Query.tryPoliciesIn_run answer version _ vhost t
    rw [htried]

end BrokerPolicy
