import BrokerPolicy.Host.Recorded
import BrokerPolicy.Listing.Question
import BrokerPolicy.Proofs.Host.Recorded
import BrokerPolicy.Proofs.Listing.Reading

/-!
Sessions: series of questions to one broker.

* `Query.Settles` says that a series asks for the version of the broker before anything else and
  then goes on in the format that goes with the answer. It holds of whatever begins with a question
  (`settles_ask`), on hosts over any monad. A session is one in a settled format, begun a little
  later: `Settles.run_eq`.
* In a settled format a question makes certain calls, each with the flag of the format, and its
  reply is what the answers say when they are read in that format. A single question is one call
  (`tryVhosts_run`, `tryPoliciesIn_run`). `Question.Told` lists the calls and the reply of every
  question, `Question.told_ask` is the step and `Session` the run.

Together: `askAll_settled`.
-/

namespace BrokerPolicy

/-! ### Commands and answers of a format -/

/-- The plain command that lists the virtual hosts. -/
def listVhosts : Command :=
  ["rabbitmqctl", "list_vhosts"]

/-- The plain command that lists the policies of a virtual host. -/
def listPolicies (vhost : String) : Command :=
  ["rabbitmqctl", "list_policies", "-p", vhost]

namespace Format

/-- What a format adds to a plain command. -/
def flags : Format → List String
  | .json => ["--formatter=json"]
  | .table => []

/-- What an answer says, given how a document and how a table are read. -/
def read {α : Type} (json : String → Option α) (table : String → α) (f : Format) :
    Except CommandFailure String → Except PolicyError α
  | .error failure => .error (.commandFailed failure)
  | .ok output =>
    match f with
    | .table => .ok (table output)
    | .json =>
      match json output with
      | some a => .ok a
      | none => .error .malformedListing

/-- The virtual hosts in an answer. -/
def vhosts : Format → Except CommandFailure String → Except PolicyError (List String) :=
  read parseVhosts? tableLines

/-- The virtual hosts in an answer, none if it is unusable. -/
def knownVhosts (f : Format) (reply : Except CommandFailure String) : List String :=
  (f.vhosts reply).toOption.getD []

/-- The policies in an answer. -/
def rows : Format → Except CommandFailure String → Except PolicyError (List Row) :=
  read Row.parseList? fun output => (tableLines output).filterMap Row.ofLine?

lemma vhosts_ok (f : Format) (output : String) :
    f.vhosts (.ok output) = Query.readVhosts f output := by
  cases f with
  | table => rfl
  | json =>
      rw [vhosts, read, Query.readVhosts]
      cases parseVhosts? output <;> rfl

lemma rows_json_ok (output : String) : Format.json.rows (.ok output) =
    match Row.parseList? output with
    | some rows => .ok rows
    | none => .error .malformedListing := by
  rw [rows, read]
  cases Row.parseList? output <;> rfl

/-- A question is asked with the flags of the format. -/
lemma command_eq (f : Format) (arguments : List String) :
    Query.command arguments f = ("rabbitmqctl" :: arguments) ++ f.flags := by
  cases f with
  | json => rfl
  | table => exact (List.append_nil ("rabbitmqctl" :: arguments)).symm

end Format

/-! ### The format is settled first -/

namespace Query

/-- JSON is chosen if the version of the broker is known and not smaller. -/
lemma formatFor_eq_json_iff {compared : Except PolicyError Ordering} :
    formatFor compared = .json ↔ compared = .ok .eq ∨ compared = .ok .gt := by
  cases compared with
  | error e => simp [formatFor]
  | ok order => cases order <;> simp [formatFor]

variable {m : Type → Type} [Monad m] [LawfulMonad m] {host : Host m} {α β : Type}

/-- In a session without a format yet, the version of the broker is asked for before anything else
is done, and all the rest is done in the format that goes with it. -/
def Settles (host : Host m) (x : Query m α) : Prop :=
  x.run none = do
    let compared ← host.compareVersion "rabbitmq-server" "3.8.2"
    x.run (some (formatFor compared))

lemma settles_format : Settles host (format host) := by
  simp only [Settles, format, StateT.run_bind, StateT.run_get, pure_bind,
    liftM, StateT.run_monadLift, StateT.run_set, StateT.run_pure, bind_assoc, monadLift_self]
  rfl

/-- What begins by settling the format settles it, whatever comes after. -/
lemma Settles.bind {x : Query m α} (hx : Settles host x) (k : α → Query m β) :
    Settles host (x >>= k) := by
  rw [Settles] at hx
  rw [Settles, StateT.run_bind, hx, bind_assoc]
  rfl

lemma Settles.map {x : Query m α} (hx : Settles host x) (g : α → β) : Settles host (g <$> x) := by
  rw [map_eq_pure_bind]
  exact hx.bind _

lemma settles_tryVhosts : Settles host (tryVhosts host) :=
  (settles_format.bind _).bind _

lemma settles_vhosts : Settles host (vhosts host) :=
  settles_tryVhosts.bind _

lemma settles_tryPoliciesIn (vhost : String) : Settles host (tryPoliciesIn host vhost) :=
  (settles_format.bind _).bind _

/-- Whatever the question is, it settles the format. -/
lemma settles_ask (q : Question) : Settles host (q.ask host) := by
  cases q with
  | supportsJson => exact (settles_format.bind _).map _
  | vhosts => exact settles_vhosts.map _
  | tryVhosts => exact settles_tryVhosts.map _
  | policies => exact (settles_vhosts.bind _).map _
  | tryPoliciesIn vhost => exact (settles_tryPoliciesIn vhost).map _

end Query

/-! ### Questions in a settled format -/

/-- The policies of virtual hosts, asked for one after the other until an answer is unusable: the
calls, and the policies if all answers can be used. -/
inductive Gathered (f : Format) :
    List String → List (Command × Except CommandFailure String) → Option (List Row) → Prop
  | nil : Gathered f [] [] (some [])
  | stopped {vhost : String} {vhosts : List String} {reply : Except CommandFailure String}
      {e : PolicyError} (hreply : f.rows reply = .error e) :
      Gathered f (vhost :: vhosts) [(listPolicies vhost ++ f.flags, reply)] none
  | listed {vhost : String} {vhosts : List String} {reply : Except CommandFailure String}
      {calls : List (Command × Except CommandFailure String)} {rows : List Row}
      {more : Option (List Row)} (hreply : f.rows reply = .ok rows)
      (hmore : Gathered f vhosts calls more) :
      Gathered f (vhost :: vhosts) ((listPolicies vhost ++ f.flags, reply) :: calls)
        (more.map (rows ++ ·))

/-- The calls that a question makes in a format, and the reply to it. -/
inductive Question.Told (f : Format) :
    Question → List (Command × Except CommandFailure String) → Reply → Prop
  | supportsJson : Told f .supportsJson [] (.flag (f == .json))
  | vhosts (reply : Except CommandFailure String) :
      Told f .vhosts [(listVhosts ++ f.flags, reply)] (.vhosts (f.knownVhosts reply))
  | tryVhosts (reply : Except CommandFailure String) :
      Told f .tryVhosts [(listVhosts ++ f.flags, reply)] (.triedVhosts (f.vhosts reply))
  | policies {reply : Except CommandFailure String}
      {calls : List (Command × Except CommandFailure String)} {rows : Option (List Row)}
      (hgathered : Gathered f (f.knownVhosts reply) calls rows) :
      Told f .policies ((listVhosts ++ f.flags, reply) :: calls) (.policies (rows.getD []))
  | tryPoliciesIn (vhost : String) (reply : Except CommandFailure String) :
      Told f (.tryPoliciesIn vhost) [(listPolicies vhost ++ f.flags, reply)]
        (.triedPolicies (f.rows reply))

/-- A call for a listing in a format. -/
def Format.Asks (f : Format) (c : Command) : Prop :=
  c = listVhosts ++ f.flags ∨ ∃ vhost, c = listPolicies vhost ++ f.flags

/-- All listings of a gathering are asked for in the one format. -/
lemma Gathered.asks {f : Format} {vhosts : List String}
    {calls : List (Command × Except CommandFailure String)} {rows : Option (List Row)}
    (h : Gathered f vhosts calls rows) : ∀ call ∈ calls, f.Asks call.1 := by
  induction h with
  | nil => exact List.forall_mem_nil _
  | stopped _ => exact List.forall_mem_singleton.2 (.inr ⟨_, rfl⟩)
  | listed _ _ ih => exact List.forall_mem_cons.2 ⟨.inr ⟨_, rfl⟩, ih⟩

/-- So are the listings of a question. -/
lemma Question.Told.asks {f : Format} {q : Question}
    {calls : List (Command × Except CommandFailure String)} {reply : Reply}
    (h : q.Told f calls reply) : ∀ call ∈ calls, f.Asks call.1 := by
  cases h with
  | supportsJson => exact List.forall_mem_nil _
  | vhosts reply => exact List.forall_mem_singleton.2 (.inl rfl)
  | tryVhosts reply => exact List.forall_mem_singleton.2 (.inl rfl)
  | policies hgathered => exact List.forall_mem_cons.2 ⟨.inl rfl, hgathered.asks⟩
  | tryPoliciesIn vhost reply => exact List.forall_mem_singleton.2 (.inr ⟨vhost, rfl⟩)

/-- A series of questions in a format: each makes its calls and gets its reply. -/
inductive Session (f : Format) :
    List Question → List (Command × Except CommandFailure String) → List Reply → Prop
  | nil : Session f [] [] []
  | cons {q : Question} {qs : List Question} {reply : Reply} {replies : List Reply}
      {calls calls' : List (Command × Except CommandFailure String)} (htold : q.Told f calls reply)
      (hmore : Session f qs calls' replies) :
      Session f (q :: qs) (calls ++ calls') (reply :: replies)

/-- So are those of all questions of a session. -/
lemma Session.asks {f : Format} {qs : List Question} {replies : List Reply}
    {calls : List (Command × Except CommandFailure String)} (h : Session f qs calls replies) :
    ∀ call ∈ calls, f.Asks call.1 := by
  induction h with
  | nil => exact List.forall_mem_nil _
  | cons htold _ ih => exact List.forall_mem_append.2 ⟨htold.asks, ih⟩

/-! ### What a recorded host is asked -/

section

variable (answer : Trace → Command → Except CommandFailure String)
  (version : Trace → (package required : String) → Trace × Except PolicyError Ordering)

/-- The recorded host whose version probe may do things of its own, such as running commands, before
it answers. What it does and what it answers may depend on all that happened before. -/
def Recorded.probing : Host Recorded where
  run := runner answer
  compareVersion := fun package required before =>
    let probed := version before package required
    (probed.2, before ++ .versionQuery package required :: probed.1)
  setStatus := status
  log := log

/-- A series of questions in a format, begun after `before`, ends with a result and calls for which
the condition holds. The version is not asked for. -/
def Query.Ends {α : Type} (x : Query Recorded α) (f : Format) (before : Trace)
    (post : α → List (Command × Except CommandFailure String) → Prop) : Prop :=
  ∃ a events, (x.run (some f)).run before = ((a, some f), before ++ events) ∧
    events.versionQueries = [] ∧ post a (Trace.calls answer before events)

namespace Query

variable {answer} {α β : Type} {f : Format} {before : Trace} {x : Query Recorded α}
  {post : α → List (Command × Except CommandFailure String) → Prop}

lemma Ends.pure {a : α} (h : post a []) : Ends answer (Pure.pure a) f before post :=
  ⟨a, [], by rw [List.append_nil]; rfl, rfl, h⟩

/-- What ends well and goes on well ends well, with the calls of both. -/
lemma Ends.bind {k : α → Query Recorded β}
    {post' : β → List (Command × Except CommandFailure String) → Prop}
    (hx : Ends answer x f before post)
    (hk : ∀ a calls before, post a calls →
      Ends answer (k a) f before fun b calls' => post' b (calls ++ calls')) :
    Ends answer (x >>= k) f before post' := by
  obtain ⟨a, events, hrun, hqueries, hpost⟩ := hx
  obtain ⟨b, events', hrun', hqueries', hpost'⟩ := hk a _ (before ++ events) hpost
  refine ⟨b, events ++ events', ?_, ?_, ?_⟩
  · rw [StateT.run_bind, StateT.run_bind, hrun, ← List.append_assoc]
    exact hrun'
  · rw [Trace.versionQueries_append, hqueries, hqueries', List.append_nil]
  · rwa [Trace.calls_append]

lemma Ends.map {g : α → β} {post' : β → List (Command × Except CommandFailure String) → Prop}
    (hx : Ends answer x f before post) (h : ∀ a calls, post a calls → post' (g a) calls) :
    Ends answer (g <$> x) f before post' := by
  rw [map_eq_pure_bind]
  refine hx.bind fun a calls _ hpost => Ends.pure ?_
  rw [List.append_nil]
  exact h a calls hpost

/-- To end well in a stronger sense is to end well in a weaker one. -/
lemma Ends.imp {post' : α → List (Command × Except CommandFailure String) → Prop}
    (hx : Ends answer x f before post) (h : ∀ a calls, post a calls → post' a calls) :
    Ends answer x f before post' := by
  obtain ⟨a, events, hrun, hqueries, hpost⟩ := hx
  exact ⟨a, events, hrun, hqueries, h a _ hpost⟩

/-- After an entry of the log everything is as if it had not been made. -/
lemma Ends.log {event : LogEvent} {k : Query Recorded α}
    (hk : ∀ before, Ends answer k f before post) :
    Ends answer (StateT.lift (Recorded.log event) >>= fun _ => k) f before post := by
  have hlog : Ends answer (StateT.lift (Recorded.log event)) f before fun _ calls => calls = [] :=
    ⟨(), [.log event], rfl, rfl, rfl⟩
  refine hlog.bind fun _ calls before hcalls => ?_
  rw [hcalls]
  exact hk before

/-- Asking for a listing is one call, whose answer is passed on with the format. -/
lemma ask_run (arguments : List String) (before : Trace) :
    ((ask (Recorded.probing answer version) arguments).run (some f)).run before =
      (((answer before (command arguments f)).mapError PolicyError.commandFailed |>.map (f, ·),
        some f), before ++ [.command (command arguments f)]) := by
  have hformat : StateT.run (StateT.run (format (Recorded.probing answer version)) (some f))
      before = pure ((f, some f), before) := rfl
  have hreply : StateT.run ((Recorded.probing answer version).run (command arguments f)) before =
      pure (answer before (command arguments f), before ++ [.command (command arguments f)]) :=
    rfl
  simp only [ask, StateT.run_bind, StateT.run_monadLift, StateT.run_map, monadLift_self, hformat,
    hreply, pure_bind, bind_pure_comp, map_pure]
  cases answer before (command arguments f) <;> rfl

/-- Once the format is known, the virtual hosts are one command away. -/
lemma tryVhosts_run (before : Trace) :
    ((tryVhosts (Recorded.probing answer version)).run (some f)).run before =
      ((f.vhosts (answer before (listVhosts ++ f.flags)), some f),
        before ++ [.command (listVhosts ++ f.flags)]) := by
  have hcommand : command ["list_vhosts"] f = listVhosts ++ f.flags := f.command_eq _
  rw [tryVhosts, StateT.run_bind, StateT.run_bind, ask_run, hcommand]
  cases answer before (listVhosts ++ f.flags) with
  | error failure => rfl
  | ok output =>
      rw [Format.vhosts_ok]
      rfl

lemma ends_tryVhosts : Ends answer (tryVhosts (Recorded.probing answer version)) f before
    fun result calls => ∃ reply,
      calls = [(listVhosts ++ f.flags, reply)] ∧ result = f.vhosts reply :=
  ⟨_, _, tryVhosts_run version before, rfl, _, rfl, rfl⟩

/-- An answer that cannot be read leaves the known virtual hosts. -/
lemma ends_vhosts : Ends answer (vhosts (Recorded.probing answer version)) f before
    fun names calls => ∃ reply,
      calls = [(listVhosts ++ f.flags, reply)] ∧ names = f.knownVhosts reply := by
  refine (ends_tryVhosts version).bind fun result calls before h => ?_
  obtain ⟨reply, rfl, rfl⟩ := h
  cases hread : f.vhosts reply with
  | ok names => exact Ends.pure ⟨reply, List.append_nil _, by rw [Format.knownVhosts, hread]; rfl⟩
  | error e =>
      refine Ends.log fun before => Ends.pure ⟨reply, List.append_nil _, ?_⟩
      rw [Format.knownVhosts, hread]
      rfl

/-- Lines without a row are logged. -/
lemma readTable_logged (lines : List String) (before : Trace) :
    ∃ skipped : List LogEvent, (∀ entry ∈ skipped, entry.level = .debug) ∧
      (readTable (Recorded.probing answer version) lines).run before =
        (lines.filterMap Row.ofLine?, before ++ skipped.map Event.log) := by
  -- the trace grows with each line skipped, so the induction is for every trace before
  induction lines generalizing before with
  | nil => exact ⟨[], List.forall_mem_nil _, by rw [List.map_nil, List.append_nil]; rfl⟩
  | cons line lines ih =>
      rw [readTable]
      cases hline : Row.ofLine? line with
      | some row =>
          obtain ⟨skipped, hskipped, hrun⟩ := ih before
          refine ⟨skipped, hskipped, ?_⟩
          rw [List.filterMap_cons_some hline, StateT.run_bind, hrun]
          rfl
      | none =>
          let entry : LogEvent := {
            level := .debug
            message := "skipping short list_policies row"
            fields := [("line", line)] }
          obtain ⟨skipped, hskipped, hrun⟩ := ih (before ++ [.log entry])
          refine ⟨entry :: skipped, List.forall_mem_cons.2 ⟨rfl, hskipped⟩, ?_⟩
          rw [List.filterMap_cons_none hline, List.map_cons, List.append_cons, ← hrun]
          rfl

/-- One call for the policies of a virtual host, and then perhaps entries of the log. -/
lemma tryPoliciesIn_run (vhost : String) (before : Trace) :
    ∃ skipped : List LogEvent, (∀ entry ∈ skipped, entry.level = .debug) ∧
      ((tryPoliciesIn (Recorded.probing answer version) vhost).run (some f)).run before =
        ((f.rows (answer before (listPolicies vhost ++ f.flags)), some f),
          before ++ .command (listPolicies vhost ++ f.flags) :: skipped.map Event.log) := by
  have hcommand : command ["list_policies", "-p", vhost] f = listPolicies vhost ++ f.flags :=
    f.command_eq _
  rw [tryPoliciesIn, StateT.run_bind, StateT.run_bind, ask_run, hcommand]
  cases answer before (listPolicies vhost ++ f.flags) with
  | error failure => exact ⟨[], List.forall_mem_nil _, rfl⟩
  | ok output =>
      cases f with
      | json =>
          rw [Format.rows_json_ok]
          exact ⟨[], List.forall_mem_nil _, rfl⟩
      | table =>
          obtain ⟨skipped, hskipped, hrun⟩ := readTable_logged version (tableLines output)
            (before ++ [.command (listPolicies vhost ++ Format.table.flags)])
          refine ⟨skipped, hskipped, ?_⟩
          rw [List.append_cons before _ (skipped.map Event.log)]
          exact congrArg (fun r => ((Except.ok r.1, some Format.table), r.2)) hrun

/-- The policies of a virtual host are one command away, too. -/
lemma ends_tryPoliciesIn (vhost : String) :
    Ends answer (tryPoliciesIn (Recorded.probing answer version) vhost) f before
      fun result calls => ∃ reply,
        calls = [(listPolicies vhost ++ f.flags, reply)] ∧ result = f.rows reply := by
  obtain ⟨skipped, -, hrun⟩ := tryPoliciesIn_run version vhost before
  refine ⟨_, _, hrun, Trace.versionQueries_logged skipped, _, ?_, rfl⟩
  exact congrArg (_ :: ·) (Trace.calls_logged skipped)

/-- Going through the virtual hosts gathers their listings, up to the first that fails. -/
lemma ends_policiesFrom (listed : List Row) (vhosts : List String) :
    Ends answer (policiesFrom (Recorded.probing answer version) listed vhosts) f before
      fun result calls => ∃ rows,
        Gathered f vhosts calls rows ∧ result = (rows.map (listed ++ ·)).getD [] := by
  induction vhosts generalizing listed before with
  | nil => exact Ends.pure ⟨some [], .nil, (List.append_nil listed).symm⟩
  | cons vhost vhosts ih =>
      refine (ends_tryPoliciesIn version vhost).bind fun result calls before h => ?_
      obtain ⟨reply, rfl, rfl⟩ := h
      cases hreply : f.rows reply with
      | error e => exact Ends.log fun before => Ends.pure ⟨none, .stopped hreply, rfl⟩
      | ok rows =>
          refine (ih (listed ++ rows)).imp fun result calls h => ?_
          obtain ⟨more, hmore, rfl⟩ := h
          refine ⟨_, .listed hreply hmore, ?_⟩
          cases more with
          | none => rfl
          | some more => exact List.append_assoc listed rows more

/-- The policies of a broker are told by the virtual hosts and their listings. -/
lemma ends_policies : Ends answer (policies (Recorded.probing answer version)) f before
    fun rows calls => Question.Told f .policies calls (.policies rows) := by
  refine (ends_vhosts version).bind fun names calls before h => ?_
  obtain ⟨reply, rfl, rfl⟩ := h
  refine (ends_policiesFrom version [] (f.knownVhosts reply)).imp fun rows calls h => ?_
  obtain ⟨rows, hgathered, rfl⟩ := h
  simp only [List.nil_append, Option.map_id']
  exact .policies hgathered

end Query

/-! ### Sessions that have no format yet -/

namespace Query

/-- What happens before the first call of a session that begins with a format or without one. -/
def settling (format : Option Format) (before : Trace) : Trace :=
  match format with
  | some _ => []
  | none =>
    .versionQuery "rabbitmq-server" "3.8.2" :: (version before "rabbitmq-server" "3.8.2").1

/-- The format of a session that begins with a format or without one. -/
def settled (format : Option Format) (before : Trace) : Format :=
  format.getD (formatFor (version before "rabbitmq-server" "3.8.2").2)

/-- What settles the format goes on as if the format had been settled before. -/
lemma Settles.run_eq {α : Type} {x : Query Recorded α}
    (hx : Settles (Recorded.probing answer version) x) (format : Option Format) (before : Trace) :
    (x.run format).run before = (x.run (some (settled version format before))).run
      (before ++ settling version format before) := by
  cases format with
  | some f =>
      rw [settling, List.append_nil]
      rfl
  | none =>
      rw [hx]
      rfl

/-- The virtual hosts are asked for once, after the format is settled. -/
lemma vhosts_asked (format : Option Format) (before : Trace) :
    ∃ f reply events, ((vhosts (Recorded.probing answer version)).run format).run before =
        ((f.knownVhosts reply, some f), before ++ (settling version format before ++ events)) ∧
      events.versionQueries = [] ∧
      Trace.calls answer (before ++ settling version format before) events =
        [(listVhosts ++ f.flags, reply)] := by
  have hends : Ends answer (vhosts (Recorded.probing answer version))
      (settled version format before) (before ++ settling version format before) _ :=
    ends_vhosts version
  obtain ⟨_, events, hrun, hqueries, reply, hcalls, rfl⟩ := hends
  refine ⟨_, reply, events, ?_, hqueries, hcalls⟩
  rw [Settles.run_eq answer version settles_vhosts, hrun, List.append_assoc]

end Query

/-! ### Runs -/

variable {f : Format} {before : Trace}

/-- Every question is told as it should be, whatever happened before. -/
lemma Question.told_ask (q : Question) :
    Query.Ends answer (q.ask (Recorded.probing answer version)) f before fun reply calls =>
      q.Told f calls reply := by
  cases q with
  | supportsJson => exact ⟨_, [], by rw [List.append_nil]; rfl, rfl, .supportsJson⟩
  | vhosts =>
      refine (Query.ends_vhosts version).map fun names calls h => ?_
      obtain ⟨reply, rfl, rfl⟩ := h
      exact .vhosts reply
  | tryVhosts =>
      refine (Query.ends_tryVhosts version).map fun result calls h => ?_
      obtain ⟨reply, rfl, rfl⟩ := h
      exact .tryVhosts reply
  | policies => exact (Query.ends_policies version).map fun _ _ htold => htold
  | tryPoliciesIn vhost =>
      refine (Query.ends_tryPoliciesIn version vhost).map fun result calls h => ?_
      obtain ⟨reply, rfl, rfl⟩ := h
      exact .tryPoliciesIn vhost reply

/-- What one question leaves open for the next is kept along the series. -/
lemma Question.session_askAll (qs : List Question) :
    Query.Ends answer (askAll (Recorded.probing answer version) qs) f before fun replies calls =>
      Session f qs calls replies := by
  induction qs generalizing before with
  | nil => exact Query.Ends.pure .nil
  | cons q qs ih =>
      refine (q.told_ask answer version).bind fun reply calls before htold => ?_
      refine ih.bind fun replies calls' _ hmore => Query.Ends.pure ?_
      rw [List.append_nil]
      exact .cons htold hmore

/-- **A session settles its format once**: a series of questions asks for the version of the broker
first and only once, whatever the probe does to answer. If the answer is that it is the first
version with documents or a later one, all calls of the series ask for documents and all answers are
read as documents; else all calls are plain and all answers are read as tables. -/
theorem askAll_settled (t : Trace) (q : Question) (qs : List Question) :
    let compared := (version t "rabbitmq-server" "3.8.2").2
    let asked := t ++ .versionQuery "rabbitmq-server" "3.8.2" ::
      (version t "rabbitmq-server" "3.8.2").1
    ∃ f replies events,
      (f = .json ↔ compared = .ok .eq ∨ compared = .ok .gt) ∧
      ((Question.askAll (Recorded.probing answer version) (q :: qs)).run none).run t =
        ((replies, some f), asked ++ events) ∧
      events.versionQueries = [] ∧ (∀ c ∈ events.commands, f.Asks c) ∧
      Session f (q :: qs) (Trace.calls answer asked events) replies := by
  intro compared asked
  have hends : Query.Ends answer (Question.askAll (Recorded.probing answer version) (q :: qs))
      (Query.formatFor compared) asked _ := Question.session_askAll answer version (q :: qs)
  obtain ⟨replies, events, hrun, hqueries, hsession⟩ := hends
  refine ⟨Query.formatFor compared, replies, events, ?_, ?_, hqueries, ?_, hsession⟩
  · exact Query.formatFor_eq_json_iff
  · -- the first question settles the format; from there on the series runs as one that began with
    -- it
    have hsettles : Query.Settles (Recorded.probing answer version) (Question.askAll _ (q :: qs)) :=
      (Query.settles_ask q).bind _
    rw [hsettles]
    exact hrun
  · intro c hc
    rw [← Trace.map_fst_calls answer asked] at hc
    obtain ⟨call, hcall, rfl⟩ := List.mem_map.1 hc
    exact hsession.asks call hcall

end

end BrokerPolicy
