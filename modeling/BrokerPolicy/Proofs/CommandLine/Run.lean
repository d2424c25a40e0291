import BrokerPolicy.CommandLine.Run
import BrokerPolicy.Proofs.Batch.Task
import BrokerPolicy.Proofs.Config.Identity

/-!
What a run of the command line does to the broker, and what its exit code tells.

Loading makes no changes (`inquires_load`) and repeats no identity (`pairwise_of_load`). A run that
does a task with all that is loaded is `Settled`: the outcomes of the policies decide its exit code
(`settled_outcomes`), unless nothing is loaded (`settled_error`). A run that renders is `Printed`.
-/

namespace BrokerPolicy

/-- Reads files, which may change while things happen. -/
def Recorded.reader (files : Trace → String → FileContent) : CommandLine.FileReader Recorded :=
  fun path => do return files (← get) path

/-- The host of the command line, in a world where commands are answered like this. -/
abbrev Recorded.console (answer : Trace → Command → Except CommandFailure String)
    (statusTool : Bool) : Host Recorded :=
  CommandLine.host (runner answer) log statusTool

open Recorded

variable {answer : Trace → Command → Except CommandFailure String} {statusTool : Bool}

/-! ### Loading -/

/-- The console runs commands of its own only to inquire or to show a status. -/
lemma discreet_console (answer : Trace → Command → Except CommandFailure String)
    (statusTool : Bool) : (console answer statusTool).Discreet answer where
  run := rfl
  compareVersion := inquires_compareInstalled
  setStatus state message := by
    cases statusTool with
    | false => exact Inquires.log _
    | true =>
        refine (Inquires.runner rfl).bind fun reply => ?_
        cases reply with
        | ok output => exact Inquires.pure _
        | error failure => exact Inquires.log _
  log := Inquires.log

namespace CommandLine

variable {files : Trace → String → FileContent} {source : Source} {t : Trace}

/-- Reading a file runs no command. -/
lemma inquires_reader (path : String) : Inquires answer (reader files path) :=
  fun t => ⟨[], (List.append_nil t).symm, rfl⟩

lemma inquires_readRelation (path : Option String) :
    Inquires answer (readRelation (reader files) path) := by
  cases path with
  | none => exact Inquires.pure _
  | some path => exact (inquires_reader path).bind fun _ => Inquires.pure _

/-- Loading a source changes nothing on the broker. -/
lemma inquires_load (source : Source) :
    Inquires answer (load (reader files) (console answer statusTool) source) := by
  refine (inquires_readRelation source.relation).bind fun relation => ?_
  cases relation with
  | error e => exact Inquires.pure _
  | ok relation =>
      refine (inquires_reader source.path).bind fun file => ?_
      exact (Policy.inquires_loadPolicies (discreet_console answer statusTool)
        source.path file relation none).map _

/-- No two policies that are loaded have the same identity. -/
lemma pairwise_of_load {host : Host Recorded} {ps : List Policy}
    (h : ((load (reader files) host source).run t).1 = .ok ps) :
    ps.Pairwise (·.key ≠ ·.key) := by
  rw [load, StateT.run_bind] at h
  rcases hrelation : (readRelation (reader files) source.relation).run t with ⟨relation, t'⟩
  rw [hrelation] at h
  cases relation with
  | error e => cases h
  | ok relation => exact Policy.pairwise_of_loadPolicies host none t' h

/-! ### Runs -/

/-- How a run ends that does a task with all the policies of a source: by what was loaded and all
that had happened by then, with the exit code and the calls that may have changed the broker. -/
structure Settled (task : Task answer) (loading : Except PolicyError (List Policy) × Trace)
    (exitCode : UInt8) (calls : List Call) : Prop where
  /-- The task is all that is done. -/
  only : ∀ call ∈ calls, [brokerTool, task.subcommand] <+: call.1
  /-- No command is run twice. -/
  once : (calls.map Prod.fst).Nodup
  /-- A command is run for every policy that passes the check and has one, in order. -/
  attempted : ∀ ps, loading.1 = .ok ps → calls.map Prod.fst =
    ((turns task.act loading.2 ps).filter task.passes).filterMap fun turn =>
      (task.command turn.policy).toOption
  /-- Everything was loaded, run and answered well. -/
  exit_zero : exitCode = 0 ↔ ∃ ps, loading.1 = .ok ps ∧
    ps.map task.command = calls.map (.ok ·.1) ∧ ∀ call ∈ calls, ∃ output, call.2 = .ok output
  /-- Nothing was loaded. -/
  exit_one : exitCode = 1 ↔ ∃ e, loading.1 = .error e
  /-- Some policy was declined, is malformed or failed. -/
  exit_two : exitCode = 2 ↔ ∃ ps, loading.1 = .ok ps ∧
    ((∃ turn ∈ turns task.act loading.2 ps,
        task.passes turn = false ∨ ∃ e, task.command turn.policy = .error e) ∨
      ∃ call ∈ calls, ∃ failure, call.2 = .error failure)

variable {task : Task answer}

lemma inquires_fail (e : PolicyError) : Inquires answer (fail (console answer statusTool) e) :=
  (Inquires.log _).bind fun _ => Inquires.pure _

/-- A source that cannot be loaded settles the run with exit code one, before anything is tried. -/
lemma settled_error {loading : Except PolicyError (List Policy) × Trace} {e : PolicyError}
    (he : loading.1 = .error e) : Settled task loading 1 [] where
  only call hcall := absurd hcall List.not_mem_nil
  once := List.nodup_nil
  attempted ps h := by
    rw [he] at h
    cases h
  exit_zero := by simp [he]
  exit_one := iff_of_true rfl ⟨e, he⟩
  exit_two := by simp [he]

/-- The outcomes of the policies settle a run: they are counted, and their calls are made. -/
lemma settled_outcomes {loading : Except PolicyError (List Policy) × Trace} {ps : List Policy}
    {outcomes : List BrokerPolicy.Outcome} (hps : loading.1 = .ok ps)
    (hkeys : ps.Pairwise (·.key ≠ ·.key))
    (h : task.EndWith (turns task.act loading.2 ps) outcomes) :
    Settled task loading (if outcomes.countP (·.output?.isNone) = 0 then 0 else 2)
      (outcomes.filterMap BrokerPolicy.Outcome.call?) := by
  obtain ⟨loaded, start⟩ := loading
  obtain rfl : loaded = .ok ps := hps
  have hcommands := Task.map_fst_calls h
  have hpolicies := map_policy_turns task.act start ps
  have hmap := Task.map_command_eq_iff hcommands
  rw [hpolicies, List.map_map, Function.comp_def] at hmap
  -- the exit code is two exactly if some outcome is no success
  have hfailure : outcomes.countP (·.output?.isNone) ≠ 0 ↔ ∃ o ∈ outcomes, o.output? = none := by
    rw [← Nat.pos_iff_ne_zero, List.countP_pos_iff]
    simp only [Option.isNone_iff_eq_none]
  rw [Task.exists_not_succeeded_iff h] at hfailure
  -- from here on only whether the count is zero matters
  generalize outcomes.countP (·.output?.isNone) = n at hfailure
  have hzero : (if n = 0 then 0 else 2 : UInt8) = 0 ↔ ¬n ≠ 0 := by
    split <;> simp_all
  have htwo : (if n = 0 then 0 else 2 : UInt8) = 2 ↔ n ≠ 0 := by
    split <;> simp_all
  exact {
    only := by
      intro call hcall
      have hmem : call.1 ∈ (outcomes.filterMap BrokerPolicy.Outcome.call?).map Prod.fst :=
        List.mem_map_of_mem hcall
      rw [hcommands] at hmem
      obtain ⟨turn, -, hcommand⟩ := List.mem_filterMap.1 hmem
      exact task.named _ _ (Results.toOption_eq_some_iff.1 hcommand)
    once := by
      rw [hcommands]
      refine Task.nodup_commands ?_
      rwa [hpolicies]
    attempted := by
      intro ps' hps'
      obtain rfl := Except.ok.inj hps'
      exact hcommands
    exit_zero := by
      rw [hzero, hfailure, not_or, ← hmap]
      simp [Results.exists_eq_error_iff]
    exit_one := by
      refine iff_of_false ?_ fun ⟨e, he⟩ => by cases he
      split <;> decide
    exit_two := by
      rw [htwo, hfailure]
      simp }

/-- A run that does a task with all policies that are loaded is settled. -/
lemma exists_settled (task : Task answer) (statusTool : Bool) (verb : String)
    {loading : Recorded (Except PolicyError (List Policy))} (hloading : Inquires answer loading)
    (hkeys : ∀ ps, (loading.run t).1 = .ok ps → ps.Pairwise (·.key ≠ ·.key)) :
    let x : Recorded Outcome := do
      match ← loading with
      | .error e => fail (console answer statusTool) e
      | .ok ps => report (console answer statusTool) verb (← Policy.forAll task.act {} ps)
    ∃ calls, Changes answer x t calls ∧ ((x.run t).1.exitCode = 1 → calls = []) ∧
      Settled task (loading.run t) (x.run t).1.exitCode calls := by
  intro x
  -- loading only inquires, so all changes are made by the task, if it gets to it
  cases hloaded : (loading.run t).1 with
  | error e =>
      refine ⟨[], hloading.bind_changes ?_, fun _ => rfl, ?_⟩
      · rw [hloaded]
        exact inquires_fail e _
      · rw [fst_run_bind, hloaded]
        exact settled_error hloaded
  | ok ps =>
      obtain ⟨outcomes, hfits, hcount, hchanges⟩ := task.exists_outcomes {} (loading.run t).2 ps
      have hcode : (x.run t).1.exitCode =
          if outcomes.countP (·.output?.isNone) = 0 then 0 else 2 := by
        rw [fst_run_bind, hloaded, ← Nat.zero_add (outcomes.countP _), ← hcount]
        rfl
      refine ⟨outcomes.filterMap BrokerPolicy.Outcome.call?, hloading.bind_changes ?_, ?_, ?_⟩
      · rw [hloaded]
        exact hchanges.bind_inquires fun _ => (Inquires.log _).bind fun _ => Inquires.pure _
      · intro hone
        rw [hcode] at hone
        split at hone <;> cases hone
      · rw [hcode]
        exact settled_outcomes hloaded (hkeys ps hloaded) hfits

/-- How a run ends that prints the commands of the policies of a source, by what was loaded. -/
inductive Printed (loaded : Except PolicyError (List Policy)) : Outcome → Prop
  /-- The commands of all policies are printed, one on a line. -/
  | all {ps : List Policy} {cs : List Command} (hloaded : loaded = .ok ps)
    (hcommands : ps.map Policy.setCommand = cs.map .ok) : Printed loaded {
      exitCode := 0
      stdout := String.join (cs.map fun c => " ".intercalate c ++ "\n") }
  /-- Something could not be loaded or has no command, and nothing is printed. -/
  | none (h : ¬∃ (ps : List Policy) (cs : List Command), loaded = .ok ps ∧
      ps.map Policy.setCommand = cs.map .ok) : Printed loaded { exitCode := 1 }

/-- A run that renders what is loaded makes no changes, and prints it if it can. -/
lemma inquires_printed (statusTool : Bool)
    {loading : Recorded (Except PolicyError (List Policy))} (hloading : Inquires answer loading) :
    let x : Recorded Outcome := do
      match ← loading with
      | .error e => fail (console answer statusTool) e
      | .ok ps =>
        match Policy.renderAll ps with
        | .error e => fail (console answer statusTool) e
        | .ok commands => return { exitCode := 0, stdout := commandLines commands }
    Inquires answer x ∧ Printed (loading.run t).1 (x.run t).1 := by
  constructor
  · refine hloading.bind fun loaded => ?_
    cases loaded with
    | error e => exact inquires_fail e
    | ok ps =>
        dsimp only
        cases Policy.renderAll ps with
        | error e => exact inquires_fail e
        | ok commands => exact Inquires.pure _
  · rw [fst_run_bind]
    cases hloaded : (loading.run t).1 with
    | error e => exact .none fun ⟨ps, cs, h, _⟩ => by cases h
    | ok ps =>
        dsimp only
        cases hrender : Policy.renderAll ps with
        | error e =>
            refine .none ?_
            rintro ⟨ps', cs, h, hcs⟩
            obtain rfl := Except.ok.inj h
            rw [← Policy.renderAll_eq_ok_iff, hrender] at hcs
            cases hcs
        | ok cs => exact .all rfl (Policy.renderAll_eq_ok_iff.1 hrender)

/-- **Exit codes tell what was done**: whatever the files hold and whatever commands answer, a run
that applies or clears the policies of a source settles them, and its only changes are the calls
that set or clear them. A run that renders prints the commands of all policies or fails, and makes
no changes; neither does a run that lists, which never fails. A run that ends with 1 has changed
nothing. -/
theorem run_exitCode (answer : Trace → Command → Except CommandFailure String)
    (files : Trace → String → FileContent) (t : Trace) {arguments : List String}
    {statusTool : Bool} {action : Action}
    (h : Request.parse? arguments = some (.run statusTool action)) :
    let x := CommandLine.run (reader files) (runner answer) log arguments
    let outcome := (x.run t).1
    let loading source := (load (reader files) (console answer statusTool) source).run t
    ∃ calls, Changes answer x t calls ∧ (outcome.exitCode = 1 → calls = []) ∧
      match action with
      | .apply source =>
        Settled (.setting (discreet_console answer statusTool)) (loading source) outcome.exitCode
          calls
      | .clear source =>
        Settled (.clearing (discreet_console answer statusTool)) (loading source) outcome.exitCode
          calls
      | .render source => calls = [] ∧ Printed (loading source).1 outcome
      | .list => calls = [] ∧ outcome.exitCode = 0 := by
  intro x outcome loading
  -- the arguments are those of the action, and nothing else is looked at
  have hx : x = perform (reader files) (console answer statusTool) action := by
    simp only [x, CommandLine.run, h]
  clear_value x
  subst hx
  cases action with
  | apply source =>
      exact exists_settled (.setting (discreet_console answer statusTool)) statusTool "applied"
        (inquires_load source) fun ps hloaded => pairwise_of_load hloaded
  | clear source =>
      exact exists_settled (.clearing (discreet_console answer statusTool)) statusTool "cleared"
        (inquires_load source) fun ps hloaded => pairwise_of_load hloaded
  | render source =>
      obtain ⟨hchanges, hprinted⟩ := inquires_printed statusTool (inquires_load source)
      exact ⟨[], hchanges t, fun _ => rfl, rfl, hprinted⟩
  | list =>
      have hlisting : Inquires answer ((Query.policies (console answer statusTool)).run' none) :=
        (Query.inquires_policies (discreet_console answer statusTool) none).map _
      exact ⟨[], (hlisting.bind fun _ => Inquires.pure _) t, fun _ => rfl, rfl, rfl⟩

/-- A file with a mirroring and an expiry; there is no other file. -/
def sampleFiles (_ : Trace) (path : String) : FileContent :=
  if path = "p" then .ok (Text.Utf8.encode
    ("version: 1\npolicies:\n- \x7bvhost: /, name: mirror, pattern: '^', type: ha\x7d\n" ++
      "- \x7bvhost: /, name: expiry, pattern: '^', type: ttl\x7d").toList)
  else .error "No such file or directory (os error 2)"

/-- A system without a package database. -/
def sampleAnswer (_ : Trace) : Command → Except CommandFailure String
  | "dpkg-query" :: _ => .error (.notRun "dpkg-query" "No such file or directory (os error 2)")
  | _ => .ok ""

/-- The mirroring is declined and the expiry set; where no file is found nothing is cleared. -/
theorem run_exitCode_sample :
    Request.parse? ["apply", "p"] = some (.run false (.apply { path := "p" })) ∧
      Request.parse? ["clear", "q"] = some (.run false (.clear { path := "q" })) ∧
      ((run (reader sampleFiles) (runner sampleAnswer) log ["apply", "p"]).run []).1.exitCode = 2 ∧
      ((run (reader sampleFiles) (runner sampleAnswer) log ["clear", "q"]).run []).1.exitCode = 1 ∧
      (∃ calls,
        Changes sampleAnswer (run (reader sampleFiles) (runner sampleAnswer) log ["apply", "p"]) []
          calls ∧
        Settled (.setting (discreet_console sampleAnswer false))
          ((load (reader sampleFiles) (console sampleAnswer false) { path := "p" }).run [])
          ((run (reader sampleFiles) (runner sampleAnswer) log ["apply", "p"]).run []).1.exitCode
          calls ∧
        calls.map (fun call => (call.1.take 5, call.2.isOk)) =
          [(["rabbitmqctl", "set_policy", "-p", "/", "expiry"], true)]) ∧
      Changes sampleAnswer (run (reader sampleFiles) (runner sampleAnswer) log ["clear", "q"]) []
        [] := by
  have happly : Request.parse? ["apply", "p"] = some (.run false (.apply { path := "p" })) := by
    decide +kernel
  have hclear : Request.parse? ["clear", "q"] = some (.run false (.clear { path := "q" })) := by
    decide +kernel
  obtain ⟨htwo, hone, hset⟩ :
      ((run (reader sampleFiles) (runner sampleAnswer) log ["apply", "p"]).run []).1.exitCode = 2 ∧
      ((run (reader sampleFiles) (runner sampleAnswer) log ["clear", "q"]).run []).1.exitCode = 1 ∧
      (Trace.changes sampleAnswer []
        ((run (reader sampleFiles) (runner sampleAnswer) log ["apply", "p"]).run []).2).map
          (fun call => (call.1.take 5, call.2.isOk)) =
        [(["rabbitmqctl", "set_policy", "-p", "/", "expiry"], true)] := by
    decide +kernel
  refine ⟨happly, hclear, htwo, hone, ?_, ?_⟩
  · obtain ⟨calls, hchanges, -, hsettled⟩ := run_exitCode sampleAnswer sampleFiles [] happly
    refine ⟨calls, hchanges, hsettled, ?_⟩
    obtain ⟨events, hevents, rfl⟩ := hchanges
    rw [hevents, List.nil_append] at hset
    exact hset
  · obtain ⟨calls, hchanges, hnothing, -⟩ := run_exitCode sampleAnswer sampleFiles [] hclear
    rwa [hnothing hone] at hchanges

end CommandLine

end BrokerPolicy
