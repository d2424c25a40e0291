import BrokerPolicy.Broker
import BrokerPolicy.Proofs.Batch.Account
import BrokerPolicy.Proofs.Host.Inquiry
import BrokerPolicy.Proofs.Results

/-!
What a batch changes.

On a host that runs commands of its own only to inquire, a policy still has one outcome in its turn,
and the call that goes with the outcome is the only change (`exists_outcome_apply`,
`exists_outcome_clear`). This makes setting and clearing a `Task`, and the outcomes of a whole batch
follow by induction (`Task.exists_outcomes`). Its calls are those of the policies that pass the
check and have a command (`map_fst_calls`), all of them have a call if none is declined or malformed
(`map_command_eq_iff`), and none has two (`nodup_commands`).
-/

namespace BrokerPolicy

open Recorded

variable {answer : Trace → Command → Except CommandFailure String}

/-! ### Outcomes -/

namespace Outcome.Fits

variable {passes : Bool} {command : Except PolicyError Command} {o : Outcome}

/-- The command that is called is that of the policy, provided that it passes. -/
lemma map_fst_call? (h : o.Fits passes command) :
    o.call?.map Prod.fst = if passes then command.toOption else none := by
  cases o with
  | declined =>
      obtain rfl : passes = false := h
      rfl
  | malformed e | failed c failure | succeeded c output =>
      obtain ⟨rfl, rfl⟩ := h
      rfl

/-- What is no success is declined or malformed, or its call fails. -/
lemma output?_eq_none_iff (h : o.Fits passes command) :
    o.output? = none ↔ (passes = false ∨ ∃ e, command = .error e) ∨
      ∃ c failure, o.call? = some (c, .error failure) := by
  cases o with
  | declined => exact iff_of_true rfl (.inl (.inl h))
  | malformed e => exact iff_of_true rfl (.inl (.inr ⟨e, h.2⟩))
  | failed c failure => exact iff_of_true rfl (.inr ⟨c, failure, rfl⟩)
  | succeeded c output =>
      obtain ⟨rfl, rfl⟩ := h
      simp [output?, call?]

end Outcome.Fits

/-- A call failed among the outcomes exactly if one of their calls has an error as its answer. -/
lemma Outcome.exists_failed_iff {outcomes : List Outcome} :
    (∃ o ∈ outcomes, ∃ c failure, o.call? = some (c, .error failure)) ↔
      ∃ call ∈ outcomes.filterMap call?, ∃ failure, call.2 = .error failure := by
  constructor
  · rintro ⟨o, ho, c, failure, hcall⟩
    exact ⟨(c, .error failure), List.mem_filterMap.2 ⟨o, ho, hcall⟩, failure, rfl⟩
  · rintro ⟨⟨c, reply⟩, hmem, failure, rfl⟩
    obtain ⟨o, ho, hcall⟩ := List.mem_filterMap.1 hmem
    exact ⟨o, ho, c, failure, hcall⟩

/-! ### Turns -/

/-- The command of a policy, if there is one, is run and its answer decides what becomes of it. -/
lemma exists_outcome_runCommand {host : Host Recorded} (hhost : host.Discreet answer)
    {command : Except PolicyError Command} (h : ∀ c, command = .ok c → isInquiry c = false)
    (t : Trace) : ∃ o : Outcome, o.Fits true command ∧
      ((Policy.runCommand host command).run t).1.toOption = o.output? ∧
      Changes answer (Policy.runCommand host command) t o.call?.toList := by
  cases command with
  | error e => exact ⟨.malformed e, ⟨rfl, rfl⟩, rfl, Inquires.pure _ t⟩
  | ok c =>
      -- the command is no inquiry, so it counts as a change, whatever the answer
      have hchanges : Changes answer (Policy.runCommand host (.ok c)) t [(c, answer t c)] := by
        rw [Policy.runCommand, hhost.run]
        refine (Changes.runner (h c rfl) t).bind_inquires fun reply => ?_
        cases reply <;> exact Inquires.pure _
      rw [Operation.runCommand_run answer hhost.run c t]
      cases hanswer : answer t c with
      | error failure =>
          rw [hanswer] at hchanges
          exact ⟨.failed c failure, ⟨rfl, rfl⟩, rfl, hchanges⟩
      | ok output =>
          rw [hanswer] at hchanges
          exact ⟨.succeeded c output, ⟨rfl, rfl⟩, rfl, hchanges⟩

/-- What sets a policy is a call of `set_policy`. -/
lemma prefix_of_setCommand {p : Policy} {c : Command} (h : p.setCommand = .ok c) :
    [brokerTool, "set_policy"] <+: c := by
  rw [Policy.setCommand] at h
  split at h
  · cases h
  · cases h
  · obtain ⟨rfl, -⟩ := passable_eq_ok_iff.1 h
    exact ⟨_, rfl⟩

/-- What clears a policy is a call of `clear_policy`. -/
lemma prefix_of_clearCommand {p : Policy} {c : Command} (h : p.clearCommand = .ok c) :
    [brokerTool, "clear_policy"] <+: c := by
  obtain ⟨rfl, -⟩ := passable_eq_ok_iff.1 h
  exact ⟨_, rfl⟩

lemma isInquiry_of_setCommand {p : Policy} {c : Command} (h : p.setCommand = .ok c) :
    isInquiry c = false := by
  obtain ⟨arguments, rfl⟩ := prefix_of_setCommand h
  rfl

lemma isInquiry_of_clearCommand {p : Policy} {c : Command} (h : p.clearCommand = .ok c) :
    isInquiry c = false := by
  obtain ⟨arguments, rfl⟩ := prefix_of_clearCommand h
  rfl

/-- To try to set a policy gives it one outcome, whose call is the only change. -/
lemma exists_outcome_tryApply {host : Host Recorded} (hhost : host.Discreet answer) (p : Policy)
    (t : Trace) : ∃ o : Outcome, o.Fits ((p.check host).run t).1 p.setCommand ∧
      ((p.tryApply host).run t).1.toOption.join = o.output? ∧
      Changes answer (p.tryApply host) t o.call?.toList := by
  have hcheck := Policy.inquires_check hhost p
  rw [Policy.tryApply, fst_run_bind]
  cases hpassed : ((p.check host).run t).1 with
  | false =>
      refine ⟨.declined, rfl, rfl, hcheck.bind_changes ?_⟩
      rw [hpassed]
      exact Inquires.pure _ _
  | true =>
      -- past the check there is an entry in the log and then the command
      obtain ⟨o, hfits, houtput, hchanges⟩ := exists_outcome_runCommand hhost
        (fun _ => isInquiry_of_setCommand)
        ((host.log (p.announcement "Setting")).run ((p.check host).run t).2).2
      refine ⟨o, hfits, ?_, hcheck.bind_changes ?_⟩
      · rw [if_pos rfl, fst_run_bind, fst_run_bind, ← houtput]
        cases ((Policy.runCommand host p.setCommand).run
          ((host.log (p.announcement "Setting")).run ((p.check host).run t).2).2).1 <;> rfl
      · rw [hpassed]
        exact (hhost.log _).bind_changes (hchanges.bind_inquires fun _ => Inquires.pure _)

/-- Setting a policy makes the call that goes with its outcome. -/
lemma exists_outcome_apply {host : Host Recorded} (hhost : host.Discreet answer) (p : Policy)
    (t : Trace) : ∃ o : Outcome, o.Fits ((p.check host).run t).1 p.setCommand ∧
      ((p.apply host).run t).1 = o.output? ∧ Changes answer (p.apply host) t o.call?.toList := by
  obtain ⟨o, hfits, houtput, hchanges⟩ := exists_outcome_tryApply hhost p t
  refine ⟨o, hfits, ?_, hchanges.bind_inquires fun result => ?_⟩
  · rw [Policy.apply, fst_run_bind, ← houtput]
    obtain e | _ | output := ((p.tryApply host).run t).1 <;> rfl
  · obtain e | _ | output := result
    · exact (Policy.inquires_reportFailure hhost p e _).bind fun _ => Inquires.pure _
    · exact Inquires.pure _
    · exact (hhost.log _).bind fun _ => Inquires.pure _

/-- Clearing a policy makes the call that goes with its outcome. -/
lemma exists_outcome_clear {host : Host Recorded} (hhost : host.Discreet answer) (p : Policy)
    (t : Trace) : ∃ o : Outcome, o.Fits true p.clearCommand ∧
      ((p.clear host).run t).1 = o.output? ∧ Changes answer (p.clear host) t o.call?.toList := by
  obtain ⟨o, hfits, houtput, hchanges⟩ := exists_outcome_runCommand hhost
    (fun _ => isInquiry_of_clearCommand) ((host.log (p.announcement "Clearing")).run t).2
  refine ⟨o, hfits, ?_, ?_⟩
  · rw [Policy.clear, Policy.tryClear, bind_assoc, fst_run_bind, fst_run_bind, ← houtput]
    cases ((Policy.runCommand host p.clearCommand).run
      ((host.log (p.announcement "Clearing")).run t).2).1 <;> rfl
  · refine ((hhost.log _).bind_changes hchanges).bind_inquires fun result => ?_
    cases result with
    | error e => exact (Policy.inquires_reportFailure hhost p e _).bind fun _ => Inquires.pure _
    | ok output => exact (hhost.log _).bind fun _ => Inquires.pure _

/-! ### Tasks -/

/-- What a command line does with every policy that it loads. -/
structure Task (answer : Trace → Command → Except CommandFailure String) where
  act : Policy → Recorded (Option String)
  /-- Whether the broker can take a policy. -/
  check : Policy → Recorded Bool
  command : Policy → Except PolicyError Command
  /-- What the broker's tool is told to do. -/
  subcommand : String
  /-- The call that goes with the outcome is the only change. -/
  turn : ∀ p t, ∃ o : Outcome, o.Fits ((check p).run t).1 (command p) ∧
    ((act p).run t).1 = o.output? ∧ Changes answer (act p) t o.call?.toList
  named : ∀ p c, command p = .ok c → [brokerTool, subcommand] <+: c
  /-- Policies with the same command have the same identity. -/
  own : ∀ p q c, command p = .ok c → command q = .ok c → p.key = q.key

lemma Tally.notApplied_count (t : Tally) (r : Option String) :
    (t.count r).notApplied = t.notApplied + if r.isNone then 1 else 0 := by
  cases r <;> rfl

namespace Task

/-- Setting policies. -/
def setting {host : Host Recorded} (hhost : host.Discreet answer) : Task answer where
  act p := p.apply host
  check p := p.check host
  command := Policy.setCommand
  subcommand := "set_policy"
  turn := exists_outcome_apply hhost
  named _ _ := prefix_of_setCommand
  own p q c hp hq := by
    obtain ⟨pattern, definition, -, -, hset⟩ := Edit.ofCommand?_of_setCommand hp
    obtain ⟨pattern', definition', -, -, hset'⟩ := Edit.ofCommand?_of_setCommand hq
    exact (Edit.set.inj (Option.some.inj (hset.symm.trans hset'))).1

/-- Clearing policies. -/
def clearing {host : Host Recorded} (hhost : host.Discreet answer) : Task answer where
  act p := p.clear host
  check _ := return true
  command := Policy.clearCommand
  subcommand := "clear_policy"
  turn := exists_outcome_clear hhost
  named _ _ := prefix_of_clearCommand
  own p q c hp hq := by
    have hclear := Edit.ofCommand?_of_clearCommand hp
    have hclear' := Edit.ofCommand?_of_clearCommand hq
    exact Edit.clear.inj (Option.some.inj (hclear.symm.trans hclear'))

variable (task : Task answer)

/-- A policy passes the check when its turn comes. -/
def passes (turn : Turn) : Bool :=
  ((task.check turn.policy).run turn.start).1

/-- Turns have these outcomes, each one that fits. -/
abbrev EndWith (ts : List Turn) (outcomes : List Outcome) : Prop :=
  List.Forall₂ (fun turn o => o.Fits (task.passes turn) (task.command turn.policy)) ts outcomes

/-- Every policy has an outcome in its turn. The calls that go with the outcomes are the changes,
and those that are no success are counted. -/
lemma exists_outcomes (tally : Tally) (before : Trace) (ps : List Policy) :
    ∃ outcomes, task.EndWith (turns task.act before ps) outcomes ∧
      ((Policy.forAll task.act tally ps).run before).1.notApplied =
        tally.notApplied + outcomes.countP (·.output?.isNone) ∧
      Changes answer (Policy.forAll task.act tally ps) before
        (outcomes.filterMap Outcome.call?) := by
  induction ps generalizing tally before with
  | nil => exact ⟨[], .nil, rfl, Inquires.pure _ _⟩
  | cons p ps ih =>
      obtain ⟨o, hfits, houtput, hchanges⟩ := task.turn p before
      obtain ⟨outcomes, hall, hcount, hchanges'⟩ :=
        ih (tally.count ((task.act p).run before).1) ((task.act p).run before).2
      -- the turn comes before the others and adds what its outcome does
      refine ⟨o :: outcomes, .cons hfits hall, ?_, ?_⟩
      · rw [Policy.forAll, fst_run_bind, hcount, houtput, Tally.notApplied_count,
          List.countP_cons, Nat.add_assoc, Nat.add_comm (outcomes.countP _)]
      · rw [Policy.forAll, List.filterMap_eq_flatMap_toList, List.flatMap_cons,
          ← List.filterMap_eq_flatMap_toList]
        exact hchanges.bind hchanges'

variable {task} {ts : List Turn} {outcomes : List Outcome}

/-- The calls are those of the policies that pass and have a command. -/
lemma map_fst_calls (h : task.EndWith ts outcomes) :
    (outcomes.filterMap Outcome.call?).map Prod.fst =
      (ts.filter task.passes).filterMap fun turn => (task.command turn.policy).toOption := by
  rw [List.filterMap_filter, List.map_filterMap]
  induction h with
  | nil => rfl
  | cons hfits _ ih => rw [List.filterMap_cons, List.filterMap_cons, hfits.map_fst_call?, ih]

/-- What is no success is declined or malformed, or its call fails. -/
lemma exists_not_succeeded_iff (h : task.EndWith ts outcomes) :
    (∃ o ∈ outcomes, o.output? = none) ↔
      (∃ turn ∈ ts, task.passes turn = false ∨ ∃ e, task.command turn.policy = .error e) ∨
        ∃ call ∈ outcomes.filterMap Outcome.call?, ∃ failure, call.2 = .error failure := by
  rw [← Outcome.exists_failed_iff]
  induction h with
  | nil => simp
  | cons hfits _ ih =>
      rw [List.exists_mem_cons_iff, List.exists_mem_cons_iff, List.exists_mem_cons_iff, ih,
        hfits.output?_eq_none_iff, or_or_or_comm]

/-- All the commands of the policies are run just if no policy is declined or malformed. -/
lemma map_command_eq_iff {cs : List Command}
    (h : cs = (ts.filter task.passes).filterMap fun turn => (task.command turn.policy).toOption) :
    (ts.map Turn.policy).map task.command = cs.map .ok ↔
      ¬∃ turn ∈ ts, task.passes turn = false ∨ ∃ e, task.command turn.policy = .error e := by
  rw [List.map_map]
  constructor
  · rintro hmap ⟨turn, hturn, hdeclined | ⟨e, he⟩⟩
    · -- a policy that is declined has no place among the commands
      have hlength : ts.length = cs.length := by
        simpa using congrArg List.length hmap
      have hle : cs.length ≤ (ts.filter task.passes).length := by
        rw [h]
        exact List.length_filterMap_le _ _
      have hlt : (ts.filter task.passes).length < ts.length :=
        List.length_filter_lt_length_iff_exists.2 ⟨turn, hturn, by simp [hdeclined]⟩
      omega
    · -- a policy without a command would have an error in a list of commands
      have hmem : Except.error e ∈ cs.map Except.ok := by
        rw [← hmap, ← he]
        exact List.mem_map.2 ⟨turn, hturn, rfl⟩
      obtain ⟨c, -, hc⟩ := List.mem_map.1 hmem
      cases hc
  · intro hnone
    have hall (turn : Turn) (hturn : turn ∈ ts) : task.passes turn = true ∧
        ∃ c, task.command turn.policy = .ok c := by
      constructor
      · rw [← Bool.not_eq_false]
        exact fun hdeclined => hnone ⟨turn, hturn, .inl hdeclined⟩
      · by_contra hno
        exact hnone ⟨turn, hturn, .inr (Results.exists_eq_error_iff.2 hno)⟩
    -- where nothing is declined or malformed, neither the filter nor the selection leaves anything
    -- out
    rw [h, List.filter_eq_self.2 fun turn hturn => (hall turn hturn).1, List.map_filterMap,
      ← List.filterMap_eq_map]
    refine List.filterMap_congr fun turn hturn => ?_
    obtain ⟨-, c, hc⟩ := hall turn hturn
    rw [Function.comp_apply, Function.comp_apply, hc]
    rfl

/-- No command is run twice for policies of different identities. -/
lemma nodup_commands (h : (ts.map Turn.policy).Pairwise (·.key ≠ ·.key)) :
    ((ts.filter task.passes).filterMap fun turn => (task.command turn.policy).toOption).Nodup := by
  rw [List.Nodup, List.pairwise_filterMap]
  refine ((List.pairwise_map.1 h).sublist List.filter_sublist).imp ?_
  rintro turn turn' hne c hc c' hc' rfl
  rw [Results.toOption_eq_some_iff] at hc hc'
  exact hne (task.own _ _ c hc hc')

end Task

/-- Every policy has its turn, in order. -/
lemma map_policy_turns (act : Policy → Recorded (Option String)) (before : Trace)
    (ps : List Policy) : (turns act before ps).map Turn.policy = ps := by
  induction ps generalizing before with
  | nil => rfl
  | cons p ps ih => rw [turns, List.map_cons, ih]

end BrokerPolicy
