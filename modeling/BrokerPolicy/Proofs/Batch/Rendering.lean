import BrokerPolicy.Proofs.Batch.Account
import BrokerPolicy.Proofs.Results

/-!
Rendering a list and carrying it out.

Rendering stops at the first policy without a command (`renderAll_eq_error_iff`), setting a list
goes on after it. Where every policy passes the check, the commands that are run are those of the
policies that have one (`commands_of_passing`), so a list that is rendered is carried out as it is
rendered. What becomes of its policies are `outcomes`, of which every one fits its policy, and which
account for the calls and the statuses.
-/

namespace BrokerPolicy

namespace Policy

/-! ### Rendering -/

/-- Rendering fails with the error of the first policy that has no command. -/
lemma renderAll_eq_error_iff {ps : List Policy} {e : PolicyError} :
    renderAll ps = .error e ↔ ∃ qs p rs, ps = qs ++ p :: rs ∧
      (∀ q ∈ qs, ∃ c, q.setCommand = .ok c) ∧ p.setCommand = .error e := by
  induction ps with
  | nil => simp [renderAll]
  | cons p ps ih =>
      rw [renderAll]
      simp only [List.cons_eq_append_iff]
      -- by the first policy: it is the one without a command, or the error lies behind it
      cases hp : p.setCommand with
      | error e' =>
          dsimp only
          constructor
          · intro h
            obtain rfl := Except.error.inj h
            exact ⟨[], p, ps, .inl ⟨rfl, rfl⟩, fun q hq => absurd hq List.not_mem_nil, hp⟩
          · rintro ⟨qs, p', rs, ⟨rfl, h⟩ | ⟨qs', rfl, -⟩, hqs, hp'⟩
            · obtain rfl := (List.cons.inj h).1
              exact congrArg Except.error (Except.error.inj (hp.symm.trans hp'))
            · obtain ⟨c, hc⟩ := hqs p List.mem_cons_self
              rw [hp] at hc
              cases hc
      | ok c =>
          have hmap : (renderAll ps).map (c :: ·) = .error e ↔ renderAll ps = .error e := by
            cases renderAll ps <;> simp [Except.map]
          dsimp only
          rw [hmap, ih]
          constructor
          · rintro ⟨qs, p', rs, h, hqs, hp'⟩
            exact ⟨p :: qs, p', rs, .inr ⟨qs, rfl, h⟩, List.forall_mem_cons.2 ⟨⟨c, hp⟩, hqs⟩, hp'⟩
          · rintro ⟨qs, p', rs, ⟨rfl, h⟩ | ⟨qs', rfl, h⟩, hqs, hp'⟩
            · obtain rfl := (List.cons.inj h).1
              rw [hp] at hp'
              cases hp'
            · exact ⟨qs', p', rs, h, (List.forall_mem_cons.1 hqs).2, hp'⟩

/-- Rendering fails if some policy has no command. -/
lemma exists_renderAll_eq_error_iff {ps : List Policy} :
    (∃ e, renderAll ps = .error e) ↔ ∃ p ∈ ps, ∃ e, p.setCommand = .error e := by
  induction ps with
  | nil => simp [renderAll]
  | cons p ps ih =>
      rw [renderAll]
      cases hp : p.setCommand with
      | error e => simp [hp]
      | ok c =>
          have hmap : (∃ e, (renderAll ps).map (c :: ·) = .error e) ↔
              ∃ e, renderAll ps = .error e := by
            cases renderAll ps <;> simp [Except.map]
          simpa [hp, hmap] using ih

/-- The commands of a list that is rendered are what is rendered. -/
lemma filterMap_of_renderAll {ps : List Policy} {cs : List Command} (h : renderAll ps = .ok cs) :
    ps.filterMap (·.setCommand.toOption) = cs := by
  have hmap := renderAll_eq_ok_iff.1 h
  calc ps.filterMap (·.setCommand.toOption) = (ps.map setCommand).filterMap Except.toOption := by
        rw [List.filterMap_map]; rfl
    _ = (cs.map .ok).filterMap Except.toOption := by rw [hmap]
    _ = cs := by rw [List.filterMap_map]; exact List.filterMap_some

end Policy

/-! ### Carrying out -/

/-- What becomes of the policies of a list that all pass the check accounts for what happens. -/
structure AllPassed (answer : Trace → Command → Except CommandFailure String)
    (before events : Trace) (ps : List Policy) (outcomes : List Outcome) : Prop where
  /-- Every policy is set, unless it has no command. -/
  fits : List.Forall₂ (fun p o => o.Fits true p.setCommand) ps outcomes
  /-- The calls are those of the policies, and their answers decide what becomes of these. -/
  calls : Trace.calls answer before events = outcomes.filterMap Outcome.call?
  /-- A status is shown for every policy that has no command or a failing one. -/
  statuses : events.statuses = ((ps.zip outcomes).filter fun x => x.2.isFailure).map fun x =>
    (.blocked, x.1.createFailed)

namespace Account

variable {answer : Trace → Command → Except CommandFailure String}
  {version : Trace → (package version : String) → Except PolicyError Ordering}
  {failed : Policy → String} {ps : List Policy} {ts : List Turn} {before events : Trace}
  {tally : Tally}

/-- Where every turn passes, the commands can be told from the list alone. -/
lemma commands_of_passing {op : Operation}
    (h : Account answer op failed ps ts before events tally)
    (hpass : ∀ turn ∈ ts, turn.passes op = true) :
    events.commands = ps.filterMap fun p => (op.command p).toOption := by
  rw [h.commands, List.filter_eq_self.2 hpass, ← h.policies, List.filterMap_map]
  rfl

/-- The calls of a batch are those of its turns: commands and answers go together. -/
lemma calls {op : Operation} (h : Account answer op failed ps ts before events tally) :
    Trace.calls answer before events =
      (ts.map fun turn => op.outcome answer turn.start turn.policy).filterMap Outcome.call? := by
  have hcommands : events.commands =
      (ts.map fun turn => op.outcome answer turn.start turn.policy).filterMap
        Outcome.command? := by
    rw [h.commands, List.filterMap_filter, List.filterMap_map]
    refine List.filterMap_congr fun turn _ => ?_
    exact (Operation.command?_outcome answer op turn.start turn.policy).symm
  have hreplies : Trace.replies answer before events =
      (ts.map fun turn => op.outcome answer turn.start turn.policy).filterMap
        Outcome.reply? := by
    rw [h.replies, List.filterMap_map]
    rfl
  rw [Trace.calls_eq_zip, hcommands, hreplies, Outcome.zip_commands_replies]

/-- Where every turn passes, the outcomes of the turns are those of an `AllPassed`. -/
lemma allPassed
    (h : Account answer (.setting answer version) Policy.createFailed ps ts before events tally)
    (hpass : ∀ turn ∈ ts, turn.passes (.setting answer version) = true) :
    AllPassed answer before events ps
      (ts.map fun turn => (Operation.setting answer version).outcome answer turn.start
        turn.policy) where
  fits := by
    rw [← h.policies, List.forall₂_map_left_iff, List.forall₂_map_right_iff, List.forall₂_same]
    intro turn hturn
    have hfits := Operation.fits_outcome answer (.setting answer version) turn.start turn.policy
    rwa [show ((Operation.check _ turn.policy).run turn.start).1 = true from hpass turn hturn]
      at hfits
  calls := h.calls
  statuses := by
    rw [h.statuses, ← h.policies, List.zip_map', List.filter_map, List.map_map]
    rfl

end Account

/-- **A rehearsal and the performance agree**: rendering is a function of the list alone, and fails
with the error of the first policy that has no command. If every policy passes the check when its
turn comes, setting a list that is rendered runs the commands that are rendered, whatever the runner
answers. Setting any other list runs the commands of the policies that have one, in order, and shows
a status for every policy that has none or whose command fails, and for no other. -/
theorem renderAll_applyAll_agree (answer : Trace → Command → Except CommandFailure String)
    (version : Trace → (package version : String) → Except PolicyError Ordering) (before : Trace)
    (ps : List Policy)
    (hpass : ∀ turn ∈ turns (·.apply (Recorded.host answer version)) before ps,
      turn.passes (.setting answer version) = true) :
    (∀ e, Policy.renderAll ps = .error e ↔ ∃ qs p rs, ps = qs ++ p :: rs ∧
        (∀ q ∈ qs, ∃ c, q.setCommand = .ok c) ∧ p.setCommand = .error e) ∧
      ((∃ e, Policy.renderAll ps = .error e) ↔ ∃ p ∈ ps, ∃ e, p.setCommand = .error e) ∧
      ∃ events outcomes,
        ((Policy.applyAll (Recorded.host answer version) ps).run before).2 = before ++ events ∧
        (∀ cs, Policy.renderAll ps = .ok cs → events.commands = cs) ∧
        events.commands = ps.filterMap (·.setCommand.toOption) ∧
        AllPassed answer before events ps outcomes := by
  refine ⟨fun e => Policy.renderAll_eq_error_iff, Policy.exists_renderAll_eq_error_iff, ?_⟩
  obtain ⟨events, counted, hrun, haccount⟩ := account_forAll answer version
    (Operation.apply_eq_perform answer version) {} before ps
  -- no turn is declined, so what is run does not depend on what was answered
  have hcommands := haccount.commands_of_passing hpass
  refine ⟨events, _, ?_, fun cs hcs => ?_, hcommands, haccount.allPassed hpass⟩
  · rw [Policy.applyAll, hrun]
  · rw [hcommands]
    exact Policy.filterMap_of_renderAll hcs

/-- With that policy the list is not rendered and its place is skipped; without it the list is
carried out as it is rendered. -/
theorem renderAll_applyAll_agree_mixed :
    let version : Trace → (package version : String) → Except PolicyError Ordering :=
      fun _ _ _ => .ok .gt
    let host := Recorded.host coldAnswer version
    let settable := mixedPolicies.eraseIdx 1
    (∀ turn ∈ turns (·.apply host) [] mixedPolicies,
        turn.passes (.setting coldAnswer version) = true) ∧
      (∃ events outcomes, ((Policy.applyAll host mixedPolicies).run []).2 = events ∧
        AllPassed coldAnswer [] events mixedPolicies outcomes ∧
        (∃ e, Policy.renderAll mixedPolicies = .error e) ∧
        events.commands.map (·.take 5) = [["rabbitmqctl", "set_policy", "-p", "/", "expiry"],
          ["rabbitmqctl", "set_policy", "-p", "/", "mirror"]] ∧
        events.statuses = [(.blocked, "RabbitMQ failed to create policy expiry"),
          (.blocked, "RabbitMQ failed to create policy bare")]) ∧
      ∃ cs events, Policy.renderAll settable = .ok cs ∧ cs.length = 2 ∧
        ((Policy.applyAll host settable).run []).2 = events ∧ events.commands = cs := by
  intro version host settable
  have hpass : ∀ turn ∈ turns (·.apply host) [] mixedPolicies,
      turn.passes (.setting coldAnswer version) = true := by
    decide +kernel
  have hpass' : ∀ turn ∈ turns (·.apply host) [] settable,
      turn.passes (.setting coldAnswer version) = true := by
    decide +kernel
  refine ⟨hpass, ?_, ?_⟩
  · obtain ⟨-, hfails, events, outcomes, hrun, -, -, hall⟩ :=
      renderAll_applyAll_agree coldAnswer version [] mixedPolicies hpass
    rw [List.nil_append] at hrun
    have hbare : (Policy.generic "/" "bare").setCommand =
        .error (.noPattern "BasePolicy(vhost: '/' name: 'bare')") := by
      decide +kernel
    have hmem : Policy.generic "/" "bare" ∈ mixedPolicies := by
      simp [mixedPolicies]
    refine ⟨events, outcomes, hrun, hall, hfails.2 ⟨_, hmem, _, hbare⟩, ?_⟩
    rw [← hrun]
    decide +kernel
  · obtain ⟨-, -, events, outcomes, hrun, hrendered, -, -⟩ :=
      renderAll_applyAll_agree coldAnswer version [] settable hpass'
    have hsome : (Policy.renderAll settable).toOption.map List.length = some 2 := by
      decide +kernel
    obtain ⟨cs, hcs, hlength⟩ := Option.map_eq_some_iff.1 hsome
    have hcs := Results.toOption_eq_some_iff.1 hcs
    exact ⟨cs, _, hcs, hlength, hrun, hrendered cs hcs⟩

end BrokerPolicy
