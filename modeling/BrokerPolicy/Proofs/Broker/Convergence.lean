import BrokerPolicy.Broker
import BrokerPolicy.Policy.Change
import BrokerPolicy.Proofs.Batch.Account
import BrokerPolicy.Proofs.Results

/-!
Where a broker ends up when a list of policies is set on it and cleared from it.

The broker goes along with the trace of a host: every command that is answered well changes it, and
a failing one does not (`Broker.held`). If failing depends on the command alone, what the broker
holds can be told from the commands of the trace (`held_append`), and with a fixed answer of the
version probe a batch issues the commands of its policies that pass (`exists_events_forAll`).

`Broker.Changed` says what an operation on a list of policies does to a broker without saying in
which order. A list without repeated identities does just that (`changed_replay`), one policy at a
time: `Changed.cons_of_done` and `Changed.cons_of_not_done`. It leaves one outcome only, whatever
the entries that it writes were before (`Changed.unique`). So the order of the list and a second
round make no difference.
-/

namespace BrokerPolicy

variable {answer : Trace → Command → Except CommandFailure String} {fails : Command → Bool}

namespace Broker

/-! ### A broker behind a host -/

/-- What the broker holds after events that follow others: a command that is answered with a failure
changes nothing. -/
def heldFrom (answer : Trace → Command → Except CommandFailure String) (before : Trace)
    (b : Broker) : Trace → Broker
  | [] => b
  | .command c :: t =>
    heldFrom answer (before ++ [.command c]) (if (answer before c).isOk then b.after c else b) t
  | event :: t => heldFrom answer (before ++ [event]) b t

/-- What a broker that began with `b` holds after all that went through a host. -/
def held (answer : Trace → Command → Except CommandFailure String) (b : Broker) (t : Trace) :
    Broker :=
  heldFrom answer [] b t

/-- If good answers depend on the command only, so does what the broker holds. -/
lemma heldFrom_eq_replay (hanswer : ∀ t c, (answer t c).isOk = !fails c) (before : Trace)
    (b : Broker) (t : Trace) : heldFrom answer before b t = b.replay fails t.commands := by
  induction t generalizing before b with
  | nil => rfl
  | cons event t ih =>
      cases event with
      | command c =>
          have hstep : (if (answer before c).isOk then b.after c else b) =
              if fails c then b else b.after c := by
            rw [hanswer]
            cases fails c <;> rfl
          show heldFrom answer _ _ t = _
          rw [hstep, ih]
          rfl
      | _ => exact ih _ _

/-- What is held after more events can be told from their commands. -/
lemma held_append (hanswer : ∀ t c, (answer t c).isOk = !fails c) (b : Broker) (t events : Trace) :
    held answer b (t ++ events) = (held answer b t).replay fails events.commands := by
  rw [held, held, heldFrom_eq_replay hanswer, heldFrom_eq_replay hanswer, Trace.commands_append,
    replay, List.foldl_append]
  rfl

/-! ### What an operation on a list changes -/

/-- The entries of the policies that something was done with are as they should be, and all others
are as they were. -/
structure Changed (done : Policy → Prop) (entry : Policy → Option Settings → Prop)
    (ps : List Policy) (b b' : Broker) : Prop where
  changed : ∀ p ∈ ps, done p → entry p (b' p.key)
  kept : ∀ k, (∀ p ∈ ps, done p → p.key ≠ k) → b' k = b k

namespace Changed

variable {done : Policy → Prop} {entry : Policy → Option Settings → Prop} {p : Policy}
  {ps qs : List Policy} {b b' b₁ b₂ : Broker}

lemma nil : Changed done entry [] b b :=
  ⟨fun _ hp => absurd hp List.not_mem_nil, fun _ _ => rfl⟩

/-- A policy that nothing is done with changes nothing. -/
lemma cons_of_not_done (h : Changed done entry ps b b') (hp : ¬done p) :
    Changed done entry (p :: ps) b b' where
  changed q hq hdone := by
    rcases List.mem_cons.1 hq with rfl | hq
    · exact absurd hdone hp
    · exact h.changed q hq hdone
  kept k hk := h.kept k fun q hq => hk q (List.mem_cons_of_mem p hq)

/-- A policy that is done first is done for good, if its identity is not repeated. -/
lemma cons_of_done {e : Edit} (h : Changed done entry ps (b.edit e) b') (hdone : done p)
    (hkey : e.key = p.key) (hentry : entry p e.settings?) (hne : ∀ q ∈ ps, p.key ≠ q.key) :
    Changed done entry (p :: ps) b b' where
  changed q hq hqdone := by
    rcases List.mem_cons.1 hq with rfl | hq
    · have hkept : b' q.key = b.edit e q.key := h.kept q.key fun r hr _ => (hne r hr).symm
      have hedit : b.edit e q.key = e.settings? := if_pos hkey.symm
      rwa [hkept, hedit]
    · exact h.changed q hq hqdone
  kept k hk := by
    have hpk : k ≠ e.key := hkey ▸ (hk p List.mem_cons_self hdone).symm
    have hedit : b.edit e k = b k := if_neg hpk
    rw [← hedit]
    exact h.kept k fun q hq => hk q (List.mem_cons_of_mem p hq)

/-- The order of policies with different keys does not matter. -/
lemma perm (h : Changed done entry ps b b') (hperm : qs.Perm ps) : Changed done entry qs b b' where
  changed p hp := h.changed p (hperm.mem_iff.1 hp)
  kept k hk := h.kept k fun p hp => hk p (hperm.mem_iff.2 hp)

/-- Brokers that differ at most in what is changed do not differ afterwards. -/
lemma unique (hentry : ∀ p s s', entry p s → entry p s' → s = s')
    (h₁ : Changed done entry ps b b₁) (h₂ : Changed done entry ps b' b₂)
    (hsame : ∀ k, (∀ p ∈ ps, done p → p.key ≠ k) → b' k = b k) : b₂ = b₁ := by
  funext k
  by_cases hk : ∃ p ∈ ps, done p ∧ p.key = k
  · obtain ⟨p, hp, hdone, rfl⟩ := hk
    exact hentry p _ _ (h₂.changed p hp hdone) (h₁.changed p hp hdone)
  · have hk : ∀ p ∈ ps, done p → p.key ≠ k := fun p hp hdone heq => hk ⟨p, hp, hdone, heq⟩
    calc b₂ k = b' k := h₂.kept k hk
      _ = b k := hsame k hk
      _ = b₁ k := (h₁.kept k hk).symm

end Changed

end Broker

/-! ### Operations -/

namespace Operation

open Broker

variable (op : Operation)

/-- A policy passes the check, and its command goes through. -/
def Done (fails : Command → Bool) (t : Trace) (p : Policy) : Prop :=
  ((op.check p).run t).1 = true ∧ ∃ c, op.command p = .ok c ∧ fails c = false

/-- The check does not depend on what happened before. -/
def Steady : Prop :=
  ∀ p t t', ((op.check p).run t).1 = ((op.check p).run t').1

/-- The command of a policy changes the entry under its identity. -/
def Writes (entry : Policy → Option Settings → Prop) : Prop :=
  ∀ p c, op.command p = .ok c →
    ∃ e, Edit.ofCommand? c = some e ∧ e.key = p.key ∧ entry p e.settings?

/-- The command of a policy that passes. -/
def issued? (t : Trace) (p : Policy) : Option Command :=
  if ((op.check p).run t).1 then (op.command p).toOption else none

variable {op} {t : Trace} {p : Policy} {c : Command} {entry : Policy → Option Settings → Prop}

/-- A command is issued for a policy that passes and has it. -/
lemma issued?_eq_some_iff :
    op.issued? t p = some c ↔ ((op.check p).run t).1 = true ∧ op.command p = .ok c := by
  rw [issued?]
  split
  · next h => simp [h, Results.toOption_eq_some_iff]
  · next h => simp [h]

/-- Done is a policy whose command is issued and does not fail. -/
lemma done_iff : op.Done fails t p ↔ ∃ c, op.issued? t p = some c ∧ fails c = false := by
  simp only [Done, issued?_eq_some_iff, and_assoc, exists_and_left]

/-- A list without repeated identities changes the entries of its policies. -/
lemma changed_replay (hwrites : op.Writes entry) {ps : List Policy}
    (hkeys : ps.Pairwise (·.key ≠ ·.key)) (b : Broker) :
    Changed (op.Done fails t) entry ps b (b.replay fails (ps.filterMap (op.issued? t))) := by
  -- each policy edits its own entry, which no later one touches, since their keys differ
  induction ps generalizing b with
  | nil => exact Changed.nil
  | cons p ps ih =>
      obtain ⟨hne, hkeys⟩ := List.pairwise_cons.1 hkeys
      cases hissued : op.issued? t p with
      | none =>
          rw [List.filterMap_cons_none hissued]
          refine (ih hkeys b).cons_of_not_done fun hdone => ?_
          obtain ⟨c, hc, -⟩ := done_iff.1 hdone
          simp [hissued] at hc
      | some c =>
          rw [List.filterMap_cons_some hissued]
          cases hfails : fails c with
          | true =>
              have hreplay : b.replay fails (c :: ps.filterMap (op.issued? t)) =
                  b.replay fails (ps.filterMap (op.issued? t)) := by
                simp [replay, hfails]
              rw [hreplay]
              refine (ih hkeys b).cons_of_not_done fun hdone => ?_
              obtain ⟨c', hc', hfails'⟩ := done_iff.1 hdone
              obtain rfl : c = c' := Option.some.inj (hissued.symm.trans hc')
              simp [hfails] at hfails'
          | false =>
              obtain ⟨e, he, hkey, hentry⟩ := hwrites p c (issued?_eq_some_iff.1 hissued).2
              have hreplay : b.replay fails (c :: ps.filterMap (op.issued? t)) =
                  (b.edit e).replay fails (ps.filterMap (op.issued? t)) := by
                simp [replay, hfails, after, he]
              rw [hreplay]
              exact (ih hkeys _).cons_of_done (done_iff.2 ⟨c, hissued, hfails⟩) hkey hentry hne

/-! ### Batches -/

variable {version : Trace → (package version : String) → Except PolicyError Ordering}
  {act : Policy → Recorded (Option String)}

/-- A batch issues the commands of its policies that pass. -/
lemma exists_events_forAll (hact : ∀ p, act p = op.perform (Recorded.host answer version) p)
    (hsteady : op.Steady) (t t' : Trace) (ps : List Policy) : ∃ events,
      ((Policy.forAll act {} ps).run t).2 = t ++ events ∧
        events.commands = ps.filterMap (op.issued? t') := by
  obtain ⟨events, counted, hrun, haccount⟩ := account_forAll answer version hact {} t ps
  refine ⟨events, by rw [hrun], ?_⟩
  have hpasses : Turn.passes op = fun turn => ((op.check turn.policy).run t').1 :=
    funext fun turn => hsteady turn.policy turn.start t'
  rw [haccount.commands, hpasses, List.filterMap_filter]
  conv_rhs => rw [← haccount.policies, List.filterMap_map]
  rfl

/-- A batch changes the entries of its policies. -/
lemma changed_forAll (hact : ∀ p, act p = op.perform (Recorded.host answer version) p)
    (hanswer : ∀ t c, (answer t c).isOk = !fails c) (hsteady : op.Steady)
    (hwrites : op.Writes entry) (b : Broker) (t t' : Trace) {ps : List Policy}
    (hkeys : ps.Pairwise (·.key ≠ ·.key)) :
    Changed (op.Done fails t') entry ps (held answer b t)
      (held answer b ((Policy.forAll act {} ps).run t).2) := by
  obtain ⟨events, hrun, hcommands⟩ := exists_events_forAll hact hsteady t t' ps
  rw [hrun, held_append hanswer, hcommands]
  exact changed_replay hwrites hkeys _

/-! ### Setting and clearing -/

/-- A fixed answer of the version probe makes a fixed check. -/
lemma steady_setting (installed : Except PolicyError Ordering) :
    (setting answer fun _ _ _ => installed).Steady := by
  intro p t t'
  show ((p.check (Recorded.host answer fun _ _ _ => installed)).run t).1 =
    ((p.check (Recorded.host answer fun _ _ _ => installed)).run t').1
  rw [Policy.check]
  cases p.kind with
  | ha =>
      cases installed with
      | error e => rfl
      | ok order => cases order <;> rfl
  | _ => rfl

lemma steady_clearing : clearing.Steady := fun _ _ _ => rfl

end Operation

/-- What a policy says to the broker. -/
structure Policy.Says (p : Policy) (s : Settings) : Prop where
  pattern : p.target.pattern = some s.pattern
  definition : p.definition = some s.definition
  scope : s.scope = p.target.scope.name
  priority : s.priority = p.target.priority

/-- The entry holds what the policy says. -/
def Policy.Written (p : Policy) (entry : Option Settings) : Prop :=
  ∃ s, entry = some s ∧ p.Says s

/-- The entry is gone. -/
def Policy.Erased (_ : Policy) (entry : Option Settings) : Prop :=
  entry = none

/-- A policy says one thing only to the broker. -/
lemma Policy.written_unique (p : Policy) (s s' : Option Settings) (h : p.Written s)
    (h' : p.Written s') : s = s' := by
  obtain ⟨⟨pattern, definition, scope, priority⟩, rfl, hs⟩ := h
  obtain ⟨⟨pattern', definition', scope', priority'⟩, rfl, hs'⟩ := h'
  have hpattern : pattern = pattern' := Option.some.inj (hs.pattern.symm.trans hs'.pattern)
  have hdefinition : definition = definition' :=
    Option.some.inj (hs.definition.symm.trans hs'.definition)
  have hscope : scope = scope' := hs.scope.trans hs'.scope.symm
  have hpriority : priority = priority' := hs.priority.trans hs'.priority.symm
  rw [hpattern, hdefinition, hscope, hpriority]

namespace Operation

open Broker

/-- The command that sets a policy writes what the policy says. -/
lemma writes_setting
    (version : Trace → (package version : String) → Except PolicyError Ordering) :
    (setting answer version).Writes Policy.Written := by
  intro p c hc
  obtain ⟨pattern, definition, hpattern, hdefinition, hc⟩ := Edit.ofCommand?_of_setCommand hc
  exact ⟨_, hc, rfl, _, rfl, hpattern, hdefinition, rfl, rfl⟩

/-- The command that clears a policy erases its entry. -/
lemma writes_clearing : clearing.Writes Policy.Erased := by
  intro p c hc
  exact ⟨_, Edit.ofCommand?_of_clearCommand hc, rfl, rfl⟩

end Operation

section

open Broker Operation

/-- **Setting and clearing a list converge**: when failing depends on the command alone and the
version probe keeps to its answer, setting a list without repeated identities writes what the
policies say whose commands are formed and go through, each under its own identity, and nothing
else. Another order of the list and a second round lead to the same broker. Clearing the list
afterwards, in any order, erases the entries whose commands are formed and go through, and nothing
else. -/
theorem applyAll_clearAll_converge (hanswer : ∀ t c, (answer t c).isOk = !fails c)
    (installed : Except PolicyError Ordering) (b : Broker) (t : Trace) {ps qs : List Policy}
    (hkeys : ps.Pairwise (·.key ≠ ·.key)) (hperm : qs.Perm ps) :
    let host := Recorded.host answer fun _ _ _ => installed
    let applied := ((Policy.applyAll host ps).run t).2
    Changed ((setting answer fun _ _ _ => installed).Done fails t) Policy.Written ps
        (held answer b t) (held answer b applied) ∧
      held answer b ((Policy.applyAll host qs).run t).2 = held answer b applied ∧
      held answer b ((Policy.applyAll host qs).run applied).2 = held answer b applied ∧
      Changed (clearing.Done fails t) Policy.Erased ps (held answer b applied)
        (held answer b ((Policy.clearAll host qs).run applied).2) := by
  intro host applied
  have hqs : qs.Pairwise (·.key ≠ ·.key) := hperm.symm.pairwise hkeys fun h => h.symm
  -- the same statement for both orders and both starts
  have set {rs : List Policy} (hrs : rs.Pairwise (·.key ≠ ·.key)) (u : Trace) :=
    changed_forAll (apply_eq_perform answer fun _ _ _ => installed) hanswer
      (steady_setting installed) (writes_setting _) b u t hrs
  have hps := set hkeys t
  refine ⟨hps, ?_, ?_, ?_⟩
  · exact hps.unique Policy.written_unique ((set hqs t).perm hperm.symm) fun _ _ => rfl
  · -- the second time every entry that is written is written as it stands
    exact hps.unique Policy.written_unique ((set hqs applied).perm hperm.symm) hps.kept
  · have hclear := changed_forAll (clear_eq_perform answer fun _ _ _ => installed) hanswer
      steady_clearing writes_clearing b applied t hqs
    exact hclear.perm hperm.symm

/-- An expiry, a mirroring that an old broker declines, and two plain policies, of which one has no
definition. -/
def samplePolicies : List Policy :=
  [Policy.timeToLive "/" "expiry" "^logs", Policy.mirrored "/" "mirror" "^",
    ((Policy.generic "/" "plain").setPattern "^").setDefinition "\x7b\x7d",
    (Policy.generic "/" "bare").setPattern "^"]

/-- A runner that fails to clear the expiry and carries out everything else. -/
def sampleAnswer (_ : Trace) (c : Command) : Except CommandFailure String :=
  if c = [brokerTool, "clear_policy", "-p", "/", "expiry"] then .error (.notRun brokerTool "busy")
  else .ok ""

/-- The mirroring is declined and the last policy has no command, so two are written. The expiry is
still there when clearing it has failed. -/
theorem applyAll_clearAll_converge_sample :
    let fails := fun c => !(sampleAnswer [] c).isOk
    let host := Recorded.host sampleAnswer fun _ _ _ => .ok .lt
    let held := held sampleAnswer fun _ => none
    let applied := ((Policy.applyAll host samplePolicies).run []).2
    let cleared := ((Policy.clearAll host samplePolicies.reverse).run applied).2
    (∀ t c, (sampleAnswer t c).isOk = !fails c) ∧ samplePolicies.Pairwise (·.key ≠ ·.key) ∧
      Changed ((setting sampleAnswer fun _ _ _ => .ok .lt).Done fails []) Policy.Written
        samplePolicies (held []) (held applied) ∧
      held ((Policy.applyAll host samplePolicies.reverse).run []).2 = held applied ∧
      held ((Policy.applyAll host samplePolicies.reverse).run applied).2 = held applied ∧
      Changed (clearing.Done fails []) Policy.Erased samplePolicies (held applied) (held cleared) ∧
      samplePolicies.map (fun p => (held applied p.key).isSome) = [true, false, true, false] ∧
      samplePolicies.map (fun p => (held cleared p.key).isSome) = [true, false, false, false] := by
  intro fails host held applied cleared
  have hanswer : ∀ t c, (sampleAnswer t c).isOk = !fails c := fun _ _ => (Bool.not_not _).symm
  have hkeys : samplePolicies.Pairwise (·.key ≠ ·.key) := by
    decide
  obtain ⟨hset, horder, htwice, hclear⟩ := applyAll_clearAll_converge hanswer (.ok .lt)
    (fun _ => none) [] hkeys samplePolicies.reverse_perm
  refine ⟨hanswer, hkeys, hset, horder, htwice, hclear, ?_, ?_⟩
  · decide +kernel
  · decide +kernel

end

end BrokerPolicy
