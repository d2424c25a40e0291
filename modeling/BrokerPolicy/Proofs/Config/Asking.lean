import BrokerPolicy.Config.Load
import BrokerPolicy.Proofs.Config.Precedence
import BrokerPolicy.Proofs.Listing.Session
import BrokerPolicy.Proofs.Results

/-!
What loading asks of the broker.

Nothing is asked before the file and the list are read (`configured_eq`), so an error comes from one
of them and leaves the host as it was: `loadPolicies_of_error`. After that the virtual hosts are
asked for if a policy is for every virtual host (`loadPolicies_asked`), and nothing is asked for
otherwise (`loadPolicies_unasked`). Policies without virtual hosts to be copied to are left out
(`expandWildcards_nil`).
-/

namespace BrokerPolicy

variable (answer : Trace → Command → Except CommandFailure String)
  (version : Trace → (package required : String) → Trace × Except PolicyError Ordering)

namespace Policy

/-! ### What is read -/

/-- The policies of the file alone. -/
def fromFile (path : String) (file : FileContent) : Except PolicyError (List Policy) :=
  readText path file >>= ofFile

/-- The policies of the list that accompanies the file, none if there is no list. -/
def fromRelation : Option String → Except PolicyError (List Policy)
  | none => .ok []
  | some text => ofList text

/-- The list is read after the file and merged into its policies. -/
lemma configured_eq (path : String) (file : FileContent) (relation : Option String) :
    configured path file relation = do
      let fs ← fromFile path file
      let rs ← fromRelation relation
      return merge fs rs := by
  rw [configured, fromFile, bind_assoc]
  refine bind_congr fun text => bind_congr fun fs => ?_
  cases relation with
  | none =>
      show _ = pure (merge fs [])
      rw [merge_nil]
  | some text => rfl

/-- What is configured is refused for its file, or else for its list. -/
lemma configured_eq_error_iff {path : String} {file : FileContent} {relation : Option String}
    {e : PolicyError} : configured path file relation = .error e ↔
      fromFile path file = .error e ∨
        (∃ fs, fromFile path file = .ok fs) ∧ fromRelation relation = .error e := by
  rw [configured_eq]
  cases fromFile path file with
  | error e' => simp [bind, Except.bind]
  | ok fs => cases fromRelation relation <;> simp [bind, Except.bind, pure, Except.pure]

/-! ### Expansion -/

/-- Without virtual hosts the policies for all of them are left out. -/
lemma expandWildcards_nil (ps : List Policy) :
    expandWildcards [] ps = ps.filter fun p => p.vhost != "*" := by
  have hnone : (ps.filter isWildcard).flatMap (copies []) = [] := by
    rw [List.flatMap_eq_nil_iff]
    exact fun p _ => rfl
  rw [expandWildcards, hnone, merge_nil]
  rfl

variable {path : String} {file : FileContent} {relation : Option String} {ps : List Policy}
  (format : Option Format) (before : Trace)

/-- An error of the file or of the list comes before everything else. -/
lemma loadPolicies_of_error {e : PolicyError} (h : configured path file relation = .error e) :
    ((loadPolicies (Recorded.probing answer version) path file relation).run format).run before =
      ((.error e, format), before) := by
  rw [loadPolicies, h]
  rfl

/-- Policies by name are loaded as they are, and nothing is asked. -/
lemma loadPolicies_unasked (h : configured path file relation = .ok ps)
    (hps : hasWildcard ps = false) : ∃ event,
    ((loadPolicies (Recorded.probing answer version) path file relation).run format).run before =
      ((.ok ps, format), before ++ [.log event]) := by
  rw [loadPolicies, h]
  dsimp only
  rw [expandOn, hps]
  exact ⟨_, rfl⟩

/-- For policies for every virtual host these are asked for, once and after settling the format. -/
lemma loadPolicies_asked (h : configured path file relation = .ok ps)
    (hps : hasWildcard ps = true) : ∃ f reply events,
    ((loadPolicies (Recorded.probing answer version) path file relation).run format).run before =
      ((.ok (expandWildcards (f.knownVhosts reply) ps), some f),
        before ++ (Query.settling version format before ++ events)) ∧
    events.versionQueries = [] ∧
    Trace.calls answer (before ++ Query.settling version format before) events =
      [(listVhosts ++ f.flags, reply)] := by
  obtain ⟨f, reply, events, hrun, hqueries, hcalls⟩ :=
    Query.vhosts_asked answer version format before
  -- there is a wildcard policy, so the virtual hosts are asked for, once
  have hexpand : ((expandOn (Recorded.probing answer version) ps).run format).run before =
      ((expandWildcards (f.knownVhosts reply) ps, some f),
        before ++ (Query.settling version format before ++ events)) := by
    rw [expandOn, if_pos hps, StateT.run_bind, StateT.run_bind, hrun]
    rfl
  -- after that there is only the entry in the log that says how many policies were loaded
  obtain ⟨event, hload⟩ : ∃ event,
      ((loadPolicies (Recorded.probing answer version) path file relation).run format).run before =
        ((.ok (expandWildcards (f.knownVhosts reply) ps), some f),
          before ++ (Query.settling version format before ++ events) ++ [.log event]) := by
    rw [loadPolicies, h]
    dsimp only
    rw [StateT.run_bind, StateT.run_bind, hexpand]
    exact ⟨_, rfl⟩
  refine ⟨f, reply, events ++ [.log event], ?_, ?_, ?_⟩
  · rw [hload, List.append_assoc, List.append_assoc]
  · rw [Trace.versionQueries_append, hqueries]
    rfl
  · rw [Trace.calls_append, hcalls]
    rfl

/-- How the policies of the file and the list become those that are loaded, on a host that goes from
`before` to `after`: without being asked for anything if all are by name, else after a single call,
for the virtual hosts. If that fails or its answer is unusable, only the policies by name are
loaded, in their order. -/
inductive Expansion (ps : List Policy) : (loaded : List Policy) → (after : Trace) → Prop
  | unasked {events : Trace} (hps : ∀ p ∈ ps, p.vhost ≠ "*") (hcommands : events.commands = [])
      (hqueries : events.versionQueries = []) : Expansion ps ps (before ++ events)
  | asked {loaded : List Policy} {f : Format} {reply : Except CommandFailure String}
      {events : Trace} (hps : ∃ p ∈ ps, p.vhost = "*") (hqueries : events.versionQueries = [])
      (hcalls : Trace.calls answer (before ++ Query.settling version format before) events =
        [(listVhosts ++ f.flags, reply)])
      (hunusable : ∀ e, f.vhosts reply = .error e → loaded = ps.filter fun p => p.vhost != "*") :
      Expansion ps loaded (before ++ (Query.settling version format before ++ events))

/-- What is configured is loaded, and what was asked on the way is that of an expansion. -/
lemma exists_expansion (h : configured path file relation = .ok ps) : ∃ loaded format' after,
    ((loadPolicies (Recorded.probing answer version) path file relation).run format).run before =
      ((.ok loaded, format'), after) ∧ Expansion answer version format before ps loaded after := by
  cases hps : hasWildcard ps with
  | false =>
      obtain ⟨event, hrun⟩ := loadPolicies_unasked answer version format before h hps
      refine ⟨ps, format, _, hrun, .unasked (fun p hp hvhost => ?_) rfl rfl⟩
      rw [hasWildcard_iff.2 ⟨p, hp, hvhost⟩] at hps
      cases hps
  | true =>
      obtain ⟨f, reply, events, hrun, hqueries, hcalls⟩ :=
        loadPolicies_asked answer version format before h hps
      refine ⟨_, some f, _, hrun, .asked (hasWildcard_iff.1 hps) hqueries hcalls fun e he => ?_⟩
      rw [Format.knownVhosts, he]
      exact expandWildcards_nil ps

/-- **Loading asks only when it has to**: an error leaves the host as it was, and is one of the list
only if the file can be read. Otherwise the file and the list are merged, and the broker is asked
only if a policy of them is for every virtual host, and then only for these. -/
theorem loadPolicies_asks (path : String) (file : FileContent) (relation : Option String)
    (format : Option Format) (before : Trace) :
    let load := loadPolicies (Recorded.probing answer version) path file relation
    let result := ((load.run format).run before).1.1
    let after := ((load.run format).run before).2
    (∀ e, result = .error e → after = before) ∧
      (∀ e, result = .error e ↔ fromFile path file = .error e ∨
        (∃ fs, fromFile path file = .ok fs) ∧ fromRelation relation = .error e) ∧
      ∀ loaded, result = .ok loaded → ∃ fs rs,
        fromFile path file = .ok fs ∧ fromRelation relation = .ok rs ∧
        Expansion answer version format before (merge fs rs) loaded after := by
  intro load result after
  -- the file and the list are read without the broker; only then can anything be asked
  cases hconfigured : configured path file relation with
  | error e =>
      have hrun := loadPolicies_of_error answer version format before hconfigured
      have hresult : result = .error e := congrArg (·.1.1) hrun
      refine ⟨fun _ _ => congrArg Prod.snd hrun, fun e' => ?_, fun loaded hloaded => ?_⟩
      · rw [hresult, ← configured_eq_error_iff, hconfigured]
      · rw [hresult] at hloaded
        cases hloaded
  | ok ps =>
      obtain ⟨loaded, format', after', hrun, hexpansion⟩ :=
        exists_expansion answer version format before hconfigured
      have hresult : result = .ok loaded := congrArg (·.1.1) hrun
      have hafter : after = after' := congrArg Prod.snd hrun
      refine ⟨fun e he => ?_, fun e => ?_, fun loaded' hloaded => ?_⟩
      · rw [hresult] at he
        cases he
      · rw [hresult, ← configured_eq_error_iff, hconfigured]
        simp only [reduceCtorEq]
      · obtain rfl : loaded = loaded' := Except.ok.inj (hresult.symm.trans hloaded)
        rw [configured_eq] at hconfigured
        obtain ⟨fs, hfs, hconfigured⟩ := Results.bind_eq_ok_iff.1 hconfigured
        obtain ⟨rs, hrs, hmerged⟩ := Results.bind_eq_ok_iff.1 hconfigured
        obtain rfl : merge fs rs = ps := Except.ok.inj hmerged
        exact ⟨fs, rs, hfs, hrs, hafter ▸ hexpansion⟩

end Policy

end BrokerPolicy
