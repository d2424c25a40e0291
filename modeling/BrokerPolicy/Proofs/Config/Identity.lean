import BrokerPolicy.Config.Step
import BrokerPolicy.Proofs.Config.Load
import BrokerPolicy.Proofs.Results

/-!
No list of policies holds an identity twice.

Reading a file or a list leaves the first policy of each identity (`pairwise_ofFile`,
`pairwise_ofList`). Adding a list keeps the identities apart (`pairwise_merge`). Expansion can bring
two policies together, on one virtual host that is listed twice or on that of a policy by name, but
its copies are merged like any other policies (`pairwise_expandWildcards`). So no step in building
up a list repeats an identity (`ConfigStep.pairwise_assign`), by induction no sequence of steps does
(`ConfigStep.pairwise_replay`), and neither does loading (`pairwise_of_loadPolicies`).
-/

namespace BrokerPolicy

namespace Policy

/-- No two policies of a list have the same identity, and no two are equal. -/
structure Unrepeated (ps : List Policy) : Prop where
  keys : ps.Pairwise (·.key ≠ ·.key)
  beq : ∀ (i j : ℕ) (hi : i < ps.length) (hj : j < ps.length), i ≠ j → (ps[i] == ps[j]) = false

/-- Policies are equal by their identity alone, so those that differ in it are unequal. -/
lemma unrepeated_of_pairwise {ps : List Policy} (h : ps.Pairwise (·.key ≠ ·.key)) :
    Unrepeated ps where
  keys := h
  beq i j hi hj hij := by
    rw [List.pairwise_iff_getElem] at h
    rw [Bool.eq_false_iff, Ne, beq_iff_key_eq]
    rcases Nat.lt_or_gt_of_ne hij with hlt | hlt
    · exact h i j hi hj hlt
    · exact fun heq => h j i hj hi hlt heq.symm

/-! ### What is read -/

/-- Collecting drops what has the identity of an earlier entry. -/
lemma pairwise_collect {entries : List Entry} {ps : List Policy} (h : collect entries = .ok ps) :
    ps.Pairwise (·.key ≠ ·.key) := by
  obtain ⟨qs, -, rfl⟩ := Results.map_eq_ok_iff.1 h
  exact pairwise_merge_nil qs

lemma pairwise_ofFile {text : String} {ps : List Policy} (h : ofFile text = .ok ps) :
    ps.Pairwise (·.key ≠ ·.key) := by
  rw [ofFile] at h
  split at h
  · cases h
  · split at h
    · exact pairwise_collect h
    · cases h

lemma pairwise_ofList {text : String} {ps : List Policy} (h : ofList text = .ok ps) :
    ps.Pairwise (·.key ≠ ·.key) := by
  rw [ofList] at h
  split at h
  · cases h
  · exact pairwise_collect h

/-- Copies for virtual hosts are merged, so they repeat neither each other nor a policy by name. -/
lemma pairwise_expandWildcards (vhosts : List String) {ps : List Policy}
    (h : ps.Pairwise (·.key ≠ ·.key)) : (expandWildcards vhosts ps).Pairwise (·.key ≠ ·.key) :=
  pairwise_merge _ (h.sublist List.filter_sublist)

/-! ### What is loaded -/

/-- Neither a file alone nor a file with a list repeats an identity. -/
lemma pairwise_configured {path : String} {file : FileContent} {relation : Option String}
    {ps : List Policy} (h : configured path file relation = .ok ps) :
    ps.Pairwise (·.key ≠ ·.key) := by
  obtain ⟨text, -, h⟩ := Results.bind_eq_ok_iff.1 h
  obtain ⟨fs, hfile, h⟩ := Results.bind_eq_ok_iff.1 h
  have hfs := pairwise_ofFile hfile
  cases relation with
  | none =>
      obtain rfl := Except.ok.inj h
      exact hfs
  | some list =>
      obtain ⟨rs, -, h⟩ := Results.bind_eq_ok_iff.1 h
      obtain rfl := Except.ok.inj h
      exact pairwise_merge rs hfs

variable {σ : Type} (host : Host (StateM σ)) (format : Option Format) (s : σ)

/-- Expansion does not bring back a repeated identity. -/
lemma pairwise_of_loadPolicies {path : String} {file : FileContent} {relation : Option String}
    {loaded : List Policy}
    (h : (((loadPolicies host path file relation).run format).run s).1.1 = .ok loaded) :
    loaded.Pairwise (·.key ≠ ·.key) := by
  cases hconfigured : configured path file relation with
  | error e =>
      rw [loadPolicies, hconfigured] at h
      cases h
  | ok ps =>
      rw [loadPolicies_run host format s hconfigured, expandOn_run] at h
      obtain rfl := Except.ok.inj h
      exact pairwise_expandWildcards _ (pairwise_configured hconfigured)

end Policy

/-! ### What is built up -/

namespace ConfigStep

open Policy

/-- A step repeats no identity, whether it is made or refused. -/
lemma pairwise_assign (step : ConfigStep) {ps : List Policy} (hps : ps.Pairwise (·.key ≠ ·.key)) :
    (step.assign ps).2.Pairwise (·.key ≠ ·.key) := by
  rw [assign]
  cases hbuild : step.build ps with
  | error e => exact hps
  | ok qs =>
      show qs.Pairwise _
      cases step with
      | file text => exact pairwise_ofFile hbuild
      | list text => exact pairwise_ofList hbuild
      | merged text =>
          obtain ⟨rs, -, rfl⟩ := Results.map_eq_ok_iff.1 hbuild
          exact pairwise_merge rs hps
      | expanded vhosts =>
          obtain rfl := Except.ok.inj hbuild
          exact pairwise_expandWildcards vhosts hps

lemma replay_concat (steps : List ConfigStep) (step : ConfigStep) :
    replay (steps ++ [step]) = (step.assign (replay steps)).2 := by
  rw [replay, List.foldl_append]
  rfl

/-- Every step leaves the configuration without repeated identities. -/
lemma pairwise_replay (steps : List ConfigStep) :
    (replay steps).Pairwise (·.key ≠ ·.key) := by
  induction steps using List.reverseRecOn with
  | nil => exact List.Pairwise.nil
  | append_singleton steps step ih =>
      rw [replay_concat]
      exact pairwise_assign step ih

end ConfigStep

/-- **Identities are never repeated**: whatever steps a list of policies is built up by, from no
policies on, and whatever is loaded from a file, a list and the virtual hosts of a broker, no two
policies have the same identity. -/
theorem replay_loadPolicies_unrepeated (steps : List ConfigStep) {σ : Type}
    (host : Host (StateM σ)) (format : Option Format) (s : σ) (path : String) (file : FileContent)
    (relation : Option String) :
    Policy.Unrepeated (ConfigStep.replay steps) ∧
      ∀ loaded, (((Policy.loadPolicies host path file relation).run format).run s).1.1 =
        .ok loaded → Policy.Unrepeated loaded :=
  ⟨Policy.unrepeated_of_pairwise (ConfigStep.pairwise_replay steps), fun _ hloaded =>
    Policy.unrepeated_of_pairwise (Policy.pairwise_of_loadPolicies host format s hloaded)⟩

/-- Steps that expand over a virtual host twice and over the wildcard itself, and one that is
refused. -/
def sampleSteps : List ConfigStep :=
  [.file Policy.sampleFile, .merged Policy.sampleList, .expanded ["/", "*", "/"], .list "[",
    .merged Policy.sampleList]

/-- Entries are repeated by the list and a virtual host is given twice; every identity is there
once. -/
theorem replay_loadPolicies_unrepeated_sample : ∃ loaded,
    (((Policy.loadPolicies Policy.sampleHost "policies.yaml"
      (.ok (Text.Utf8.encode Policy.sampleFile.toList)) (some Policy.sampleList)).run none).run
      []).1.1 = .ok loaded ∧
      loaded.map Policy.key = [⟨"/", "q"⟩, ⟨"logs", "q"⟩, ⟨"/", "r"⟩, ⟨"logs", "r"⟩] ∧
      Policy.Unrepeated loaded ∧ Policy.Unrepeated (ConfigStep.replay sampleSteps) ∧
      (ConfigStep.replay sampleSteps).map Policy.key =
        [⟨"/", "q"⟩, ⟨"*", "q"⟩, ⟨"/", "r"⟩, ⟨"*", "r"⟩] := by
  have hread : ((((Policy.loadPolicies Policy.sampleHost "policies.yaml"
      (.ok (Text.Utf8.encode Policy.sampleFile.toList)) (some Policy.sampleList)).run none).run
      []).1.1.toOption.map (·.map Policy.key)) =
      some [⟨"/", "q"⟩, ⟨"logs", "q"⟩, ⟨"/", "r"⟩, ⟨"logs", "r"⟩] := by
    decide +kernel
  have hkeys : (ConfigStep.replay sampleSteps).map Policy.key =
      [⟨"/", "q"⟩, ⟨"*", "q"⟩, ⟨"/", "r"⟩, ⟨"*", "r"⟩] := by
    decide +kernel
  obtain ⟨loaded, hsome, hloadedKeys⟩ := Option.map_eq_some_iff.1 hread
  have hloaded := Results.toOption_eq_some_iff.1 hsome
  obtain ⟨hreplay, hload⟩ := replay_loadPolicies_unrepeated sampleSteps Policy.sampleHost none []
    "policies.yaml" (.ok (Text.Utf8.encode Policy.sampleFile.toList)) (some Policy.sampleList)
  exact ⟨loaded, hloaded, hloadedKeys, hload loaded hloaded, hreplay, hkeys⟩

end BrokerPolicy
