import BrokerPolicy.Config.Load
import BrokerPolicy.Host.Recorded
import BrokerPolicy.Proofs.Config.Precedence

/-!
The policies that are loaded, told from the entries that were written down.

Repeated identities are dropped from the file, from the list that accompanies it, from the two
together and from the copies. The first three rounds come to one round over all entries
(`configured_eq_ok`), after which `selected_expandWildcards` applies. If no entry is for every
virtual host the broker is not asked, which makes no difference to the result
(`expandOn_run`).
-/

namespace BrokerPolicy.Policy

/-! ### All entries are read, or none -/

/-- Entries are read one by one, whatever index the first of them has. -/
lemma ofEntriesFrom_eq_ok_iff {index : Nat} {entries : List Entry} {ps : List Policy} :
    ofEntriesFrom index entries = .ok ps ↔ entries.map ofEntry = ps.map .ok := by
  induction entries generalizing index ps with
  | nil => cases ps <;> simp [ofEntriesFrom]
  | cons e es ih =>
      rw [ofEntriesFrom, List.map_cons]
      cases he : ofEntry e with
      | error error => cases ps <;> simp
      | ok p =>
          cases ps with
          | nil => cases ofEntriesFrom (index + 1) es <;> simp [Except.map]
          | cons q qs =>
              rw [List.map_cons, List.cons.injEq, ← @ih (index + 1) qs]
              cases ofEntriesFrom (index + 1) es <;> simp [Except.map]

lemma collect_eq_ok {entries : List Entry} {ps : List Policy}
    (h : entries.map ofEntry = ps.map .ok) : collect entries = .ok (merge [] ps) := by
  rw [collect, ofEntries, ofEntriesFrom_eq_ok_iff.2 h]
  rfl

/-- The entries of the list that accompanies a file, none if there is no list. -/
def listedEntries? : Option String → Option (List Entry)
  | none => some []
  | some text => Json.Members.parseList? text

/-- What is dropped from the file and from the list is dropped from the entries of both. -/
lemma configured_eq_ok {path : String} {file : FileContent} {relation : Option String}
    {text : String} {entries listed : List Entry} {ps : List Policy}
    (htext : readText path file = .ok text)
    (hfile : PolicyFile.parse? text = some { version := 1, entries })
    (hlisted : listedEntries? relation = some listed)
    (hps : (entries ++ listed).map ofEntry = ps.map .ok) :
    configured path file relation = .ok (merge [] ps) := by
  rw [List.map_append, eq_comm, List.map_eq_append_iff] at hps
  obtain ⟨fs, rs, rfl, hfs, hrs⟩ := hps
  have hofFile : ofFile text = .ok (merge [] fs) := by
    rw [ofFile, hfile]
    exact collect_eq_ok hfs.symm
  -- the file alone is merged into nothing; a list is merged into what the file gives
  cases relation with
  | none =>
      obtain rfl : [] = listed := Option.some.inj hlisted
      obtain rfl : rs = [] := List.map_eq_nil_iff.1 hrs
      rw [configured, htext, List.append_nil]
      change (ofFile text >>= pure) = _
      rw [hofFile]
      rfl
  | some list =>
      have hofList : ofList list = .ok (merge [] rs) := by
        rw [ofList, show Json.Members.parseList? list = some listed from hlisted]
        exact collect_eq_ok hrs.symm
      have hmerge : merge (merge [] fs) (merge [] rs) = merge [] (fs ++ rs) := by
        rw [merge_merge_nil, merge_merge]
      rw [configured, htext, ← hmerge]
      change (ofFile text >>= fun ps => ofList list >>= fun qs => pure (merge ps qs)) = _
      rw [hofFile, hofList]
      rfl

/-! ### What the broker is asked -/

variable {σ : Type} (host : Host (StateM σ)) (format : Option Format) (s : σ)

/-- The virtual hosts that the broker answers when it is asked, none if it cannot tell. -/
def answeredVhosts : List String :=
  match (((Query.tryVhosts host).run format).run s).1.1 with
  | .ok vhosts => vhosts
  | .error _ => []

/-- What is asked for the virtual hosts is what the broker answers. -/
lemma vhosts_run :
    (((Query.vhosts host).run format).run s).1.1 = answeredVhosts host format s := by
  rw [Query.vhosts, answeredVhosts, StateT.run_bind, StateT.run_bind]
  obtain ⟨⟨answer, format'⟩, s'⟩ := ((Query.tryVhosts host).run format).run s
  cases answer <;> rfl

/-- A list without wildcards is what its expansion would be. -/
lemma expandOn_run (ps : List Policy) :
    (((expandOn host ps).run format).run s).1.1 =
      expandWildcards (answeredVhosts host format s) ps := by
  rw [expandOn]
  cases h : hasWildcard ps with
  | false => exact (expandWildcards_of_not_hasWildcard _ h).symm
  | true =>
      rw [← vhosts_run]
      rfl

/-- Past the reading of file and list, loading is expansion. -/
lemma loadPolicies_run {path : String} {file : FileContent} {relation : Option String}
    {ps : List Policy} (h : configured path file relation = .ok ps) :
    (((loadPolicies host path file relation).run format).run s).1.1 =
      .ok (((expandOn host ps).run format).run s).1.1 := by
  rw [loadPolicies, h]
  rfl

/-- **What is loaded is selected by precedence**: if the file and the list can be read and all their
entries are policies, loading succeeds and gives the policies that these and the virtual hosts that
the broker answers select. The precedence is by name in the file, by name in the list, wildcard in
the file, wildcard in the list. -/
theorem loadPolicies_selected {path : String} {file : FileContent} {relation : Option String}
    {text : String} {entries listed : List Entry} {ps : List Policy}
    (htext : readText path file = .ok text)
    (hfile : PolicyFile.parse? text = some { version := 1, entries })
    (hlisted : listedEntries? relation = some listed)
    (hps : (entries ++ listed).map ofEntry = ps.map .ok) :
    ∃ loaded, (((loadPolicies host path file relation).run format).run s).1.1 = .ok loaded ∧
      Selected ps (answeredVhosts host format s) loaded := by
  have hconfigured := configured_eq_ok htext hfile hlisted hps
  refine ⟨expandWildcards (answeredVhosts host format s) (merge [] ps), ?_, ?_⟩
  · rw [loadPolicies_run host format s hconfigured, expandOn_run]
  · exact selected_expandWildcards (answeredVhosts host format s) ps

/-- A file with a policy for every virtual host and one by name. -/
def sampleFile : String :=
  "version: 1\npolicies:\n- \x7bvhost: '*', name: q, definition: a\x7d\n- \x7bvhost: /, name: q\x7d"

/-- A list that repeats the former and adds another. -/
def sampleList : String :=
  "[\x7b\"vhost\":\"*\",\"name\":\"q\"\x7d,\x7b\"vhost\":\"*\",\"name\":\"r\"\x7d]"

/-- A host whose broker lists two virtual hosts in a table. -/
def sampleHost : Host Recorded :=
  Recorded.host (fun _ _ => .ok "Listing vhosts ...\n/\nlogs") (fun _ _ _ => .ok .lt)

/-- An entry by name comes before the copies of the wildcard entry with its name, and the entry that
the list repeats is dropped. -/
theorem loadPolicies_selected_sample : ∃ entries listed ps loaded,
    PolicyFile.parse? sampleFile = some { version := 1, entries } ∧
      listedEntries? (some sampleList) = some listed ∧
      (entries ++ listed).map ofEntry = ps.map .ok ∧
      (((loadPolicies sampleHost "policies.yaml" (.ok (Text.Utf8.encode sampleFile.toList))
        (some sampleList)).run none).run []).1.1 = .ok loaded ∧
      Selected ps ["/", "logs"] loaded ∧
      ps.map key = [⟨"*", "q"⟩, ⟨"/", "q"⟩, ⟨"*", "q"⟩, ⟨"*", "r"⟩] := by
  have hread : (do
      let file ← PolicyFile.parse? sampleFile
      let listed ← Json.Members.parseList? sampleList
      let ps ← (ofEntries (file.entries ++ listed)).toOption
      return (file.version, ps.map key)) =
      some (1, [⟨"*", "q"⟩, ⟨"/", "q"⟩, ⟨"*", "q"⟩, ⟨"*", "r"⟩]) := by
    decide +kernel
  simp only [Option.bind_eq_bind, Option.bind_eq_some_iff] at hread
  obtain ⟨⟨version, entries⟩, hfile, listed, hlisted, ps, hps, heq⟩ := hread
  obtain ⟨rfl, hkeys⟩ := Prod.mk.inj (Option.some.inj heq)
  have hofEntries : ofEntries (entries ++ listed) = .ok ps := by
    cases h : ofEntries (entries ++ listed) <;> simp_all [Except.toOption]
  have htext : readText "policies.yaml" (.ok (Text.Utf8.encode sampleFile.toList)) =
      .ok sampleFile := rfl
  have hps := ofEntriesFrom_eq_ok_iff.1 hofEntries
  have hlisted : listedEntries? (some sampleList) = some listed := hlisted
  obtain ⟨loaded, hloaded, hselected⟩ :=
    loadPolicies_selected sampleHost none [] htext hfile hlisted hps
  exact ⟨entries, listed, ps, loaded, hfile, hlisted, hps, hloaded, hselected, hkeys⟩

end BrokerPolicy.Policy
