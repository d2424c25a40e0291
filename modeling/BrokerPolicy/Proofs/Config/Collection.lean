import BrokerPolicy.Proofs.Config.Load
import BrokerPolicy.Proofs.Results

/-!
The policies of a list of entries, or the first entry that is refused.

The entries are read from the front, and the reading stops at the first that is refused.
`FirstRefused entries i own` says that this is the one at place `i`, for its own error; what is read
is then this error with its place (`ofEntriesFrom_eq_error_iff`, by induction on the list, each
entry moving the place by one: `firstRefused_cons_iff`). Identities do not come in before all
entries are read, so they neither hide a refusal nor move the count: `collect_first_refused`.
-/

namespace BrokerPolicy.Policy

/-- The entry at a place is refused for an error of its own, and none before it is. -/
structure FirstRefused (entries : List Entry) (i : ℕ) (own : PolicyError) : Prop where
  refused : ∃ e, entries[i]? = some e ∧ ofEntry e = .error own
  before : ∀ j < i, ∀ e, entries[j]? = some e → ∃ p, ofEntry e = .ok p

variable {entries : List Entry} {e : Entry} {p : Policy} {own error : PolicyError}

/-- A bad entry is the first refused one if nothing stands before it. -/
lemma firstRefused_head (h : ofEntry e = .error own) : FirstRefused (e :: entries) 0 own where
  refused := ⟨e, rfl, h⟩
  before j hj := absurd hj (Nat.not_lt_zero j)

/-- Behind an entry that is read, the count is one ahead. -/
lemma firstRefused_cons_iff (h : ofEntry e = .ok p) {i : ℕ} :
    FirstRefused (e :: entries) i own ↔ ∃ k, i = k + 1 ∧ FirstRefused entries k own := by
  constructor
  · -- the index is not that of the accepted head
    rintro ⟨⟨e', hget, hown⟩, hbefore⟩
    cases i with
    | zero =>
        obtain rfl := Option.some.inj hget
        rw [h] at hown
        cases hown
    | succ k =>
        exact ⟨k, rfl, ⟨e', hget, hown⟩, fun j hj => hbefore (j + 1) (Nat.succ_lt_succ hj)⟩
  · rintro ⟨k, rfl, ⟨hrefused, hbefore⟩⟩
    refine ⟨hrefused, fun j hj e' hget => ?_⟩
    cases j with
    | zero =>
        obtain rfl := Option.some.inj hget
        exact ⟨p, h⟩
    | succ j => exact hbefore j (Nat.lt_of_succ_lt_succ hj) e' hget

/-- The error of the first entry that is refused is reported, with the number of this entry. -/
lemma ofEntriesFrom_eq_error_iff {index : ℕ} : ofEntriesFrom index entries = .error error ↔
    ∃ i own, FirstRefused entries i own ∧ error = .inEntry (index + i) own := by
  induction entries generalizing index with
  | nil =>
      refine ⟨fun h => (by cases h), ?_⟩
      rintro ⟨i, own, ⟨⟨e, hget, -⟩, -⟩, -⟩
      cases hget
  | cons e entries ih =>
      rw [ofEntriesFrom]
      cases he : ofEntry e with
      | error own =>
          dsimp only
          constructor
          · rintro ⟨⟩
            exact ⟨0, own, firstRefused_head he, rfl⟩
          · rintro ⟨i, own', ⟨⟨e', hget, hown⟩, hbefore⟩, rfl⟩
            -- nothing stands behind an entry that is refused
            obtain rfl : i = 0 := by
              by_contra hi
              obtain ⟨p, hp⟩ := hbefore 0 (Nat.pos_of_ne_zero hi) e rfl
              rw [he] at hp
              cases hp
            obtain rfl := Option.some.inj hget
            obtain rfl := Except.error.inj (he.symm.trans hown)
            rfl
      | ok p =>
          dsimp only
          rw [Results.map_eq_error_iff, ih]
          constructor
          · rintro ⟨i, own, hfirst, rfl⟩
            refine ⟨i + 1, own, (firstRefused_cons_iff he).2 ⟨i, rfl, hfirst⟩, ?_⟩
            rw [Nat.add_right_comm, Nat.add_assoc]
          · rintro ⟨i, own, hfirst, rfl⟩
            obtain ⟨k, rfl, hrest⟩ := (firstRefused_cons_iff he).1 hfirst
            refine ⟨k, own, hrest, ?_⟩
            rw [Nat.add_right_comm, Nat.add_assoc]

/-- A list is refused exactly for its first bad entry, with the index of that entry. -/
lemma collect_eq_error_iff : collect entries = .error error ↔
    ∃ i own, FirstRefused entries i own ∧ error = .inEntry i own := by
  rw [collect, ofEntries, Results.map_eq_error_iff, ofEntriesFrom_eq_error_iff]
  simp only [Nat.zero_add]

/-- All entries are read, or one is refused. -/
lemma exists_built_iff :
    (∃ built : List Policy, entries.map ofEntry = built.map .ok) ↔
      ∀ e ∈ entries, ∃ p, ofEntry e = .ok p := by
  induction entries with
  | nil => exact ⟨fun _ => (by simp), fun _ => ⟨[], rfl⟩⟩
  | cons e entries ih =>
      rw [List.forall_mem_cons, ← ih, List.map_cons]
      constructor
      · rintro ⟨built, hbuilt⟩
        obtain ⟨p, built, rfl, hp, hbuilt⟩ := List.map_eq_cons_iff.1 hbuilt.symm
        exact ⟨⟨p, hp.symm⟩, built, hbuilt.symm⟩
      · rintro ⟨⟨p, hp⟩, built, hbuilt⟩
        exact ⟨p :: built, by rw [hp, hbuilt, List.map_cons]⟩

/-- A list is accepted exactly if all its entries are. -/
lemma exists_collect_iff :
    (∃ ps, collect entries = .ok ps) ↔ ∀ e ∈ entries, ∃ p, ofEntry e = .ok p := by
  rw [← exists_built_iff]
  constructor
  · rintro ⟨ps, hps⟩
    obtain ⟨built, hbuilt, -⟩ := Results.map_eq_ok_iff.1 hps
    exact ⟨built, ofEntriesFrom_eq_ok_iff.1 hbuilt⟩
  · rintro ⟨built, hbuilt⟩
    exact ⟨_, collect_eq_ok hbuilt⟩

/-- What is collected is, of each identity, the first policy. -/
lemma collect_eq_ok_iff {ps : List Policy} : collect entries = .ok ps ↔
    ∃ built, entries.map ofEntry = built.map .ok ∧ Added [] built ps := by
  constructor
  · intro h
    obtain ⟨built, hbuilt, rfl⟩ := Results.map_eq_ok_iff.1 h
    exact ⟨built, ofEntriesFrom_eq_ok_iff.1 hbuilt, added_unseen [] built⟩
  · rintro ⟨built, hbuilt, hadded⟩
    rw [collect_eq_ok hbuilt, hadded.unique (added_unseen [] built)]
    rfl

/-- **Entries are collected as a whole, or the first bad one is blamed**: a list of entries is
refused exactly if one of them is, and then with the error of the first of these and its place among
all entries, whatever the entries around it are and whether or not their identities are repeated.
Otherwise the policies are, of each identity, the first one, in the order in which the identities
first occur. -/
theorem collect_first_refused (entries : List Entry) :
    ((∃ error, collect entries = .error error) ↔
        ∃ e ∈ entries, ∃ own, ofEntry e = .error own) ∧
      (∀ error, collect entries = .error error ↔ ∃ i own, FirstRefused entries i own ∧
        error = .config ("policies[" ++ toString i ++ "]: " ++ own.message)) ∧
      (∀ before e after own, entries = before ++ e :: after →
        (∀ b ∈ before, ∃ p, ofEntry b = .ok p) → ofEntry e = .error own →
        collect entries = .error
          (.config ("policies[" ++ toString before.length ++ "]: " ++ own.message))) ∧
      ∀ ps, collect entries = .ok ps ↔
        ∃ built, entries.map ofEntry = built.map .ok ∧ Added [] built ps := by
  refine ⟨?_, fun error => collect_eq_error_iff, ?_, fun ps => collect_eq_ok_iff⟩
  · rw [Results.exists_eq_error_iff, exists_collect_iff]
    simp only [Results.exists_eq_error_iff, not_forall, exists_prop]
  · -- what stands before the entry is accepted, so its index is their number
    rintro before e after own rfl hbefore hown
    refine collect_eq_error_iff.2 ⟨before.length, own, ⟨⟨e, ?_, hown⟩, fun j hj b hget => ?_⟩, rfl⟩
    · rw [List.getElem?_append_right le_rfl, Nat.sub_self, List.getElem?_cons_zero]
    · rw [List.getElem?_append_left hj] at hget
      exact hbefore b (List.mem_of_getElem? hget)

end BrokerPolicy.Policy
