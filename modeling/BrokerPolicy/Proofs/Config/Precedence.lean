import BrokerPolicy.Policy.Change
import BrokerPolicy.Proofs.Config.Merge

/-!
Which policies remain of a list of entries when those for every virtual host are replaced by copies.

`Selected entries vhosts ps` says which they are, without saying how they are found: the identities
(`Selected.mem_iff`), one policy for each (`Selected.unique`), the entry that it comes from
(`Selected.winner`) and the order in which they stand (`Selected.order`). It holds of what dropping
repeated identities and then expanding makes of the entries (`selected_expandWildcards`).

The copies are looked up by `firstOf_flatMap_copies`, which reduces a look-up among them to one
among the entries they are copies of, and they are put in order by `pairwise_copies`.
-/

namespace BrokerPolicy.Policy

/-! ### What is selected -/

/-- The first entry for a virtual host by name with an identity. -/
def firstExplicit? (entries : List Policy) (k : Key) : Option Policy :=
  entries.find? fun q => decide (q.vhost ≠ "*" ∧ q.key = k)

/-- The first entry for every virtual host with a name. -/
def firstWildcard? (entries : List Policy) (name : String) : Option Policy :=
  entries.find? fun q => decide (q.vhost = "*" ∧ q.name = name)

/-- The identity of the entries for every virtual host with a name. -/
def wildcardKey (name : String) : Key where
  vhost := "*"
  name

/-- One copy stands before another: its entry comes first or, for the same entry, its virtual
host. -/
def CopyBefore (entries : List Policy) (vhosts : List String) (p q : Policy) : Prop :=
  placeOf entries (wildcardKey p.name) < placeOf entries (wildcardKey q.name) ∨
    p.name = q.name ∧ vhosts.idxOf p.vhost < vhosts.idxOf q.vhost

/-- The policies that entries and virtual hosts select. -/
structure Selected (entries : List Policy) (vhosts : List String) (ps : List Policy) : Prop where
  /-- There is a policy for every identity that an entry has by name, and for every name of a
  wildcard entry on every virtual host. -/
  mem_iff : ∀ k, (∃ p ∈ ps, p.key = k) ↔
    (∃ q ∈ entries, q.vhost ≠ "*" ∧ q.key = k) ∨
      k.vhost ∈ vhosts ∧ ∃ q ∈ entries, q.vhost = "*" ∧ q.name = k.name
  /-- There is only one. -/
  unique : ps.Pairwise (·.key ≠ ·.key)
  /-- It is the first entry that has the identity by name, or else a copy of the first wildcard
  entry with the name. -/
  winner : ∀ p ∈ ps,
    match firstExplicit? entries p.key with
    | some q => p = q
    | none => ∃ w, firstWildcard? entries p.name = some w ∧ p = w.setVhost p.vhost
  /-- The entries by name come first, in their order; the copies follow by entry and virtual
  host. -/
  order : ∃ explicit expanded, ps = explicit ++ expanded ∧
    (∀ p ∈ explicit, firstExplicit? entries p.key = some p) ∧
    (∀ p ∈ expanded, firstExplicit? entries p.key = none) ∧
    (explicit.Pairwise fun p q => placeOf entries p.key < placeOf entries q.key) ∧
    expanded.Pairwise (CopyBefore entries vhosts)

lemma key_eq_wildcardKey_iff {q : Policy} {name : String} :
    q.key = wildcardKey name ↔ q.vhost = "*" ∧ q.name = name := by
  simp [key, wildcardKey]

/-- Wildcard entries are looked up like any others, by the identity they share. -/
lemma firstWildcard?_eq (entries : List Policy) (name : String) :
    firstWildcard? entries name = firstOf entries (wildcardKey name) := by
  rw [firstWildcard?, firstOf]
  simp only [key_eq_wildcardKey_iff]

/-- On a named virtual host the entries by name are all there are. -/
lemma firstExplicit?_eq_of_ne {k : Key} (entries : List Policy) (h : k.vhost ≠ "*") :
    firstExplicit? entries k = firstOf entries k := by
  rw [firstExplicit?, firstOf]
  congr 1
  funext q
  by_cases hq : q.key = k
  · have hv : q.vhost ≠ "*" := by rw [← hq] at h; exact h
    simp [hq, hv]
  · simp [hq]

/-- No entry by name has the identity of a wildcard entry. -/
lemma firstExplicit?_wildcard {k : Key} (entries : List Policy) (h : k.vhost = "*") :
    firstExplicit? entries k = none := by
  rw [firstExplicit?, List.find?_eq_none]
  intro q _ hq
  obtain ⟨hv, rfl⟩ := of_decide_eq_true hq
  exact hv h

lemma exists_firstExplicit?_iff {entries : List Policy} {k : Key} :
    (∃ q, firstExplicit? entries k = some q) ↔ ∃ q ∈ entries, q.vhost ≠ "*" ∧ q.key = k := by
  rw [← Option.isSome_iff_exists, firstExplicit?, List.find?_isSome]
  simp

lemma exists_firstWildcard?_iff {entries : List Policy} {name : String} :
    (∃ w, firstWildcard? entries name = some w) ↔
      ∃ q ∈ entries, q.vhost = "*" ∧ q.name = name := by
  rw [← Option.isSome_iff_exists, firstWildcard?, List.find?_isSome]
  simp

lemma firstExplicit?_some {entries : List Policy} {k : Key} {q : Policy}
    (h : firstExplicit? entries k = some q) : q.vhost ≠ "*" ∧ q.key = k := by
  have hq := List.find?_some h
  exact of_decide_eq_true hq

lemma firstWildcard?_some {entries : List Policy} {name : String} {w : Policy}
    (h : firstWildcard? entries name = some w) : w.vhost = "*" ∧ w.name = name := by
  have hw := List.find?_some h
  exact of_decide_eq_true hw

/-! ### Copies -/

lemma isWildcard_iff {p : Policy} : p.isWildcard = true ↔ p.vhost = "*" := by
  simp [isWildcard, wildcard]

lemma hasWildcard_iff {ps : List Policy} : hasWildcard ps = true ↔ ∃ p ∈ ps, p.vhost = "*" := by
  simp only [hasWildcard, List.any_eq_true, isWildcard_iff]

lemma setVhost_vhost (v : String) (p : Policy) : (p.setVhost v).vhost = v := rfl

lemma setVhost_name (v : String) (p : Policy) : (p.setVhost v).name = p.name := rfl

lemma copies_cons (v : String) (vhosts : List String) (w : Policy) :
    copies (v :: vhosts) w = w.setVhost v :: copies vhosts w := rfl

/-- A copy is on one of the virtual hosts and differs from its entry in nothing else. -/
lemma mem_copies_iff {vhosts : List String} {w p : Policy} :
    p ∈ copies vhosts w ↔ p.vhost ∈ vhosts ∧ p = w.setVhost p.vhost := by
  constructor
  · intro h
    obtain ⟨v, hv, rfl⟩ := List.mem_map.1 h
    exact ⟨hv, rfl⟩
  · rintro ⟨hv, hp⟩
    exact hp ▸ List.mem_map_of_mem hv

/-- Among the copies of one entry, an identity finds the copy on its virtual host. -/
lemma firstOf_copies (vhosts : List String) (w : Policy) (k : Key) :
    firstOf (copies vhosts w) k =
      if k.vhost ∈ vhosts ∧ w.name = k.name then some (w.setVhost k.vhost) else none := by
  induction vhosts with
  | nil => simp [copies, firstOf_nil]
  | cons v vhosts ih =>
      have hkey : (w.setVhost v).key = k ↔ v = k.vhost ∧ w.name = k.name := by
        cases k
        simp [key, setVhost_vhost, setVhost_name]
      rw [copies_cons, firstOf_cons, ih]
      by_cases hv : v = k.vhost
      · subst hv
        by_cases hname : w.name = k.name <;> simp [hkey, hname]
      · simp [hkey, hv, Ne.symm hv]

/-- A copy is looked up by its virtual host and, among the entries, by its name. -/
lemma firstOf_flatMap_copies {ws : List Policy} (vhosts : List String) (k : Key)
    (h : ∀ w ∈ ws, w.vhost = "*") :
    firstOf (ws.flatMap (copies vhosts)) k =
      if k.vhost ∈ vhosts then (firstOf ws (wildcardKey k.name)).map (setVhost k.vhost)
      else none := by
  induction ws with
  | nil => simp [firstOf_nil]
  | cons w ws ih =>
      have hkey : w.key = wildcardKey k.name ↔ w.name = k.name := by
        simp [key_eq_wildcardKey_iff, h w List.mem_cons_self]
      rw [List.flatMap_cons, firstOf_append, firstOf_copies, firstOf_cons,
        ih fun w' hw' => h w' (List.mem_cons_of_mem _ hw')]
      by_cases hv : k.vhost ∈ vhosts
      · by_cases hname : w.name = k.name <;> simp [hv, hkey, hname]
      · simp [hv]

/-- The copies of one entry stand in the order of the virtual hosts. -/
lemma placeOf_copies (vhosts : List String) (w : Policy) (v : String) :
    placeOf (copies vhosts w) (w.setVhost v).key = vhosts.idxOf v := by
  induction vhosts with
  | nil => rfl
  | cons u vhosts ih =>
      rw [copies_cons]
      by_cases hu : u = v
      · subst hu
        rw [placeOf_cons_self, List.idxOf_cons_self]
      · have hne : (w.setVhost u).key ≠ (w.setVhost v).key := fun heq => hu (congrArg Key.vhost heq)
        rw [placeOf_cons_of_ne _ hne, ih, List.idxOf_cons_ne _ hu]

/-- The copies of one entry stand in the order of the virtual hosts. -/
lemma pairwise_unseen_copies (seen : List Key) (vhosts : List String) (w : Policy) :
    (unseen seen (copies vhosts w)).Pairwise fun p q =>
      vhosts.idxOf p.vhost < vhosts.idxOf q.vhost := by
  refine (pairwise_placeOf_unseen seen _).imp_of_mem fun {p q} hp hq hpq => ?_
  rw [(mem_copies_iff.1 (mem_unseen hp).1).2, (mem_copies_iff.1 (mem_unseen hq).1).2,
    placeOf_copies, placeOf_copies] at hpq
  exact hpq

/-- Copies stand in the order of their entries, and of the virtual hosts for each of them. -/
lemma pairwise_copies {entries ws : List Policy} (seen : List Key) (vhosts : List String)
    (hwild : ∀ w ∈ ws, w.vhost = "*")
    (hws : ws.Pairwise fun w w' => placeOf entries w.key < placeOf entries w'.key) :
    (unseen seen (ws.flatMap (copies vhosts))).Pairwise (CopyBefore entries vhosts) := by
  -- the copies of each entry are seen by those of the entries behind it
  induction ws generalizing seen with
  | nil => exact List.Pairwise.nil
  | cons w ws ih =>
      obtain ⟨hw, hrest⟩ := List.pairwise_cons.1 hws
      have hkey {w' : Policy} (hw' : w' ∈ w :: ws) : w'.key = wildcardKey w'.name :=
        key_eq_wildcardKey_iff.2 ⟨hwild w' hw', rfl⟩
      rw [List.flatMap_cons, unseen_append]
      refine List.pairwise_append.2 ⟨?_, ?_, fun p hp q hq => Or.inl ?_⟩
      · refine (pairwise_unseen_copies seen vhosts w).imp_of_mem fun {p q} hp hq hpq =>
          Or.inr ⟨?_, hpq⟩
        rw [(mem_copies_iff.1 (mem_unseen hp).1).2, (mem_copies_iff.1 (mem_unseen hq).1).2]
        rfl
      · exact ih _ (fun w' hw' => hwild w' (List.mem_cons_of_mem _ hw')) hrest
      · -- the copies come from an entry and from one behind it
        obtain ⟨w', hw', hq⟩ := List.mem_flatMap.1 (mem_unseen hq).1
        have hplace := hw w' hw'
        rw [hkey List.mem_cons_self, hkey (List.mem_cons_of_mem _ hw')] at hplace
        rw [(mem_copies_iff.1 (mem_unseen hp).1).2, (mem_copies_iff.1 hq).2]
        exact hplace

/-! ### The two parts of an expansion -/

/-- The first policies of the identities by name. -/
def explicitPart (entries : List Policy) : List Policy :=
  (merge [] entries).filter fun p => !p.isWildcard

/-- The first policies for every virtual host. -/
def wildcardPart (entries : List Policy) : List Policy :=
  (merge [] entries).filter isWildcard

/-- The copies whose identity is not given by name. -/
def expandedPart (vhosts : List String) (entries : List Policy) : List Policy :=
  unseen ((explicitPart entries).map key) ((wildcardPart entries).flatMap (copies vhosts))

/-- An expansion has its two parts, one after the other. -/
lemma expandWildcards_merge_nil (vhosts : List String) (entries : List Policy) :
    expandWildcards vhosts (merge [] entries) =
      explicitPart entries ++ expandedPart vhosts entries := rfl

/-- What is left of repeated identities is the first policy of each. -/
lemma mem_merge_nil_iff {entries : List Policy} {p : Policy} :
    p ∈ merge [] entries ↔ firstOf entries p.key = some p := by
  rw [merge, List.nil_append, mem_unseen_iff]
  simp

lemma vhost_of_mem_wildcardPart {entries : List Policy} {w : Policy}
    (h : w ∈ wildcardPart entries) : w.vhost = "*" :=
  isWildcard_iff.1 (List.mem_filter.1 h).2

/-- The part by name holds the first entry by name of each identity. -/
lemma mem_explicitPart_iff {entries : List Policy} {p : Policy} :
    p ∈ explicitPart entries ↔ firstExplicit? entries p.key = some p := by
  rw [explicitPart, List.mem_filter, mem_merge_nil_iff]
  by_cases hp : p.vhost = "*"
  · simp [firstExplicit?_wildcard (k := p.key) entries hp, isWildcard_iff.2 hp]
  · have hwild : p.isWildcard = false := Bool.eq_false_iff.2 fun h => hp (isWildcard_iff.1 h)
    simp [firstExplicit?_eq_of_ne (k := p.key) entries hp, hwild]

/-- The identities of the part by name are those that some entry has by name. -/
lemma mem_keys_explicitPart_iff {entries : List Policy} {k : Key} :
    k ∈ (explicitPart entries).map key ↔ ∃ q, firstExplicit? entries k = some q := by
  simp only [List.mem_map, mem_explicitPart_iff]
  constructor
  · rintro ⟨p, hp, rfl⟩
    exact ⟨p, hp⟩
  · rintro ⟨q, hq⟩
    obtain rfl := (firstExplicit?_some hq).2
    exact ⟨q, hq, rfl⟩

/-- Dropping repeated identities keeps the first wildcard entry of every name. -/
lemma firstOf_wildcardPart (entries : List Policy) (name : String) :
    firstOf (wildcardPart entries) (wildcardKey name) = firstWildcard? entries name := by
  rw [wildcardPart, firstOf_filter _ fun p hp => isWildcard_iff.2 (key_eq_wildcardKey_iff.1 hp).1,
    merge, List.nil_append, firstOf_unseen _ (by simp), firstWildcard?_eq]

/-- A copy stands for an identity that no entry has by name, on a virtual host that there is. -/
lemma mem_expandedPart_iff {vhosts : List String} {entries : List Policy} {p : Policy} :
    p ∈ expandedPart vhosts entries ↔ firstExplicit? entries p.key = none ∧ p.vhost ∈ vhosts ∧
      ∃ w, firstWildcard? entries p.name = some w ∧ p = w.setVhost p.vhost := by
  rw [expandedPart, mem_unseen_iff, mem_keys_explicitPart_iff, ← Option.isSome_iff_exists,
    Option.not_isSome_iff_eq_none,
    firstOf_flatMap_copies _ _ fun w hw => vhost_of_mem_wildcardPart hw]
  change _ ∧ (if p.vhost ∈ vhosts then
    (firstOf _ (wildcardKey p.name)).map (setVhost p.vhost) else none) = some p ↔ _
  rw [firstOf_wildcardPart]
  by_cases hv : p.vhost ∈ vhosts
  · simp only [hv, if_true, Option.map_eq_some_iff, true_and]
    simp only [eq_comm (b := p)]
  · simp [hv]

/-- What is left of repeated identities stands in the order of the entries. -/
lemma pairwise_placeOf_merge_nil (entries : List Policy) :
    (merge [] entries).Pairwise fun p q => placeOf entries p.key < placeOf entries q.key :=
  pairwise_placeOf_unseen [] entries

lemma mem_expandWildcards_iff {vhosts : List String} {entries : List Policy} {p : Policy} :
    p ∈ expandWildcards vhosts (merge [] entries) ↔
      p ∈ explicitPart entries ∨ p ∈ expandedPart vhosts entries := by
  rw [expandWildcards_merge_nil, List.mem_append]

/-- The identities by name, and the names of wildcard entries on every virtual host. -/
lemma exists_mem_expandWildcards_iff {vhosts : List String} {entries : List Policy} {k : Key} :
    (∃ p ∈ expandWildcards vhosts (merge [] entries), p.key = k) ↔
      (∃ q, firstExplicit? entries k = some q) ∨
        k.vhost ∈ vhosts ∧ ∃ w, firstWildcard? entries k.name = some w := by
  constructor
  · rintro ⟨p, hp, rfl⟩
    rcases mem_expandWildcards_iff.1 hp with hp | hp
    · exact Or.inl ⟨p, mem_explicitPart_iff.1 hp⟩
    · obtain ⟨-, hv, w, hw, -⟩ := mem_expandedPart_iff.1 hp
      exact Or.inr ⟨hv, w, hw⟩
  · intro h
    -- an entry by name takes the identity; otherwise it is left to the copies
    cases hexplicit : firstExplicit? entries k with
    | some q =>
        obtain rfl := (firstExplicit?_some hexplicit).2
        exact ⟨q, mem_expandWildcards_iff.2 (Or.inl (mem_explicitPart_iff.2 hexplicit)), rfl⟩
    | none =>
        obtain ⟨hv, w, hw⟩ := h.resolve_left (by simp [hexplicit])
        have hkey : (w.setVhost k.vhost).key = k := by
          cases k
          simp [key, setVhost_vhost, setVhost_name, (firstWildcard?_some hw).2]
        refine ⟨w.setVhost k.vhost, mem_expandWildcards_iff.2 (Or.inr ?_), hkey⟩
        rw [mem_expandedPart_iff, hkey]
        exact ⟨hexplicit, hv, w, (firstWildcard?_some hw).2 ▸ hw, rfl⟩

/-- **Expansion selects by precedence**: of entries without repeated identities, expansion makes
exactly the policies that the entries and the virtual hosts select. -/
lemma selected_expandWildcards (vhosts : List String) (entries : List Policy) :
    Selected entries vhosts (expandWildcards vhosts (merge [] entries)) where
  mem_iff k := by
    rw [exists_mem_expandWildcards_iff, exists_firstExplicit?_iff, exists_firstWildcard?_iff]
  unique := pairwise_merge _ ((pairwise_merge_nil entries).sublist List.filter_sublist)
  winner p hp := by
    rcases mem_expandWildcards_iff.1 hp with hp | hp
    · rw [mem_explicitPart_iff.1 hp]
    · obtain ⟨hnone, -, hcopy⟩ := mem_expandedPart_iff.1 hp
      rw [hnone]
      exact hcopy
  order := by
    refine ⟨_, _, expandWildcards_merge_nil vhosts entries, ?_, ?_, ?_, ?_⟩
    · exact fun p hp => mem_explicitPart_iff.1 hp
    · exact fun p hp => (mem_expandedPart_iff.1 hp).1
    · -- both parts are filtered from one list and keep its order
      exact (pairwise_placeOf_merge_nil entries).sublist List.filter_sublist
    · exact pairwise_copies _ vhosts (fun w hw => vhost_of_mem_wildcardPart hw)
        ((pairwise_placeOf_merge_nil entries).sublist List.filter_sublist)

/-- Where no policy is for every virtual host there is nothing to expand. -/
lemma expandWildcards_of_not_hasWildcard {ps : List Policy} (vhosts : List String)
    (h : hasWildcard ps = false) : expandWildcards vhosts ps = ps := by
  have hwild : ∀ p ∈ ps, p.isWildcard = false := by
    simpa [hasWildcard] using h
  have hnone : ps.filter isWildcard = [] :=
    List.filter_eq_nil_iff.2 fun p hp => by simp [hwild p hp]
  have hall : (ps.filter fun p => !p.isWildcard) = ps :=
    List.filter_eq_self.2 fun p hp => by simp [hwild p hp]
  rw [expandWildcards, hnone, hall, List.flatMap_nil, merge_nil]

end BrokerPolicy.Policy
