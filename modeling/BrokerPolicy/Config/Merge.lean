import BrokerPolicy.Policy.Basic

/-!
Putting lists of policies together, by identity.

* `Policy.merge ps qs` appends to `ps` the policies of `qs` whose identity has not been seen before,
  the first of each identity: `keys_merge`, `merge_nil`.
* `Policy.expandWildcards` replaces every policy for the virtual host `*` by a copy for each virtual
  host of a list. Policies for a virtual host by name come first and win: their identities are not
  copied over.
-/
namespace BrokerPolicy.Policy

/-- The policies whose identity is not among those seen, the first of each identity. -/
def unseen (seen : List Key) : List Policy → List Policy
  | [] => []
  | p :: ps => if p.key ∈ seen then unseen seen ps else p :: unseen (p.key :: seen) ps

/-- The first list, and of the second the policies of a new identity. -/
def merge (ps qs : List Policy) : List Policy :=
  ps ++ unseen (ps.map key) qs

/-- The name that stands for every virtual host. -/
def wildcard : String := "*"

/-- The policy is for every virtual host. -/
def isWildcard (p : Policy) : Bool :=
  p.vhost == wildcard

/-- Some policy is for every virtual host. -/
def hasWildcard (ps : List Policy) : Bool :=
  ps.any isWildcard

/-- A copy of a policy for each virtual host. -/
def copies (vhosts : List String) (p : Policy) : List Policy :=
  vhosts.map fun vhost => { p with target.vhost := vhost }

/-- The policies with those for every virtual host replaced by copies. -/
def expandWildcards (vhosts : List String) (ps : List Policy) : List Policy :=
  merge (ps.filter fun p => !p.isWildcard) ((ps.filter isWildcard).flatMap (copies vhosts))

/-! ### Identities of a merge -/

theorem merge_nil (ps : List Policy) : merge ps [] = ps := by
  simp [merge, unseen]

theorem mem_unseen {seen : List Key} {ps : List Policy} {p : Policy} (h : p ∈ unseen seen ps) :
    p ∈ ps ∧ p.key ∉ seen := by
  induction ps generalizing seen with
  | nil => simp [unseen] at h
  | cons q qs ih =>
    unfold unseen at h
    split at h
    · have := ih h
      exact ⟨List.mem_cons_of_mem _ this.1, this.2⟩
    · next hq =>
      rcases List.mem_cons.1 h with rfl | h
      · exact ⟨List.mem_cons_self, hq⟩
      · have := ih h
        exact ⟨List.mem_cons_of_mem _ this.1, fun hk => this.2 (List.mem_cons_of_mem _ hk)⟩

/-- Unseen policies have different identities. -/
theorem pairwise_unseen (seen : List Key) (ps : List Policy) :
    (unseen seen ps).Pairwise (·.key ≠ ·.key) := by
  induction ps generalizing seen with
  | nil => simp [unseen]
  | cons p ps ih =>
    unfold unseen
    split
    · exact ih seen
    · refine List.pairwise_cons.2 ⟨fun q hq heq => ?_, ih _⟩
      exact (mem_unseen hq).2 (heq ▸ List.mem_cons_self)

/-- A merge has the identities of both lists. -/
theorem keys_merge {ps qs : List Policy} {k : Key} :
    k ∈ (merge ps qs).map key ↔ k ∈ ps.map key ∨ k ∈ qs.map key := by
  have unseen_keys (seen : List Key) (qs : List Policy) :
      k ∈ (unseen seen qs).map key ∨ k ∈ seen ↔ k ∈ qs.map key ∨ k ∈ seen := by
    induction qs generalizing seen with
    | nil => simp [unseen]
    | cons q qs ih =>
      unfold unseen
      split
      · next hq =>
        rw [ih]
        simp only [List.map_cons, List.mem_cons]
        constructor
        · rintro (h | h) <;> simp [h]
        · rintro ((rfl | h) | h)
          · exact .inr hq
          · exact .inl h
          · exact .inr h
      · have := ih (q.key :: seen)
        simp only [List.map_cons, List.mem_cons] at this ⊢
        grind
  have := unseen_keys (ps.map key) qs
  simp only [merge, List.map_append, List.mem_append]
  grind

end BrokerPolicy.Policy
