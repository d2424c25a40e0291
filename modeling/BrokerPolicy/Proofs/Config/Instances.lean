import BrokerPolicy.Proofs.Config.Precedence

/-!
What expansion leaves alone.

The policies by name stay as they are and in front, whatever else is in the list. Behind them stand
instances of wildcard policies (`InstanceOf`), which differ from these in the virtual host alone:
`expandWildcards_eq_append`, `instanceOf_of_mem_instances`. An instance is a wildcard policy again
only on a virtual host that is itself called like the wildcard (`hasWildcard_expandWildcards_iff`),
and where there is none, expansion has nothing left to do. Together: `expandWildcards_instantiates`.
-/

namespace BrokerPolicy.Policy

/-- The policy is a wildcard policy on a virtual host: it is of the same kind, demands the same and
differs in nothing but the virtual host. -/
structure InstanceOf (w p : Policy) : Prop where
  wildcard : w.vhost = "*"
  name : p.name = w.name
  pattern : p.target.pattern = w.target.pattern
  scope : p.target.scope = w.target.scope
  priority : p.target.priority = w.target.priority
  typeTag : p.target.typeTag = w.target.typeTag
  rule : p.rule = w.rule

variable {vhosts : List String} {ps : List Policy}

/-- The copies that expansion adds to the policies by name. -/
def instances (vhosts : List String) (ps : List Policy) : List Policy :=
  unseen ((ps.filter fun p => !p.isWildcard).map key)
    ((ps.filter isWildcard).flatMap (copies vhosts))

/-- An expansion is the policies by name and then the instances. -/
lemma expandWildcards_eq_append (vhosts : List String) (ps : List Policy) :
    expandWildcards vhosts ps = (ps.filter fun p => p.vhost != "*") ++ instances vhosts ps :=
  rfl

/-- Every instance comes from a wildcard policy and is on one of the virtual hosts. -/
lemma instanceOf_of_mem_instances {p : Policy} (h : p ∈ instances vhosts ps) :
    p.vhost ∈ vhosts ∧ ∃ w ∈ ps, InstanceOf w p := by
  obtain ⟨w, hw, hcopy⟩ := List.mem_flatMap.1 (mem_unseen h).1
  obtain ⟨hmem, hwild⟩ := List.mem_filter.1 hw
  obtain ⟨hvhost, hp⟩ := mem_copies_iff.1 hcopy
  refine ⟨hvhost, w, hmem, ?_⟩
  rw [hp]
  exact ⟨isWildcard_iff.1 hwild, rfl, rfl, rfl, rfl, rfl, rfl⟩

/-- A wildcard policy has an instance, or a policy by name in its place, on every virtual host. -/
lemma exists_mem_expandWildcards {w : Policy} {v : String} (hw : w ∈ ps) (hwild : w.vhost = "*")
    (hv : v ∈ vhosts) : ∃ p ∈ expandWildcards vhosts ps, p.key = ⟨v, w.name⟩ := by
  have hcopy : w.setVhost v ∈ (ps.filter isWildcard).flatMap (copies vhosts) :=
    List.mem_flatMap.2 ⟨w, List.mem_filter.2 ⟨hw, isWildcard_iff.2 hwild⟩,
      mem_copies_iff.2 ⟨hv, rfl⟩⟩
  have hkey : (w.setVhost v).key ∈ (expandWildcards vhosts ps).map key :=
    keys_merge.2 (Or.inr (List.mem_map_of_mem hcopy))
  exact List.mem_map.1 hkey

/-- Of a virtual host that is called like the wildcard, the instances are wildcard policies. -/
lemma hasWildcard_expandWildcards_iff :
    hasWildcard (expandWildcards vhosts ps) = true ↔ hasWildcard ps = true ∧ "*" ∈ vhosts := by
  rw [hasWildcard_iff, hasWildcard_iff]
  constructor
  · rintro ⟨p, hp, hwild⟩
    rw [expandWildcards_eq_append] at hp
    rcases List.mem_append.1 hp with hp | hp
    · have hne := (List.mem_filter.1 hp).2
      rw [hwild] at hne
      cases hne
    · obtain ⟨hvhost, w, hw, hinstance⟩ := instanceOf_of_mem_instances hp
      exact ⟨⟨w, hw, hinstance.wildcard⟩, hwild ▸ hvhost⟩
  · rintro ⟨⟨w, hw, hwild⟩, hv⟩
    obtain ⟨p, hp, hkey⟩ := exists_mem_expandWildcards hw hwild hv
    exact ⟨p, hp, congrArg Key.vhost hkey⟩

/-- **Expansion only makes instances of wildcard policies**: the policies by name come first, as
they are and in their order, and every further one is an instance of a wildcard policy on one of the
virtual hosts. Every wildcard policy has its identity on every virtual host. A wildcard policy
remains only if a virtual host is called like the wildcard; otherwise expanding again changes
nothing, on whatever virtual hosts, and neither does expanding a list without wildcard policies. -/
theorem expandWildcards_instantiates (vhosts : List String) (ps : List Policy) :
    (∃ added, expandWildcards vhosts ps = (ps.filter fun p => p.vhost != "*") ++ added ∧
      ∀ p ∈ added, p.vhost ∈ vhosts ∧ ∃ w ∈ ps, InstanceOf w p) ∧
      (∀ w ∈ ps, w.vhost = "*" → ∀ v ∈ vhosts,
        ∃ p ∈ expandWildcards vhosts ps, p.key = ⟨v, w.name⟩) ∧
      (hasWildcard (expandWildcards vhosts ps) = true ↔
        hasWildcard ps = true ∧ "*" ∈ vhosts) ∧
      ("*" ∉ vhosts → ∀ vhosts',
        expandWildcards vhosts' (expandWildcards vhosts ps) = expandWildcards vhosts ps) ∧
      (hasWildcard ps = false → expandWildcards vhosts ps = ps) := by
  refine ⟨⟨_, expandWildcards_eq_append vhosts ps, fun p => instanceOf_of_mem_instances⟩,
    fun w hw hwild v hv => exists_mem_expandWildcards hw hwild hv,
    hasWildcard_expandWildcards_iff, fun hvhosts vhosts' => ?_,
    expandWildcards_of_not_hasWildcard vhosts⟩
  refine expandWildcards_of_not_hasWildcard vhosts' (Bool.eq_false_iff.2 fun h => ?_)
  exact hvhosts (hasWildcard_expandWildcards_iff.1 h).2

end BrokerPolicy.Policy
