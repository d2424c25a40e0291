import Mathlib.Tactic
import BrokerPolicy.Config.Merge

/-!
First of each identity: the laws of `unseen` and of `merge`.

* **Look-up.** `firstOf ps k` is the first policy of a list with the identity `k`. Dropping the
  policies of a repeated identity does not change it (`firstOf_unseen`), and in a list without
  repeated identities to be in the list is to be looked up (`mem_iff_firstOf`). So `mem_unseen_iff`:
  what is kept is, for each identity not yet seen, the first policy of it.
* **Order.** `placeOf ps k` is the place of this first policy, and what is kept stands in the order
  of the places: `pairwise_placeOf_unseen`.
* **Composition.** Several passes are one: `unseen_unseen`, `unseen_append`, and from them
  `merge_merge`, `merge_merge_nil`, `merge_assoc` and `merge_merge_self`.
* **Addition.** `Added ps qs added` says what `qs` adds to `ps`, and only one list is that
  (`Added.unique`). It is what a merge puts behind `ps`: `merge_first_wins`.
-/

namespace BrokerPolicy.Policy

/-- The first policy of a list with an identity. -/
def firstOf (ps : List Policy) (k : Key) : Option Policy :=
  ps.find? fun p => decide (p.key = k)

/-- The place of the first policy with an identity, the length of the list if there is none. -/
def placeOf (ps : List Policy) (k : Key) : ℕ :=
  ps.findIdx fun p => decide (p.key = k)

/-! ### Look-up -/

lemma firstOf_nil (k : Key) : firstOf [] k = none := rfl

lemma firstOf_cons (p : Policy) (ps : List Policy) (k : Key) :
    firstOf (p :: ps) k = if p.key = k then some p else firstOf ps k := by
  by_cases h : p.key = k <;> simp [firstOf, h]

/-- The first of two lists that has the identity decides. -/
lemma firstOf_append (ps qs : List Policy) (k : Key) :
    firstOf (ps ++ qs) k = (firstOf ps k).or (firstOf qs k) :=
  List.find?_append

lemma mem_of_firstOf {ps : List Policy} {k : Key} {p : Policy} (h : firstOf ps k = some p) :
    p ∈ ps :=
  List.mem_of_find?_eq_some h

/-- A condition that policies of the identity meet does not hide them. -/
lemma firstOf_filter {f : Policy → Bool} {k : Key} (ps : List Policy)
    (h : ∀ p : Policy, p.key = k → f p = true) : firstOf (ps.filter f) k = firstOf ps k := by
  rw [firstOf, firstOf, List.find?_filter]
  congr 1
  funext p
  by_cases hp : p.key = k
  · simp [hp, h p hp]
  · simp [hp]

/-- Without repeated identities, to be in a list is to be found in it. -/
lemma mem_iff_firstOf {ps : List Policy} (h : ps.Pairwise (·.key ≠ ·.key)) {p : Policy} :
    p ∈ ps ↔ firstOf ps p.key = some p := by
  refine ⟨fun hp => ?_, mem_of_firstOf⟩
  induction ps with
  | nil => exact absurd hp List.not_mem_nil
  | cons q qs ih =>
      obtain ⟨hq, hqs⟩ := List.pairwise_cons.1 h
      rw [firstOf_cons]
      rcases List.mem_cons.1 hp with rfl | hp
      · rw [if_pos rfl]
      · rw [if_neg (hq p hp), ih hqs hp]

/-- A pass over a list keeps the first policy of every identity that was not seen before. -/
lemma firstOf_unseen {seen : List Key} {k : Key} (ps : List Policy) (h : k ∉ seen) :
    firstOf (unseen seen ps) k = firstOf ps k := by
  induction ps generalizing seen with
  | nil => rfl
  | cons p ps ih =>
      rw [unseen, firstOf_cons]
      split
      · next hp =>
        have hne : p.key ≠ k := fun heq => h (heq ▸ hp)
        rw [ih h, if_neg hne]
      · rw [firstOf_cons]
        by_cases heq : p.key = k
        · rw [if_pos heq, if_pos heq]
        · have hk : k ∉ p.key :: seen := List.not_mem_cons_of_ne_of_not_mem (Ne.symm heq) h
          rw [if_neg heq, if_neg heq, ih hk]

/-- Kept are, of the identities not yet seen, the first policies. -/
lemma mem_unseen_iff {seen : List Key} {ps : List Policy} {p : Policy} :
    p ∈ unseen seen ps ↔ p.key ∉ seen ∧ firstOf ps p.key = some p := by
  constructor
  · intro h
    have hseen := (mem_unseen h).2
    rw [mem_iff_firstOf (pairwise_unseen seen ps), firstOf_unseen ps hseen] at h
    exact ⟨hseen, h⟩
  · rintro ⟨hseen, h⟩
    rwa [mem_iff_firstOf (pairwise_unseen seen ps), firstOf_unseen ps hseen]

/-- A list without repeated identities stays so in a merge. -/
lemma pairwise_merge {ps : List Policy} (qs : List Policy) (h : ps.Pairwise (·.key ≠ ·.key)) :
    (merge ps qs).Pairwise (·.key ≠ ·.key) := by
  refine List.pairwise_append.2 ⟨h, pairwise_unseen _ qs, fun p hp q hq heq => ?_⟩
  exact (mem_unseen hq).2 (heq ▸ List.mem_map_of_mem hp)

/-- A list merged into nothing has no identity twice. -/
lemma pairwise_merge_nil (ps : List Policy) : (merge [] ps).Pairwise (·.key ≠ ·.key) :=
  pairwise_merge ps List.Pairwise.nil

/-! ### Order -/

lemma placeOf_cons_self (p : Policy) (ps : List Policy) : placeOf (p :: ps) p.key = 0 := by
  simp [placeOf, List.findIdx_cons]

lemma placeOf_cons_of_ne {p : Policy} {k : Key} (ps : List Policy) (h : p.key ≠ k) :
    placeOf (p :: ps) k = placeOf ps k + 1 := by
  simp [placeOf, List.findIdx_cons, h]

/-- What is kept stands in the order of the places in the whole list. -/
lemma pairwise_placeOf_unseen (seen : List Key) (ps : List Policy) :
    (unseen seen ps).Pairwise fun p q => placeOf ps p.key < placeOf ps q.key := by
  induction ps generalizing seen with
  | nil => exact List.Pairwise.nil
  | cons p ps ih =>
      -- a policy kept from the rest has another identity and stands one place further back
      have later {seen : List Key} (hp : p.key ∈ seen) : (unseen seen ps).Pairwise fun q r =>
          placeOf (p :: ps) q.key < placeOf (p :: ps) r.key := by
        refine (ih seen).imp_of_mem fun {q r} hq hr hqr => ?_
        have hq : p.key ≠ q.key := fun heq => (mem_unseen hq).2 (heq ▸ hp)
        have hr : p.key ≠ r.key := fun heq => (mem_unseen hr).2 (heq ▸ hp)
        rw [placeOf_cons_of_ne ps hq, placeOf_cons_of_ne ps hr]
        omega
      rw [unseen]
      split
      · next hp => exact later hp
      · refine List.pairwise_cons.2 ⟨fun q hq => ?_, later List.mem_cons_self⟩
        have hne : p.key ≠ q.key := fun heq => (mem_unseen hq).2 (heq ▸ List.mem_cons_self)
        rw [placeOf_cons_self, placeOf_cons_of_ne ps hne]
        omega

/-! ### Composition -/

/-- Only which identities are seen counts, not their order or number. -/
lemma unseen_congr {seen seen' : List Key} (ps : List Policy)
    (h : ∀ k, k ∈ seen ↔ k ∈ seen') : unseen seen ps = unseen seen' ps := by
  induction ps generalizing seen seen' with
  | nil => rfl
  | cons p ps ih =>
      have hcons : ∀ k, k ∈ p.key :: seen ↔ k ∈ p.key :: seen' := fun k => by
        rw [List.mem_cons, List.mem_cons, h]
      simp only [unseen, h p.key, ih h, ih hcons]

/-- A pass over two lists is one over the first and then, with more seen, one over the second. -/
lemma unseen_append (seen : List Key) (ps qs : List Policy) :
    unseen seen (ps ++ qs) = unseen seen ps ++ unseen (ps.map key ++ seen) qs := by
  induction ps generalizing seen with
  | nil => rfl
  | cons p ps ih =>
      rw [List.cons_append, unseen, unseen]
      split
      · next hp =>
        rw [ih, unseen_congr qs]
        simp only [List.map_cons, List.cons_append, List.mem_cons]
        grind
      · rw [ih, List.cons_append, unseen_congr qs]
        simp only [List.map_cons, List.cons_append, List.mem_cons, List.mem_append]
        grind

/-- Two passes keep what one pass keeps that has seen both lists of identities. -/
lemma unseen_unseen (seen seen' : List Key) (ps : List Policy) :
    unseen seen' (unseen seen ps) = unseen (seen ++ seen') ps := by
  induction ps generalizing seen seen' with
  | nil => rfl
  | cons p ps ih =>
      by_cases hseen : p.key ∈ seen
      · rw [unseen, if_pos hseen, ih, unseen, if_pos (List.mem_append_left _ hseen)]
      · rw [unseen, if_neg hseen, unseen, ih, ih, unseen]
        by_cases hseen' : p.key ∈ seen'
        · rw [if_pos hseen', if_pos (List.mem_append_right _ hseen'), unseen_congr]
          simp only [List.cons_append, List.mem_cons, List.mem_append]
          grind
        · rw [if_neg hseen', if_neg (by simp [hseen, hseen']), unseen_congr]
          simp only [List.cons_append, List.mem_cons, List.mem_append]
          grind

/-- A list added to a merge is added to what is merged. -/
lemma merge_merge (ps qs rs : List Policy) :
    merge (merge ps qs) rs = merge ps (qs ++ rs) := by
  have hseen : ∀ k, k ∈ (merge ps qs).map key ↔ k ∈ qs.map key ++ ps.map key := fun k => by
    rw [keys_merge, List.mem_append, or_comm]
  rw [merge, unseen_congr rs hseen, merge, merge, unseen_append, List.append_assoc]

/-- Of a list that is merged, repeated identities can be dropped before. -/
lemma merge_merge_nil (ps qs : List Policy) : merge ps (merge [] qs) = merge ps qs := by
  rw [merge, merge, List.nil_append, List.map_nil, unseen_unseen, List.nil_append]
  rfl

/-- A list that was merged into another adds to a third what it and the other add. -/
lemma merge_assoc (ps qs rs : List Policy) : merge (merge ps qs) rs = merge ps (merge qs rs) := by
  have hseen : ∀ k, k ∈ qs.map key ++ ps.map key ↔ k ∈ qs.map key ++ (qs.map key ++ ps.map key) :=
    fun k => by rw [List.mem_append, List.mem_append, List.mem_append, ← or_assoc, or_self]
  rw [merge_merge, merge, unseen_append, merge, merge, unseen_append, unseen_unseen,
    unseen_congr rs hseen]

/-- Nothing is kept of what has been seen. -/
lemma unseen_eq_nil {seen : List Key} {ps : List Policy} (h : ∀ p ∈ ps, p.key ∈ seen) :
    unseen seen ps = [] := by
  refine List.eq_nil_iff_forall_not_mem.2 fun p hp => ?_
  obtain ⟨hmem, hseen⟩ := mem_unseen hp
  exact hseen (h p hmem)

/-- A list adds nothing when it is merged again. -/
lemma merge_merge_self (ps qs : List Policy) : merge (merge ps qs) qs = merge ps qs := by
  have hseen : ∀ p ∈ qs, p.key ∈ (merge ps qs).map key := fun p hp =>
    keys_merge.2 (Or.inr (List.mem_map_of_mem hp))
  conv_lhs => rw [merge, unseen_eq_nil hseen, List.append_nil]

/-! ### What a merge adds -/

/-- What a list adds to another: a part of it in its order, which has of each identity that the
other does not have the first policy and no further one. -/
structure Added (ps qs added : List Policy) : Prop where
  sublist : added.Sublist qs
  mem_iff : ∀ p, p ∈ added ↔ p.key ∉ ps.map key ∧ firstOf qs p.key = some p
  order : added.Pairwise fun p q => placeOf qs p.key < placeOf qs q.key

/-- Only one list is added. -/
lemma Added.unique {ps qs added added' : List Policy} (h : Added ps qs added)
    (h' : Added ps qs added') : added = added' := by
  have nodup {xs : List Policy}
      (hxs : xs.Pairwise fun p q => placeOf qs p.key < placeOf qs q.key) : xs.Nodup :=
    hxs.imp fun hlt heq => hlt.ne (congrArg (placeOf qs ·.key) heq)
  have hperm : added.Perm added' :=
    (List.perm_ext_iff_of_nodup (nodup h.order) (nodup h'.order)).2 fun p => by
      rw [h.mem_iff, h'.mem_iff]
  exact hperm.eq_of_pairwise (fun p q _ _ hpq hqp => absurd hpq (lt_asymm hqp)) h.order h'.order

/-- A pass drops policies and moves none. -/
lemma sublist_unseen (seen : List Key) (ps : List Policy) : (unseen seen ps).Sublist ps := by
  induction ps generalizing seen with
  | nil => exact List.Sublist.refl []
  | cons p ps ih =>
      rw [unseen]
      split
      · exact (ih seen).cons p
      · exact (ih (p.key :: seen)).cons_cons p

/-- What a merge adds is what a pass leaves that has seen the first list. -/
lemma added_unseen (ps qs : List Policy) : Added ps qs (unseen (ps.map key) qs) where
  sublist := sublist_unseen _ qs
  mem_iff _ := mem_unseen_iff
  order := pairwise_placeOf_unseen _ qs

/-- **The first policy of an identity wins**: a merge is the first list as it is, followed by what
the second adds to it, and by nothing else. It does not matter in which order three lists are
merged, merging a list again adds nothing, and the identities are those of both lists. -/
theorem merge_first_wins (ps qs rs : List Policy) :
    (∃ added, merge ps qs = ps ++ added ∧ ∀ other, Added ps qs other ↔ other = added) ∧
      merge (merge ps qs) rs = merge ps (merge qs rs) ∧
      merge (merge ps qs) qs = merge ps qs ∧
      ∀ k, k ∈ (merge ps qs).map key ↔ k ∈ ps.map key ∨ k ∈ qs.map key := by
  have hadded := added_unseen ps qs
  refine ⟨⟨_, rfl, fun other => ⟨fun hother => hother.unique hadded, ?_⟩⟩, merge_assoc ps qs rs,
    merge_merge_self ps qs, fun k => keys_merge⟩
  rintro rfl
  exact hadded

end BrokerPolicy.Policy
