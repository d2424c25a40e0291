import BrokerPolicy.Json.Value
import Mathlib.Data.List.Nodup
import Mathlib.Tactic

/-!
Members that are put in the order of their keys.

If no key is given twice, nothing is lost (`perm_ofList`): a key has the value that it is given with
(`get?_ofList`), and only the members count, not the order in which they are given
(`ofList_eq_ofList_iff`).
-/

namespace BrokerPolicy.Json.Members

variable {xs ys : List (String × Value)}

/-- No key stands twice. -/
def Distinct (xs : List (String × Value)) : Prop :=
  (xs.map Prod.fst).Nodup

lemma Distinct.perm (h : Distinct xs) (hperm : xs.Perm ys) : Distinct ys :=
  (hperm.map Prod.fst).nodup h

lemma Distinct.nodup (h : Distinct xs) : xs.Nodup :=
  .of_map Prod.fst h

/-- With distinct keys, members are the same in any order if there are as many of them and none is
missing. -/
lemma Distinct.perm_iff (h : Distinct xs) : xs.Perm ys ↔ xs.length = ys.length ∧ xs ⊆ ys := by
  constructor
  · exact fun hperm => ⟨hperm.length_eq, hperm.subset⟩
  · rintro ⟨hlength, hsubset⟩
    exact (h.nodup.subperm hsubset).perm_of_length_le hlength.ge

lemma distinct_map {f : Value → Value} : Distinct (xs.map (Prod.map id f)) ↔ Distinct xs := by
  rw [Distinct, Distinct, List.map_map]
  rfl

/-- To insert a new key is, up to the order, to put the member in front. -/
lemma perm_insert {key : String} {ms : Members} (h : key ∉ ms.map Prod.fst) (value : Value) :
    (ms.insert key value).Perm ((key, value) :: ms) := by
  induction ms with
  | nil => exact .refl _
  | cons m ms ih =>
      obtain ⟨k, v⟩ := m
      obtain ⟨hne, hms⟩ : key ≠ k ∧ key ∉ ms.map Prod.fst := not_or.1 (mt List.mem_cons.2 h)
      rw [insert, if_neg hne]
      split
      · exact .refl _
      · exact ((ih hms).cons (k, v)).trans (.swap _ _ _)

/-- Members of distinct keys are only brought in another order. -/
lemma perm_ofList (h : Distinct xs) : (ofList xs).Perm xs := by
  induction xs using List.reverseRecOn with
  | nil => exact .refl _
  | append_singleton xs x ih =>
      rw [Distinct, List.map_append, List.nodup_append] at h
      obtain ⟨hxs, -, hdisjoint⟩ := h
      have hx : x.1 ∉ (ofList xs).map Prod.fst := by
        rw [((ih hxs).map Prod.fst).mem_iff]
        exact fun hmem => hdisjoint x.1 hmem x.1 (by simp) rfl
      have hofList : ofList (xs ++ [x]) = (ofList xs).insert x.1 x.2 := by
        rw [ofList, List.foldl_append]
        rfl
      rw [hofList]
      have hconcat : (x :: ofList xs).Perm (xs ++ [x]) :=
        ((ih hxs).cons x).trans (List.perm_append_singleton x xs).symm
      exact (perm_insert hx x.2).trans hconcat

/-- With distinct keys, every member is found. -/
lemma get?_eq_some_iff {key : String} {value : Value} (h : Distinct xs) :
    get? xs key = some value ↔ (key, value) ∈ xs := by
  induction xs with
  | nil => simp [get?]
  | cons x xs ih =>
      obtain ⟨k, v⟩ := x
      obtain ⟨hk, hxs⟩ := List.nodup_cons.1 h
      have ih : List.lookup key xs = some value ↔ (key, value) ∈ xs := ih hxs
      rw [get?, List.mem_cons, Prod.mk.injEq]
      by_cases hkey : key = k
      · subst hkey
        have hnot : (key, value) ∉ xs := fun hmem =>
          hk (List.mem_map.2 ⟨(key, value), hmem, rfl⟩)
        simp [hnot, eq_comm]
      · have hbeq : (key == k) = false := beq_false_of_ne hkey
        simp [List.lookup_cons, hbeq, hkey, ih]

/-- With distinct keys, putting members in order does not change what a key finds. -/
lemma get?_ofList (h : Distinct xs) (key : String) : (ofList xs).get? key = get? xs key := by
  ext value
  rw [get?_eq_some_iff (h.perm (perm_ofList h).symm), get?_eq_some_iff h, (perm_ofList h).mem_iff]

/-- There is only one way to put members in order. -/
lemma eq_of_perm (hxs : Sorted xs) (hys : Sorted ys) (hperm : xs.Perm ys) : xs = ys := by
  refine List.Perm.eq_of_pairwise (fun x y _ _ hlt hgt => ?_) hxs hys hperm
  exact absurd (String.lt_trans hlt hgt) (String.lt_irrefl x.1)

/-- Keys in strict order are distinct. -/
lemma Distinct.of_sorted (h : Sorted xs) : Distinct xs := by
  rw [sorted_iff] at h
  exact h.imp String.ne_of_lt

/-- Members of distinct keys are put in the same order if they are the same in any order. -/
lemma ofList_eq_ofList_iff (hxs : Distinct xs) (hys : Distinct ys) :
    ofList xs = ofList ys ↔ xs.Perm ys := by
  constructor
  · intro h
    have hperm := perm_ofList hys
    rw [← h] at hperm
    exact (perm_ofList hxs).symm.trans hperm
  · intro h
    exact eq_of_perm (sorted_ofList xs) (sorted_ofList ys)
      ((perm_ofList hxs).trans (h.trans (perm_ofList hys).symm))

/-- Members that are in order are not moved. -/
lemma ofList_of_sorted (h : Sorted xs) : ofList xs = xs :=
  eq_of_perm (sorted_ofList xs) h (perm_ofList (.of_sorted h))

end BrokerPolicy.Json.Members
