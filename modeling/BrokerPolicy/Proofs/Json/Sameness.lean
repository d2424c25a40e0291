import BrokerPolicy.Json.Shape
import BrokerPolicy.Proofs.Json.Members

/-!
Values whose members may be written in any order.

A value is kept with the members of all its objects in the order of their keys, however they were
written (`Value.sorted`). This is an ordered value with the same numbers (`ordered_sorted`,
`whole_sorted`), and the value itself if it was ordered already (`sorted_of_ordered`).

`Value.Same` is equality without regard to the order of members: there are as many members, and each
has the same value in the other object. Unless an object has a key twice (`Value.Distinct`), two
values are the same if and only if they become equal when they are put in order:
`same_iff_sorted_eq`.
-/

namespace BrokerPolicy.Json

mutual

/-- The value with the members of every object in the order of their keys. -/
def Value.sorted : Value → Value
  | .array items => .array (sortedItems items)
  | .object members => .object (Members.ofList (sortedMembers members))
  | v => v

/-- All items put in order. -/
def sortedItems : List Value → List Value
  | [] => []
  | v :: vs => v.sorted :: sortedItems vs

/-- The values of all members put in order; the members themselves stand as they were. -/
def sortedMembers : List (String × Value) → List (String × Value)
  | [] => []
  | (k, v) :: ms => (k, v.sorted) :: sortedMembers ms

end

mutual

/-- No object has a key twice. -/
def Value.Distinct : Value → Prop
  | .array items => itemsDistinct items
  | .object members => Members.Distinct members ∧ membersDistinct members
  | _ => True

/-- No object in the items has a key twice. -/
def itemsDistinct : List Value → Prop
  | [] => True
  | v :: vs => v.Distinct ∧ itemsDistinct vs

/-- No object in the members has a key twice. -/
def membersDistinct : List (String × Value) → Prop
  | [] => True
  | (_, v) :: ms => v.Distinct ∧ membersDistinct ms

end

mutual

/-- The values are equal but for the order of members. -/
def Value.Same : Value → Value → Prop
  | .array vs, .array ws => itemsSame vs ws
  | .object ms, .object ns => ms.length = ns.length ∧ membersSame ms ns
  | v, w => v = w

/-- The items are the same, one by one. -/
def itemsSame : List Value → List Value → Prop
  | v :: vs, w :: ws => v.Same w ∧ itemsSame vs ws
  | [], [] => True
  | _, _ => False

/-- Every member has the same value in another object. -/
def membersSame : List (String × Value) → List (String × Value) → Prop
  | [], _ => True
  | (k, v) :: ms, ns => (∃ w, Members.get? ns k = some w ∧ v.Same w) ∧ membersSame ms ns

end

/-! ### Items and members one by one -/

variable {vs ws : List Value} {ms ns : List (String × Value)}

lemma sortedItems_eq (vs : List Value) : sortedItems vs = vs.map Value.sorted := by
  induction vs with
  | nil => rfl
  | cons v vs ih => rw [sortedItems, List.map_cons, ih]

lemma sortedMembers_eq (ms : List (String × Value)) :
    sortedMembers ms = ms.map (Prod.map id Value.sorted) := by
  induction ms with
  | nil => rfl
  | cons m ms ih => rw [sortedMembers, List.map_cons, ih, Prod.map_apply, id]

lemma itemsDistinct_iff : itemsDistinct vs ↔ ∀ v ∈ vs, v.Distinct := by
  induction vs with
  | nil => simp [itemsDistinct]
  | cons v vs ih => simp [itemsDistinct, ih]

lemma membersDistinct_iff : membersDistinct ms ↔ ∀ m ∈ ms, m.2.Distinct := by
  induction ms with
  | nil => simp [membersDistinct]
  | cons m ms ih => simp [membersDistinct, ih]

lemma itemsSame_iff : itemsSame vs ws ↔ List.Forall₂ Value.Same vs ws := by
  induction vs generalizing ws with
  | nil => cases ws <;> simp [itemsSame]
  | cons v vs ih => cases ws <;> simp [itemsSame, ih]

lemma membersSame_iff :
    membersSame ms ns ↔ ∀ m ∈ ms, ∃ w, Members.get? ns m.1 = some w ∧ m.2.Same w := by
  induction ms with
  | nil => simp [membersSame]
  | cons m ms ih => rw [membersSame, ih, List.forall_mem_cons]

namespace Value

section Induction

variable {P : Value → Prop} (scalar : ∀ v : Value, v.depth = 0 → P v)
  (array : ∀ vs, (∀ v ∈ vs, P v) → P (.array vs))
  (object : ∀ ms, (∀ m ∈ ms, P m.2) → P (.object ms))

include scalar array object

/-- Induction over the items of arrays and the members of objects. -/
theorem ind (v : Value) : P v := by
  obtain ⟨n, hn⟩ : ∃ n, v.depth ≤ n := ⟨_, le_rfl⟩
  induction n generalizing v with
  | zero => exact scalar v (Nat.le_zero.1 hn)
  | succ n ih =>
      cases v with
      | array vs =>
          rw [depth, Nat.add_le_add_iff_right, itemsDepth_le_iff] at hn
          exact array vs fun v hv => ih v (hn v hv)
      | object ms =>
          rw [depth, Nat.add_le_add_iff_right, membersDepth_le_iff] at hn
          exact object ms fun m hm => ih m.2 (hn m hm)
      | _ => exact scalar _ rfl

end Induction

/-! ### Putting a value in order -/

/-- There is nothing to put in order in what does not nest. -/
lemma sorted_of_depth_eq_zero {v : Value} (h : v.depth = 0) : v.sorted = v := by
  cases v with
  | array vs | object ms => cases h
  | _ => rfl

/-- Putting in order keeps the numbers as they are. -/
lemma whole_sorted {v : Value} (h : v.Whole) : v.sorted.Whole := by
  induction v using ind with
  | scalar v hv => rwa [sorted_of_depth_eq_zero hv]
  | array vs ih =>
      rw [Whole, itemsWhole_iff] at h
      rw [sorted, Whole, itemsWhole_iff, sortedItems_eq, List.forall_mem_map]
      exact fun v hv => ih v hv (h v hv)
  | object ms ih =>
      rw [Whole, membersWhole_iff] at h
      rw [sorted, Whole, membersWhole_iff, sortedMembers_eq]
      intro m hm
      obtain ⟨n, hn, rfl⟩ := List.mem_map.1 (Members.mem_of_mem_ofList hm)
      exact ih n hn (h n hn)

/-- What is put in order is in order, on all levels. -/
lemma ordered_sorted (v : Value) : v.sorted.Ordered := by
  induction v using ind with
  | scalar v hv =>
      cases v with
      | array vs | object ms => cases hv
      | _ => exact trivial
  | array vs ih =>
      rw [sorted, Ordered, itemsOrdered_iff, sortedItems_eq, List.forall_mem_map]
      exact ih
  | object ms ih =>
      rw [sorted, Ordered, membersOrdered_iff, sortedMembers_eq]
      refine ⟨Members.sorted_ofList _, fun m hm => ?_⟩
      obtain ⟨n, hn, rfl⟩ := List.mem_map.1 (Members.mem_of_mem_ofList hm)
      exact ih n hn

/-- What is in order stays as it is. -/
lemma sorted_of_ordered {v : Value} (h : v.Ordered) : v.sorted = v := by
  induction v using ind with
  | scalar v hv => exact sorted_of_depth_eq_zero hv
  | array vs ih =>
      rw [Ordered, itemsOrdered_iff] at h
      rw [sorted, sortedItems_eq]
      rw [List.map_congr_left (g := id) fun v hv => ih v hv (h v hv), List.map_id]
  | object ms ih =>
      rw [Ordered, membersOrdered_iff] at h
      have hmember (m) (hm : m ∈ ms) : Prod.map id sorted m = id m :=
        Prod.ext rfl (ih m hm (h.2 m hm))
      rw [sorted, sortedMembers_eq, List.map_congr_left hmember, List.map_id,
        Members.ofList_of_sorted h.1]

/-! ### Sameness -/

/-- What does not nest is the same only as itself. -/
lemma same_iff_eq {v w : Value} (h : v.depth = 0) : v.Same w ↔ v = w := by
  cases v with
  | array vs | object ms => cases h
  | _ => rfl

/-- With distinct keys, a member has the same value in another object if it is a member there when
both are put in order. -/
lemma exists_same_iff {m : String × Value} (hns : Members.Distinct ns)
    (hsame : ∀ n ∈ ns, m.2.Same n.2 ↔ m.2.sorted = n.2.sorted) :
    (∃ w, Members.get? ns m.1 = some w ∧ m.2.Same w) ↔
      Prod.map id sorted m ∈ ns.map (Prod.map id sorted) := by
  rw [List.mem_map]
  constructor
  · rintro ⟨w, hget, hw⟩
    have hmem := (Members.get?_eq_some_iff hns).1 hget
    exact ⟨(m.1, w), hmem, Prod.ext rfl ((hsame _ hmem).1 hw).symm⟩
  · rintro ⟨⟨k, w⟩, hmem, heq⟩
    obtain ⟨rfl, hw⟩ := Prod.mk.inj heq
    exact ⟨w, (Members.get?_eq_some_iff hns).2 hmem, (hsame _ hmem).2 hw.symm⟩

/-- **Values are the same if and only if they are equal when they are put in order.** -/
theorem same_iff_sorted_eq {v w : Value} (hv : v.Distinct) (hw : w.Distinct) :
    v.Same w ↔ v.sorted = w.sorted := by
  induction v using ind generalizing w with
  | scalar v hscalar =>
      rw [same_iff_eq hscalar, sorted_of_depth_eq_zero hscalar]
      cases w with
      | array ws | object ns =>
          constructor
          all_goals
            rintro rfl
            cases hscalar
      | _ => rfl
  | array vs ih =>
      cases w with
      | array ws =>
          rw [Distinct, itemsDistinct_iff] at hv hw
          rw [Same, itemsSame_iff, sorted, sorted, array.injEq, sortedItems_eq, sortedItems_eq,
            ← List.forall₂_eq_eq_eq, List.forall₂_map_left_iff, List.forall₂_map_right_iff,
            List.forall₂_iff_zip, List.forall₂_iff_zip]
          refine and_congr_right fun _ => forall₂_congr fun v w => imp_congr_right fun hmem => ?_
          obtain ⟨hmemv, hmemw⟩ := List.of_mem_zip hmem
          exact ih v hmemv (hv v hmemv) (hw w hmemw)
      | _ => simp [Same, sorted]
  | object ms ih =>
      cases w with
      | object ns =>
          rw [Distinct, membersDistinct_iff] at hv hw
          rw [Same, membersSame_iff, sorted, sorted, object.injEq, sortedMembers_eq,
            sortedMembers_eq, Members.ofList_eq_ofList_iff (Members.distinct_map.2 hv.1)
              (Members.distinct_map.2 hw.1), (Members.distinct_map.2 hv.1).perm_iff,
            List.length_map, List.length_map]
          -- as many members on both sides, so it is enough that none is missing on the right
          refine and_congr_right fun _ => Iff.trans (forall₂_congr fun m hm => ?_)
            (List.forall_mem_map (P := (· ∈ ns.map (Prod.map id sorted)))).symm
          exact exists_same_iff hw.1 fun n hn => ih m hm (hv.2 m hm) (hw.2 n hn)
      | _ => simp [Same, sorted]

end Value

end BrokerPolicy.Json
