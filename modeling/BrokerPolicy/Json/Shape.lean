import BrokerPolicy.Json.Reader

/-!
The shape of JSON values.

* `Value.depth` is how deep a value nests: zero for what is neither an array nor an object.
* `Value.Ordered` says that every object in a value holds its members in the order of their keys,
  `Value.Whole` that all numbers in it are integers.

What is read nests no deeper than the reader allows (`depth_readValue_le`) and is ordered
(`ordered_readValue`).
-/
namespace BrokerPolicy.Json

mutual

/-- How deep a value nests. -/
def Value.depth : Value → Nat
  | .array items => itemsDepth items + 1
  | .object members => membersDepth members + 1
  | _ => 0

/-- The depth of the deepest item. -/
def itemsDepth : List Value → Nat
  | [] => 0
  | v :: vs => max v.depth (itemsDepth vs)

/-- The depth of the deepest member. -/
def membersDepth : List (String × Value) → Nat
  | [] => 0
  | (_, v) :: ms => max v.depth (membersDepth ms)

end

mutual

/-- Every object holds its members in the order of their keys. -/
def Value.Ordered : Value → Prop
  | .array items => itemsOrdered items
  | .object members => Members.Sorted members ∧ membersOrdered members
  | _ => True

/-- All items are ordered. -/
def itemsOrdered : List Value → Prop
  | [] => True
  | v :: vs => v.Ordered ∧ itemsOrdered vs

/-- All members are ordered. -/
def membersOrdered : List (String × Value) → Prop
  | [] => True
  | (_, v) :: ms => v.Ordered ∧ membersOrdered ms

end

mutual

/-- All numbers are integers. -/
def Value.Whole : Value → Prop
  | .number (.float _) => False
  | .array items => itemsWhole items
  | .object members => membersWhole members
  | _ => True

/-- All numbers in the items are integers. -/
def itemsWhole : List Value → Prop
  | [] => True
  | v :: vs => v.Whole ∧ itemsWhole vs

/-- All numbers in the members are integers. -/
def membersWhole : List (String × Value) → Prop
  | [] => True
  | (_, v) :: ms => v.Whole ∧ membersWhole ms

end

/-! ### Items and members one by one -/

theorem itemsDepth_le_iff {vs : List Value} {n : Nat} :
    itemsDepth vs ≤ n ↔ ∀ v ∈ vs, v.depth ≤ n := by
  induction vs with
  | nil => simp [itemsDepth]
  | cons v vs ih => rw [itemsDepth, Nat.max_le, ih, List.forall_mem_cons]

theorem membersDepth_le_iff {ms : List (String × Value)} {n : Nat} :
    membersDepth ms ≤ n ↔ ∀ m ∈ ms, m.2.depth ≤ n := by
  induction ms with
  | nil => simp [membersDepth]
  | cons m ms ih => rw [membersDepth, Nat.max_le, ih, List.forall_mem_cons]

theorem itemsOrdered_iff {vs : List Value} : itemsOrdered vs ↔ ∀ v ∈ vs, v.Ordered := by
  induction vs with
  | nil => simp [itemsOrdered]
  | cons v vs ih => simp [itemsOrdered, ih]

theorem membersOrdered_iff {ms : List (String × Value)} :
    membersOrdered ms ↔ ∀ m ∈ ms, m.2.Ordered := by
  induction ms with
  | nil => simp [membersOrdered]
  | cons m ms ih => simp [membersOrdered, ih]

theorem itemsWhole_iff {vs : List Value} : itemsWhole vs ↔ ∀ v ∈ vs, v.Whole := by
  induction vs with
  | nil => simp [itemsWhole]
  | cons v vs ih => simp [itemsWhole, ih]

theorem membersWhole_iff {ms : List (String × Value)} :
    membersWhole ms ↔ ∀ m ∈ ms, m.2.Whole := by
  induction ms with
  | nil => simp [membersWhole]
  | cons m ms ih => simp [membersWhole, ih]

/-! ### What is read -/

/-- What holds of everything that a reader returns holds of every item between brackets. -/
theorem forall_mem_readSequence {α : Type} {item : Reader α} {P : α → Prop}
    (hitem : ∀ {cs x rest}, item cs = some (x, rest) → P x) {close : Char} {cs rest : List Char}
    {xs : List α} (h : readSequence item close cs = some (xs, rest)) : ∀ x ∈ xs, P x := by
  have more {fuel : Nat} {cs rest : List Char} {xs : List α}
      (h : readMore item close fuel cs = some (xs, rest)) : ∀ x ∈ xs, P x := by
    induction fuel generalizing cs rest xs with
    | zero => cases h
    | succ fuel ih =>
      unfold readMore at h
      split at h
      · cases h
      · split at h
        · cases h; simp
        · split at h
          · simp only [Option.bind_eq_bind, Option.bind_eq_some_iff, Option.pure_def,
              Option.some.injEq, Prod.mk.injEq, Prod.exists] at h
            obtain ⟨x, r, hx, ys, r', hys, rfl, rfl⟩ := h
            exact List.forall_mem_cons.2 ⟨hitem hx, ih hys⟩
          · cases h
  unfold readSequence at h
  split at h
  · cases h
  · split at h
    · cases h; simp
    · simp only [Option.bind_eq_bind, Option.bind_eq_some_iff, Option.pure_def,
        Option.some.injEq, Prod.mk.injEq, Prod.exists] at h
      obtain ⟨x, r, hx, ys, r', hys, rfl, rfl⟩ := h
      exact List.forall_mem_cons.2 ⟨hitem hx, more hys⟩

/-- What holds of everything that a reader of values returns holds of every member. -/
theorem forall_mem_readMembers {value : Reader Value} {P : Value → Prop}
    (hvalue : ∀ {cs v rest}, value cs = some (v, rest) → P v) {cs rest : List Char}
    {ms : Members} (h : readMembers value cs = some (ms, rest)) : ∀ m ∈ ms, P m.2 := by
  obtain ⟨⟨xs, r⟩, hxs, heq⟩ := Option.map_eq_some_iff.1 h
  cases heq
  have hmember {cs : List Char} {x : String × Value} {rest : List Char}
      (hx : readMember value cs = some (x, rest)) : P x.2 := by
    simp only [readMember, Option.bind_eq_bind, Option.bind_eq_some_iff, Option.pure_def,
      Option.some.injEq, Prod.mk.injEq, Prod.exists] at hx
    obtain ⟨key, r, -, v, r', hv, rfl, rfl⟩ := hx
    exact hvalue hv
  exact fun m hm => forall_mem_readSequence hmember hxs m (Members.mem_of_mem_ofList hm)

/-- The members of an object that is read are in the order of their keys. -/
theorem sorted_readMembers {value : Reader Value} {cs rest : List Char} {ms : Members}
    (h : readMembers value cs = some (ms, rest)) : ms.Sorted := by
  obtain ⟨⟨xs, r⟩, -, heq⟩ := Option.map_eq_some_iff.1 h
  cases heq
  exact Members.sorted_ofList xs

/-- What is neither an array nor an object has no depth and nothing to put in order. -/
theorem readScalar_shape {cs rest : List Char} {v : Value} (h : readScalar cs = some (v, rest)) :
    v.depth = 0 ∧ v.Ordered := by
  unfold readScalar at h
  split at h
  · cases h; simp [Value.depth, Value.Ordered]
  · cases h; simp [Value.depth, Value.Ordered]
  · cases h; simp [Value.depth, Value.Ordered]
  · obtain ⟨x, -, heq⟩ := Option.map_eq_some_iff.1 h
    cases heq; simp [Value.depth, Value.Ordered]
  · simp only [Option.bind_eq_bind, Option.bind_eq_some_iff, Option.pure_def, Option.some.injEq,
      Prod.mk.injEq, Prod.exists] at h
    obtain ⟨_, _, -, _, -, rfl, rfl⟩ := h
    simp [Value.depth, Value.Ordered]

theorem readValue_shape {depth : Nat} {cs rest : List Char} {v : Value}
    (h : readValue depth cs = some (v, rest)) : v.depth ≤ depth ∧ v.Ordered := by
  -- the depth allowed is the fuel of the reader: one less for each bracket opened
  induction depth generalizing cs rest v with
  | zero =>
    have := readScalar_shape h
    exact ⟨Nat.le_of_eq this.1, this.2⟩
  | succ depth ih =>
    unfold readValue at h
    split at h
    · obtain ⟨⟨vs, r⟩, hvs, heq⟩ := Option.map_eq_some_iff.1 h
      cases heq
      have := forall_mem_readSequence (fun hx => ih hx) hvs
      simp only [Value.depth, Value.Ordered, Nat.add_le_add_iff_right, itemsDepth_le_iff,
        itemsOrdered_iff]
      exact ⟨fun v hv => (this v hv).1, fun v hv => (this v hv).2⟩
    · obtain ⟨⟨ms, r⟩, hms, heq⟩ := Option.map_eq_some_iff.1 h
      cases heq
      have := forall_mem_readMembers (fun hx => ih hx) hms
      simp only [Value.depth, Value.Ordered, Nat.add_le_add_iff_right, membersDepth_le_iff,
        membersOrdered_iff]
      exact ⟨fun m hm => (this m hm).1, sorted_readMembers hms, fun m hm => (this m hm).2⟩
    · have := readScalar_shape h
      exact ⟨this.1 ▸ Nat.zero_le _, this.2⟩

/-- A value that is read nests no deeper than the reader allows. -/
theorem depth_readValue_le {depth : Nat} {cs rest : List Char} {v : Value}
    (h : readValue depth cs = some (v, rest)) : v.depth ≤ depth :=
  (readValue_shape h).1

/-- A value that is read is ordered. -/
theorem ordered_readValue {depth : Nat} {cs rest : List Char} {v : Value}
    (h : readValue depth cs = some (v, rest)) : v.Ordered :=
  (readValue_shape h).2

end BrokerPolicy.Json
