import BrokerPolicy.Json.Number

/-!
JSON values.

An object is the list of its members. Readers keep it in the order of the keys, every key once:
`Members.insert` puts a member in its place and replaces one of the same key, `Members.ofList` does
so for a whole list. The result is in order (`sorted_ofList`) and holds nothing but what was given
(`mem_of_mem_ofList`).
-/
namespace BrokerPolicy.Json

/-- A JSON value. -/
inductive Value where
  | null
  | bool (b : Bool)
  | number (n : Number)
  | string (s : String)
  | array (items : List Value)
  | object (members : List (String × Value))

/-- The members of an object. -/
abbrev Members := List (String × Value)

namespace Members

/-- Puts a member in its place in the order of the keys; a member of the same key is replaced. -/
def insert (key : String) (value : Value) : Members → Members
  | [] => [(key, value)]
  | (k, v) :: rest =>
    if key < k then (key, value) :: (k, v) :: rest
    else if key = k then (key, value) :: rest
    else (k, v) :: insert key value rest

/-- The members in the order of their keys; of a repeated key the last one counts. -/
def ofList (ms : List (String × Value)) : Members :=
  ms.foldl (fun acc m => acc.insert m.1 m.2) []

/-- The value of a key. -/
def get? (ms : Members) (key : String) : Option Value :=
  List.lookup key ms

/-- The keys increase strictly. -/
def Sorted (ms : Members) : Prop :=
  ms.Pairwise (·.1 < ·.1)

/-! ### The order of the keys -/

theorem mem_keys_insert {key k : String} {value : Value} {ms : Members} :
    k ∈ (ms.insert key value).map Prod.fst ↔ k = key ∨ k ∈ ms.map Prod.fst := by
  induction ms with
  | nil => simp [insert]
  | cons m ms ih =>
    obtain ⟨k', v'⟩ := m
    unfold insert
    split
    · simp
    · split
      · next h => subst h; simp
      · simp only [List.map_cons, List.mem_cons, ih]
        constructor
        · rintro (h | h | h) <;> simp [h]
        · rintro (h | h | h) <;> simp [h]

theorem sorted_iff {ms : Members} :
    ms.Sorted ↔ (ms.map Prod.fst).Pairwise (· < ·) := by
  rw [Sorted, List.pairwise_map]

/-- Insertion keeps the order. -/
theorem sorted_insert {key : String} {value : Value} {ms : Members} (h : ms.Sorted) :
    (ms.insert key value).Sorted := by
  rw [sorted_iff] at h ⊢
  -- the new key goes before the first one that is larger; only the last case moves on
  induction ms with
  | nil => simp [insert]
  | cons m ms ih =>
    obtain ⟨k, v⟩ := m
    simp only [List.map_cons, List.pairwise_cons] at h
    unfold insert
    split
    · next hlt =>
      simp only [List.map_cons, List.pairwise_cons, List.mem_cons]
      refine ⟨?_, h⟩
      rintro a (rfl | ha)
      · exact hlt
      · exact String.lt_trans hlt (h.1 a ha)
    · next hlt =>
      split
      · next heq => subst heq; simpa using h
      · next hne =>
        simp only [List.map_cons, List.pairwise_cons]
        refine ⟨fun a ha => ?_, ih h.2⟩
        rcases mem_keys_insert.1 ha with rfl | ha
        · exact Std.lt_of_le_of_ne (Std.not_lt.1 hlt) (Ne.symm hne)
        · exact h.1 a ha

theorem sorted_foldl_insert {xs : List (String × Value)} {ms : Members} (h : ms.Sorted) :
    (xs.foldl (fun acc m => Members.insert m.1 m.2 acc) ms).Sorted := by
  induction xs generalizing ms with
  | nil => exact h
  | cons x xs ih => exact ih (sorted_insert h)

/-- A list of members is brought in order. -/
theorem sorted_ofList (xs : List (String × Value)) : (ofList xs).Sorted :=
  sorted_foldl_insert List.Pairwise.nil

/-! ### The members themselves -/

/-- Insertion brings in one member and changes no other. -/
theorem mem_insert {key : String} {value : Value} {ms : Members} {m : String × Value}
    (h : m ∈ ms.insert key value) : m = (key, value) ∨ m ∈ ms := by
  induction ms with
  | nil => exact .inl (List.mem_singleton.1 h)
  | cons n ms ih =>
    obtain ⟨k, v⟩ := n
    unfold insert at h
    split at h
    · exact List.mem_cons.1 h
    · split at h
      · rcases List.mem_cons.1 h with h | h
        · exact .inl h
        · exact .inr (List.mem_cons_of_mem _ h)
      · rcases List.mem_cons.1 h with h | h
        · exact .inr (h ▸ List.mem_cons_self)
        · exact (ih h).imp id (List.mem_cons_of_mem _)

/-- Members that are brought in order are those that were given. -/
theorem mem_of_mem_ofList {xs : List (String × Value)} {m : String × Value}
    (h : m ∈ ofList xs) : m ∈ xs := by
  have mem_foldl {xs : List (String × Value)} {ms : Members}
      (h : m ∈ xs.foldl (fun acc m => Members.insert m.1 m.2 acc) ms) : m ∈ xs ∨ m ∈ ms := by
    induction xs generalizing ms with
    | nil => exact .inr h
    | cons x xs ih =>
      rcases ih h with h | h
      · exact .inl (List.mem_cons_of_mem _ h)
      · rcases mem_insert h with h | h
        · exact .inl (h ▸ List.mem_cons_self)
        · exact .inr h
  exact (mem_foldl h).resolve_right List.not_mem_nil

end Members

/-- The text of a string value. -/
def Value.string? : Value → Option String
  | .string s => some s
  | _ => none

def Value.isNull : Value → Bool
  | .null => true
  | _ => false

end BrokerPolicy.Json
