import BrokerPolicy.Proofs.Json.ReadBack
import BrokerPolicy.Proofs.Json.Skip

/-!
Records in documents, whatever else is written in them.

`writtenRecords?` reads the objects of a document as they are written: every member in its place,
with its value, however deep a value nests that no field wants. `Gives fields members values` says
that among the members each wanted field is there once, in any order and among any others. A
document whose objects give values to the fields is read as these values
(`parseRecords?_of_written`); the printed form of objects is such a document
(`writtenRecords?_text`).

The reader of records goes through the text just as the reader of what is written does:
`readSequence_of_forall₂` carries a sequence over from one reader of items to another, for members
(`readWanted_of_readWritten`) and for whole objects (`readRecord_of_readObjectAsWritten`).
-/

namespace BrokerPolicy.Json

/-! ### What is written -/

/-- A member as it is written. The value of a wanted field may nest as deep as a record allows, any
other as deep as it likes. -/
def readWritten (fields : Fields) (depth : ℕ) : Reader (String × Value) := fun cs => do
  let (key, rest) ← readKey cs
  let limit := if (List.lookup key fields).isSome then depthLimit - 2 else depth
  let (v, rest) ← readValue limit rest
  return ((key, v), rest)

/-- An object with its members as they are written. -/
def readObjectAsWritten (fields : Fields) (depth : ℕ) : Reader (List (String × Value)) := fun cs =>
  match skipSpace cs with
  | '\x7b' :: rest => readSequence (readWritten fields depth) '\x7d' rest
  | _ => none

/-- The objects that a document lists, with their members as they are written. -/
def writtenRecords? (fields : Fields) (depth : ℕ) (s : String) :
    Option (List (List (String × Value))) :=
  whole? (readList (readObjectAsWritten fields depth)) s

/-- The value may stand in the field. -/
def FieldKind.Fits : FieldKind → Value → Prop
  | .text, v => ∃ s, v = .string s
  | .any, _ => True

/-- Among the members each field is there once with its value, in any order and among any members
under other names. -/
structure Gives (fields : Fields) (members : List (String × Value)) (values : List Value) :
    Prop where
  fits : List.Forall₂ (fun field v => field.2.Fits v) fields values
  written : ∃ others, (∀ m ∈ others, m.1 ∉ fields.map Prod.fst) ∧
    members.Perm ((fields.map Prod.fst).zip values ++ others)

/-! ### One reader after another -/

section Sequence

variable {α β : Type} {item : Reader α} {item' : Reader β} {R : α → β → Prop} {close : Char}

/-- If every item is read by one reader as it is by another, but for a relation, so is a list of
items. -/
lemma readMore_of_forall₂
    (hitem : ∀ {cs x rest y}, R x y → item cs = some (x, rest) → item' cs = some (y, rest))
    {fuel : ℕ} {cs rest : List Char} {xs : List α} {ys : List β} (hxs : List.Forall₂ R xs ys)
    (h : readMore item close fuel cs = some (xs, rest)) :
    readMore item' close fuel cs = some (ys, rest) := by
  -- both readers walk through the same text, so one induction on their common fuel follows both
  induction fuel generalizing cs xs ys with
  | zero => cases h
  | succ fuel ih =>
      rw [readMore] at h ⊢
      split at h
      · cases h
      · split at h
        · next hc =>
          obtain ⟨rfl, rfl⟩ := Prod.mk.inj (Option.some.inj h)
          cases hxs
          rw [if_pos hc]
        · next hc =>
          split at h
          · next hcomma =>
            simp only [Option.bind_eq_bind, Option.bind_eq_some_iff, Option.pure_def,
              Option.some.injEq, Prod.mk.injEq, Prod.exists] at h
            obtain ⟨x, r, hx, xs', r', hxs', rfl, rfl⟩ := h
            cases hxs with
            | cons hxy hys =>
                rw [if_neg hc, if_pos hcomma, hitem hxy hx]
                simp [ih hys hxs']
          · cases h

/-- A sequence that is read item by item is read by any reader that does the same with each item. -/
lemma readSequence_of_forall₂
    (hitem : ∀ {cs x rest y}, R x y → item cs = some (x, rest) → item' cs = some (y, rest))
    {cs rest : List Char} {xs : List α} {ys : List β} (hxs : List.Forall₂ R xs ys)
    (h : readSequence item close cs = some (xs, rest)) :
    readSequence item' close cs = some (ys, rest) := by
  rw [readSequence] at h ⊢
  split at h
  · cases h
  · split at h
    · next hc =>
      obtain ⟨rfl, rfl⟩ := Prod.mk.inj (Option.some.inj h)
      cases hxs
      rw [if_pos hc]
    · next hc =>
      simp only [Option.bind_eq_bind, Option.bind_eq_some_iff, Option.pure_def,
        Option.some.injEq, Prod.mk.injEq, Prod.exists] at h
      obtain ⟨x, r, hx, xs', r', hxs', rfl, rfl⟩ := h
      cases hxs with
      | cons hxy hys =>
          rw [if_neg hc, hitem hxy hx]
          simp [readMore_of_forall₂ hitem hys hxs']

end Sequence

/-! ### Members -/

variable {fields : Fields} {depth : ℕ}

/-- The member, if a field wants it. -/
def wanted? (fields : Fields) (m : String × Value) : Option (String × Value) :=
  if m.1 ∈ fields.map Prod.fst then some m else none

/-- The member may stand in the field that wants it. -/
def MemberFits (fields : Fields) (m : String × Value) : Prop :=
  ∀ kind, List.lookup m.1 fields = some kind → kind.Fits m.2

/-- Only the fields that there are have a kind. -/
lemma lookup_eq_none_iff_not_mem {key : String} :
    List.lookup key fields = none ↔ key ∉ fields.map Prod.fst := by
  rw [List.lookup_eq_none_iff]
  simp only [bne_iff_ne, List.mem_map, not_exists, not_and]
  exact ⟨fun h field hfield heq => h field hfield heq.symm,
    fun h field hfield heq => h field hfield heq.symm⟩

/-- A member is read for a record as it is read as written: kept if it is wanted, skipped
otherwise. -/
lemma readWanted_of_readWritten {cs rest : List Char} {m : String × Value}
    (hfits : MemberFits fields m) (h : readWritten fields depth cs = some (m, rest)) :
    readWanted fields cs = some (wanted? fields m, rest) := by
  simp only [readWritten, Option.bind_eq_bind, Option.bind_eq_some_iff, Option.pure_def,
    Option.some.injEq, Prod.mk.injEq, Prod.exists] at h
  obtain ⟨key, r, hkey, v, r', hv, rfl, rfl⟩ := h
  -- a member that is no field of the record is skipped, and skipping it ends where reading it did
  cases hlookup : List.lookup key fields with
  | none =>
      rw [hlookup] at hv
      have hskip := skipValue_of_readValue hv
      have hwanted : wanted? fields (key, v) = none :=
        if_neg (lookup_eq_none_iff_not_mem.1 hlookup)
      simp [readWanted, hkey, hlookup, hskip, hwanted]
  | some kind =>
      rw [hlookup] at hv
      have hread : readValue (depthLimit - 2) r = some (v, r') := hv
      have hmem : key ∈ fields.map Prod.fst := by
        by_contra hnot
        simp [lookup_eq_none_iff_not_mem.2 hnot] at hlookup
      have hwanted : wanted? fields (key, v) = some (key, v) := if_pos hmem
      have hfield : readField kind r = some (v, r') := by
        cases kind with
        | any => simp only [readField, hread]
        | text =>
            obtain ⟨s, rfl⟩ : ∃ s, v = .string s := hfits _ hlookup
            simp only [readField, hread]
      simp [readWanted, hkey, hlookup, hfield, hwanted]

/-! ### Values of fields -/

/-- Among members with distinct keys, one only has the key of a given one. -/
lemma filter_eq_singleton {ms : List (String × Value)} (hnodup : (ms.map Prod.fst).Nodup)
    {m : String × Value} (hm : m ∈ ms) : ms.filter (·.1 == m.1) = [m] := by
  induction ms with
  | nil => exact absurd hm List.not_mem_nil
  | cons n ms ih =>
      rw [List.map_cons, List.nodup_cons] at hnodup
      rcases List.mem_cons.1 hm with rfl | hm
      · have hnone : ms.filter (·.1 == m.1) = [] := by
          rw [List.filter_eq_nil_iff]
          intro n hn heq
          exact hnodup.1 (beq_iff_eq.1 heq ▸ List.mem_map_of_mem hn)
        rw [List.filter_cons_of_pos (by simp), hnone]
      · have hne : n.1 ≠ m.1 := fun heq => hnodup.1 (heq ▸ List.mem_map_of_mem hm)
        rw [List.filter_cons_of_neg (by simpa using hne), ih hnodup.2 hm]

variable {members : List (String × Value)} {values : List Value}

/-- The fields with their values and nothing else. -/
lemma gives_zip (h : List.Forall₂ (fun field v => field.2.Fits v) fields values) :
    Gives fields ((fields.map Prod.fst).zip values) values :=
  ⟨h, [], by simp, by simp⟩

/-- Every field has a value, so the names are all there. -/
lemma map_fst_zip_of_gives (h : Gives fields members values) :
    ((fields.map Prod.fst).zip values).map Prod.fst = fields.map Prod.fst := by
  have hlength := h.fits.length_eq
  rw [List.map_fst_zip]
  rw [List.length_map]
  omega

/-- What is wanted of an object are the members that fields ask for. -/
lemma filterMap_wanted? (members : List (String × Value)) :
    members.filterMap (wanted? fields) =
      members.filter fun m => decide (m.1 ∈ fields.map Prod.fst) := by
  rw [← List.filterMap_eq_filter]
  congr 1
  funext m
  by_cases hm : m.1 ∈ fields.map Prod.fst <;> simp [wanted?, Option.guard, hm]

/-- The value of a field is the only one under its name. -/
lemma only?_of_gives (hnodup : (fields.map Prod.fst).Nodup) (h : Gives fields members values)
    {m : String × Value} (hm : m ∈ (fields.map Prod.fst).zip values) :
    only? (members.filterMap (wanted? fields)) m.1 = some m.2 := by
  obtain ⟨others, hothers, hperm⟩ := h.written
  have hname : m.1 ∈ fields.map Prod.fst := by
    rw [← map_fst_zip_of_gives h]
    exact List.mem_map_of_mem hm
  -- of the members under this name, those wanted are all of them and the others are none
  have hsame : (members.filterMap (wanted? fields)).filter (·.1 == m.1) =
      members.filter (·.1 == m.1) := by
    rw [filterMap_wanted?, List.filter_filter]
    refine List.filter_congr fun n _ => ?_
    by_cases hn : n.1 = m.1
    · simp [hn, hname]
    · simp [hn]
  have hnone : others.filter (·.1 == m.1) = [] := by
    rw [List.filter_eq_nil_iff]
    intro n hn heq
    exact hothers n hn (beq_iff_eq.1 heq ▸ hname)
  have hsingle : (members.filter (·.1 == m.1)).Perm [m] := by
    have hfilter := hperm.filter (·.1 == m.1)
    rwa [List.filter_append, hnone, List.append_nil, filter_eq_singleton _ hm] at hfilter
    rwa [map_fst_zip_of_gives h]
  rw [only?, hsame, List.perm_singleton.1 hsingle]

lemma mapM_of_forall₂ {α β : Type} {f : α → Option β} {xs : List α} {ys : List β}
    (h : List.Forall₂ (fun x y => f x = some y) xs ys) : xs.mapM f = some ys := by
  induction h with
  | nil => rfl
  | cons hxy _ ih => simp [List.mapM_cons, hxy, ih]

/-- The values that an object gives to the fields are found among its members. -/
lemma mapM_only?_of_gives (hnodup : (fields.map Prod.fst).Nodup) (h : Gives fields members values) :
    (fields.mapM fun field => only? (members.filterMap (wanted? fields)) field.1) =
      some values := by
  refine mapM_of_forall₂ ?_
  rw [List.forall₂_iff_zip]
  refine ⟨h.fits.length_eq, fun {field v} hmem => ?_⟩
  have hzip : (field.1, v) ∈ (fields.map Prod.fst).zip values := by
    rw [List.zip_map_left]
    exact List.mem_map_of_mem hmem
  exact only?_of_gives hnodup h hzip

/-- What stands among the members that give values to fields fits the fields. -/
lemma memberFits_of_gives (hnodup : (fields.map Prod.fst).Nodup) (h : Gives fields members values) :
    ∀ m ∈ members, MemberFits fields m := by
  intro m hm kind hkind
  obtain ⟨others, hothers, hperm⟩ := h.written
  have hname : m.1 ∈ fields.map Prod.fst := by
    by_contra hnot
    simp [lookup_eq_none_iff_not_mem.2 hnot] at hkind
  rcases List.mem_append.1 (hperm.mem_iff.1 hm) with hzip | hother
  · rw [List.zip_map_left, List.mem_map] at hzip
    obtain ⟨⟨field, v⟩, hmem, rfl⟩ := hzip
    -- the names of the fields are distinct, so the kind found for a name is that of its field
    obtain ⟨before, after, hfields, -⟩ := List.lookup_eq_some_iff.1 hkind
    have hkindMem : (field.1, kind) ∈ fields := by
      rw [hfields]
      exact List.mem_append_right before List.mem_cons_self
    have hfield : field = (field.1, kind) :=
      List.inj_on_of_nodup_map hnodup (List.of_mem_zip hmem).1 hkindMem rfl
    have hfits := (List.forall₂_iff_zip.1 h.fits).2 hmem
    rw [hfield] at hfits
    exact hfits
  · exact absurd hname (hothers m hother)

/-! ### Objects and documents -/

/-- An object that gives the fields, each once, is read as their values, whatever else it holds. -/
lemma readRecord_of_readObjectAsWritten (hnodup : (fields.map Prod.fst).Nodup) {cs rest : List Char}
    (hgives : Gives fields members values)
    (h : readObjectAsWritten fields depth cs = some (members, rest)) :
    readRecord fields cs = some (values, rest) := by
  rw [readObjectAsWritten] at h
  split at h
  · next r hopen =>
    have hwanted : List.Forall₂ (fun m w => MemberFits fields m ∧ w = wanted? fields m) members
        (members.map (wanted? fields)) := by
      rw [List.forall₂_map_right_iff, List.forall₂_same]
      exact fun m hm => ⟨memberFits_of_gives hnodup hgives m hm, rfl⟩
    have hmembers : readSequence (readWanted fields) '\x7d' r =
        some (members.map (wanted? fields), rest) := by
      refine readSequence_of_forall₂ (fun {cs m rest w} hw hm => ?_) hwanted h
      rw [hw.2, readWanted_of_readWritten hw.1 hm]
    have hvalues := mapM_only?_of_gives hnodup hgives
    rw [readRecord, hopen]
    simp [readRecordMembers, hmembers, List.filterMap_map, hvalues]
  · cases h

/-- **Records are read from documents** whose objects give values to the fields. -/
theorem parseRecords?_of_written (hnodup : (fields.map Prod.fst).Nodup) {s : String}
    {objects : List (List (String × Value))} {records : List (List Value)}
    (hwritten : writtenRecords? fields depth s = some objects)
    (hgives : List.Forall₂ (Gives fields) objects records) :
    parseRecords? fields s = some records := by
  rw [writtenRecords?, whole?] at hwritten
  split at hwritten
  · next xs rest hread =>
    split at hwritten
    · next hend =>
      obtain rfl := Option.some.inj hwritten
      rw [readList] at hread
      split at hread
      · next r hopen =>
        have hrecords := readSequence_of_forall₂
          (fun hgives h => readRecord_of_readObjectAsWritten hnodup hgives h) hgives hread
        rw [parseRecords?, whole?, readList, hopen]
        simp [hrecords, hend]
      · cases hread
    · cases hwritten
  · cases hwritten

/-! ### What is printed -/

/-- The value may stand in a document next to the fields. -/
structure Value.Listable (depth : ℕ) (v : Value) : Prop where
  whole : v.Whole
  ordered : v.Ordered
  depth_le : v.depth ≤ min depth (depthLimit - 2)

lemma listable_string (s : String) : (Value.string s).Listable depth where
  whole := trivial
  ordered := trivial
  depth_le := Nat.zero_le _

/-- A member that can be listed is read as it is written. -/
lemma readWritten_memberChars {m : String × Value} (hm : m.2.Listable depth) {rest : List Char}
    (hrest : EndsNumber rest) :
    readWritten fields depth (memberChars m ++ rest) = some (m, rest) := by
  have hdepth : m.2.depth ≤ if (List.lookup m.1 fields).isSome then depthLimit - 2 else depth := by
    have := hm.depth_le
    split <;> omega
  have hvalue := readValue_chars hm.whole hm.ordered hdepth hrest
  rw [readWritten, memberChars, List.append_assoc, List.cons_append, readKey_stringChars]
  simp [hvalue]

/-- An object of such members is read as it is written, in its order. -/
lemma readObjectAsWritten_chars (hmembers : ∀ m ∈ members, m.2.Listable depth) (rest : List Char) :
    readObjectAsWritten fields depth ((Value.object members).chars ++ rest) =
      some (members, rest) := by
  rw [Value.chars, membersChars_eq, List.cons_append, readObjectAsWritten,
    skipSpace_cons _ (by rfl)]
  exact readSequence_sequenceChars (Or.inr rfl) (fun m _ => memberChars_begin m)
    fun m hm rest hrest => readWritten_memberChars (hmembers m hm) hrest

/-- To write what is made of items is to write the items another way. -/
lemma sequenceChars_map {α β : Type} (print : β → List Char) (close : Char) (f : α → β)
    (xs : List α) :
    sequenceChars print close (xs.map f) = sequenceChars (fun x => print (f x)) close xs := by
  have hmore (xs : List α) : moreChars print close (xs.map f) =
      moreChars (fun x => print (f x)) close xs := by
    induction xs with
    | nil => rfl
    | cons x xs ih => rw [List.map_cons, moreChars, moreChars, ih]
  cases xs with
  | nil => rfl
  | cons x xs => rw [List.map_cons, sequenceChars, sequenceChars, hmore]

/-- **Objects that are printed** are what is written. -/
theorem writtenRecords?_text {objects : List (List (String × Value))}
    (hobjects : ∀ o ∈ objects, ∀ m ∈ o, m.2.Listable depth) :
    writtenRecords? fields depth (Value.array (objects.map .object)).text = some objects := by
  have hread : readSequence (readObjectAsWritten fields depth) ']'
      (sequenceChars (fun ms => (Value.object ms).chars) ']' objects ++ []) = some (objects, []) :=
    readSequence_sequenceChars (Or.inl rfl)
      (fun ms _ => ⟨'\x7b', membersChars ms, rfl, rfl, by decide⟩)
      fun ms hms rest _ => readObjectAsWritten_chars (hobjects ms hms) rest
  rw [List.append_nil] at hread
  rw [writtenRecords?, whole?, Value.text, String.toList_ofList, Value.chars, itemsChars_eq,
    sequenceChars_map, readList, skipSpace_cons _ (by rfl)]
  simp only [hread]
  rfl

end BrokerPolicy.Json
