import BrokerPolicy.Config.File
import BrokerPolicy.Proofs.Json.Spelled
import BrokerPolicy.Proofs.Yaml.Document
import BrokerPolicy.Proofs.Yaml.Integer

/-!
Entries in a policy file, spelled as in a list.

A policy file may be written in JSON. `inFile list` is the file that holds the entries of a list in
the spelling of the list, and `ofFile_inFile` says that it gives the same policies, or the same
error, as the list. It asks for a spelling that both languages read alike (`SpellsList`) and for
characters that a file may contain. Where one of them fails, file and list can differ: a pair of
surrogates is refused in a file, and the negative zero loses its sign there
(`ofFile_inFile_ne_ofList`).
-/

namespace BrokerPolicy

open Json Yaml

/-- A policy file in JSON around a list of entries. -/
def inFile (list : String) : String :=
  "\x7b\"version\":1,\"policies\":" ++ list ++ "\x7d"

/-- The characters of a file, with the keys of its two members apart. -/
lemma toList_inFile (list : String) : (inFile list).toList =
    '\x7b' :: '"' :: ("version".toList ++ '"' :: ':' :: '1' :: ',' ::
      '"' :: ("policies".toList ++ '"' :: ':' :: (list.toList ++ ['\x7d']))) := by
  have hhead : "\x7b\"version\":1,\"policies\":".toList = '\x7b' :: '"' :: ("version".toList ++
      '"' :: ':' :: '1' :: ',' :: '"' :: ("policies".toList ++ ['"', ':'])) := rfl
  unfold inFile
  rw [String.toList_append, String.toList_append, hhead]
  simp

namespace PolicyFile

/-- An entry is taken from the mapping of an object. -/
lemma loads_entry : LoadedBy loadEntry (SpellsObject (depthLimit - 2)) := by
  rintro cs - rest ⟨inner, written, rfl, rfl, h⟩
  obtain ⟨ts, pairs, hscans, hparses, hload⟩ := loads_members (loads_value (depthLimit - 2)) h
  refine ⟨ts, hscans, _, hparses, ?_⟩
  have hentry : loadEntry (.mapping {} pairs) =
      (do return Members.ofList (← Load.eachPair (Load.value (depthLimit - 2)) pairs)) := rfl
  rw [hentry, hload, pure_bind]

/-- The document of a file of this form. -/
lemma node_inFile {list : String} {xs : List Members}
    (hallowed : ∀ c ∈ list.toList, isAllowed c = true)
    (h : SpellsList (depthLimit - 2) list.toList xs) : ∃ nodes,
    Node.ofText? (inFile list) = some (some (.mapping {}
      [(keyNode "version", .scalar {} .plain "1"), (keyNode "policies", .sequence {} nodes)])) ∧
    nodes.mapM loadEntry = pure xs := by
  obtain ⟨inner, rest, hlist, h, hrest⟩ := h
  have hbrace : Follows ['\x7d'] := ⟨endsNumber_cons _ (by decide), rfl⟩
  obtain ⟨ts, nodes, hscans, hparses, hload⟩ :=
    loads_items loads_entry (h.append hbrace (SpellsObject.append hbrace))
  refine ⟨nodes, ?_, hload⟩
  -- the brace that ends the file goes on with no number, so the list may have it behind it
  have hskip := skipSpace_append hbrace.skipSpace_eq
  have hclose : skipSpace (rest ++ ['\x7d']) = ['\x7d'] := by
    rw [hskip, hrest, List.nil_append]
  have hentries : Scans false (skipSpace (list.toList ++ ['\x7d'])) ts (rest ++ ['\x7d']) := by
    rw [hskip, hlist]
    exact hscans
  have hpolicies :=
    scans_pair_verbatim "policies" (by simp [IsVerbatim, isBreak]) (by decide) hentries
  -- the two members of the file, their keys without escapes
  have hone (behind : List Char) :
      Scans false (skipSpace ('1' :: behind)) [.scalar .plain "1"] behind :=
    scans_word ['1'] (.alphanumeric rfl) (by simp) (by simp [IsWordChar])
  have hversion (behind : List Char) :=
    scans_pair_verbatim "version" (by simp [IsVerbatim, isBreak]) (by decide) (hone behind)
  refine node_ofText? ?_ (toList_inFile list)
    (.items (hversion _) (.comma rfl hpolicies (.close hclose)))
    (.cons (.pair (parses_scalar .plain "1")) (.cons (.pair hparses) .nil))
  rw [toList_inFile]
  simp only [List.forall_mem_cons, List.forall_mem_append]
  refine ⟨rfl, rfl, ?_, rfl, rfl, rfl, rfl, rfl, ?_, rfl, rfl, hallowed, rfl, by simp⟩
  all_goals simp [isAllowed]

/-- The content of a file of this form. -/
lemma load_file {nodes : List Node} {xs : List Entry} (h : nodes.mapM loadEntry = pure xs) :
    load (.mapping {} [(keyNode "version", .scalar {} .plain "1"),
      (keyNode "policies", .sequence {} nodes)]) = pure ⟨1, xs⟩ := by
  have hversion : loadVersion (.scalar {} .plain "1") = pure 1 := rfl
  have hentries : loadEntries (.sequence {} nodes) = pure xs := h
  have hversionKey : Load.text (keyNode "version") = pure "version" := rfl
  have hentriesKey : Load.text (keyNode "policies") = pure "policies" := rfl
  have hmembers : loadMembers none none [(keyNode "version", .scalar {} .plain "1"),
      (keyNode "policies", .sequence {} nodes)] = pure (some 1, some xs) := by
    simp [loadMembers, hversionKey, hentriesKey, hversion, hentries]
  have hpairs (ps : List (Node × Node)) : Load.pairs (.mapping {} ps) = pure ps := rfl
  simp [load, hpairs, hmembers]

end PolicyFile

namespace Policy

/-- **Entries in a file are those of the list** if both languages spell them alike. -/
theorem ofFile_inFile {list : String} {xs : List Entry}
    (hallowed : ∀ c ∈ list.toList, isAllowed c = true)
    (h : SpellsList (depthLimit - 2) list.toList xs) :
    ofFile (inFile list) = collect xs ∧ ofList list = collect xs := by
  constructor
  · obtain ⟨nodes, hnode, hload⟩ := PolicyFile.node_inFile hallowed h
    have hparse : PolicyFile.parse? (inFile list) = some ⟨1, xs⟩ := by
      rw [PolicyFile.parse?, hnode]
      simp [Load.run?, PolicyFile.load_file hload]
    simp [ofFile, hparse, PolicyFile.supportedVersion]
  · rw [ofList, parseList?_of_spells h]

/-- A list with two policies, one with an integer as its priority and one with an object as its
definition. -/
theorem ofFile_inFile_definition :
    let first := "\x7b\"vhost\":\"/\", \"name\":\"q\", \"priority\":7\x7d"
    let second :=
      "\x7b\"vhost\":\"/\", \"name\":\"r\", \"definition\":\x7b\"max-length\":9\x7d\x7d"
    let list := "[" ++ first ++ ", " ++ second ++ "]"
    let limit := Value.object (Members.ofList [("max-length", .number (.integer (.ofInt64 9)))])
    let xs := [
      Members.ofList [("vhost", .string "/"), ("name", .string "q"),
        ("priority", .number (.integer (.ofInt64 7)))],
      Members.ofList [("vhost", .string "/"), ("name", .string "r"), ("definition", limit)]]
    ((∀ c ∈ list.toList, isAllowed c = true) ∧ SpellsList (depthLimit - 2) list.toList xs) ∧
      ofFile (inFile list) = collect xs ∧ ofList list = collect xs := by
  intro first second list limit xs
  have hallowed : ∀ c ∈ list.toList, isAllowed c = true := by
    have hall : list.toList.all isAllowed = true := by
      decide +kernel
    exact List.all_eq_true.1 hall
  have hkeys : ∀ s ∈ ["vhost", "/", "name", "q", "r", "priority", "definition", "max-length"],
      (∀ c ∈ s.toList, IsVerbatim c) ∧ byteLength s.toList + 2 ≤ maxKeyLength := by
    simp [IsVerbatim, isBreak, byteLength, maxKeyLength, Char.utf8Size]
  have hinteger (n : Integer) (depth : ℕ) (rest : List Char) :
      Spells depth (intChars n.val ++ '\x7d' :: rest) (.number (.integer n)) ('\x7d' :: rest) :=
    Spells.integer n depth (endsNumber_cons rest (by decide))
  have hmember (key : String) {depth : ℕ} {colon rest : List Char} {v : Value}
      (hkey : (∀ c ∈ key.toList, IsVerbatim c) ∧ byteLength key.toList + 2 ≤ maxKeyLength)
      (hv : Spells depth (skipSpace colon) v rest) :
      SpellsMember (Spells depth) ('"' :: (key.toList ++ '"' :: ':' :: colon)) (key, v) rest :=
    .verbatim key hkey.1 hkey.2 hv
  -- the definition is the only value that nests, one level below the limit
  have hlimit (rest : List Char) :
      Spells (124 + 1) ("\x7b\"max-length\":9\x7d".toList ++ rest) limit rest :=
    .object (.items (hmember "max-length" (hkeys _ (by simp)) (hinteger (.ofInt64 9) _ rest))
      (.close rfl))
  have hentry (name key : String) {colon rest : List Char} {v : Value}
      (hname : ∀ c ∈ name.toList, IsVerbatim c)
      (hkey : (∀ c ∈ key.toList, IsVerbatim c) ∧ byteLength key.toList + 2 ≤ maxKeyLength)
      (hv : Spells (124 + 1) (skipSpace colon) v ('\x7d' :: rest)) :
      SpellsObject (124 + 1) ('\x7b' :: ("\"vhost\":\"/\", \"name\":\"".toList ++
          (name.toList ++ '"' :: ',' :: ' ' :: '"' :: (key.toList ++ '"' :: ':' :: colon))))
        (Members.ofList [("vhost", .string "/"), ("name", .string name), (key, v)]) rest := by
    refine ⟨_, _, rfl, rfl, ?_⟩
    refine .items (hmember "vhost" (hkeys _ (by simp))
      (.verbatim "/" (hkeys _ (by simp)).1 _ _)) ?_
    refine .comma rfl (hmember "name" (hkeys _ (by simp)) (.verbatim name hname _ _)) ?_
    exact .comma rfl (hmember key hkey hv) (.close rfl)
  have hspells : SpellsList (depthLimit - 2) list.toList xs := by
    have hlist : list.toList = '[' :: '\x7b' :: ("\"vhost\":\"/\", \"name\":\"".toList ++
        ("q".toList ++ '"' :: ',' :: ' ' :: '"' :: ("priority".toList ++ '"' :: ':' ::
          (intChars 7 ++ '\x7d' :: ',' :: ' ' :: '\x7b' ::
            ("\"vhost\":\"/\", \"name\":\"".toList ++
              ("r".toList ++ '"' :: ',' :: ' ' :: '"' :: ("definition".toList ++ '"' :: ':' ::
                ("\x7b\"max-length\":9\x7d".toList ++ "\x7d]".toList)))))))) := by
      decide
    refine ⟨_, [], congrArg skipSpace hlist, ?_, rfl⟩
    refine .items (hentry "q" "priority" (hkeys _ (by simp)).1 (hkeys _ (by simp))
      (hinteger (.ofInt64 7) _ _)) ?_
    exact .comma rfl (hentry "r" "definition" (hkeys _ (by simp)).1 (hkeys _ (by simp))
      (hlimit ['\x7d', ']'])) (.close rfl)
  exact ⟨⟨hallowed, hspells⟩, ofFile_inFile hallowed hspells⟩

/-- A pair of surrogates is refused in a file, and the sign of zero is lost there. -/
theorem ofFile_inFile_ne_ofList :
    ((ofList "[\x7b\"vhost\":\"/\",\"name\":\"q\\ud83d\\ude00\"\x7d]").map
        (·.map (·.target.name))).toOption = some ["q😀"] ∧
      ofFile (inFile "[\x7b\"vhost\":\"/\",\"name\":\"q\\ud83d\\ude00\"\x7d]") =
        .error .malformedFile ∧
      ((ofList "[\x7b\"vhost\":\"/\",\"name\":\"q\",\"priority\":-0\x7d]").map
        (·.map (·.target.priority))).toOption = some ["-0.0"] ∧
      ((ofFile (inFile "[\x7b\"vhost\":\"/\",\"name\":\"q\",\"priority\":-0\x7d]")).map
        (·.map (·.target.priority))).toOption = some ["0"] := by
  refine ⟨by decide +kernel, ?_, by decide +kernel, by decide +kernel⟩
  have hparse : PolicyFile.parse?
      (inFile "[\x7b\"vhost\":\"/\",\"name\":\"q\\ud83d\\ude00\"\x7d]") = none :=
    Option.isNone_iff_eq_none.1 (by decide +kernel)
  simp [ofFile, hparse]

end Policy

end BrokerPolicy
