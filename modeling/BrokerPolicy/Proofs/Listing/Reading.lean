import BrokerPolicy.Listing.Query
import BrokerPolicy.Proofs.Json.Record

/-!
What the broker answers, and what is made of it.

The answer to a question decides the result, however the broker came to it and whatever is logged on
the way: `tryPoliciesIn_of_table`, `tryPoliciesIn_of_json`, `tryVhosts_of_answer`.

`Row.ListedBy` says that an object lists a row: the names as strings, the definition and the
priority as any values with the right text, among any other members. A document of such objects is
read as the rows (`parseList?_of_listed`), and an object lists only one row (`ListedBy.unique`), so
its row stands where the object stands (`getElem?_parseList?`).
-/

namespace BrokerPolicy

open Json

/-! ### Answers -/

namespace Query

variable {σ : Type} {host : Host (StateM σ)} {format : Option Format} {s : σ}

/-- The broker answers a question with a text in a format. -/
def Answers (host : Host (StateM σ)) (format : Option Format) (s : σ) (arguments : List String)
    (f : Format) (text : String) : Prop :=
  (((ask host arguments).run format).run s).1.1 = .ok (f, text)

/-- Lines without a row are logged and make no other difference. -/
lemma readTable_run (lines : List String) (s : σ) :
    ((readTable host lines).run s).1 = lines.filterMap Row.ofLine? := by
  induction lines generalizing s with
  | nil => rfl
  | cons line lines ih =>
      rw [readTable]
      cases h : Row.ofLine? line with
      | none =>
          rw [List.filterMap_cons_none h]
          exact ih _
      | some row =>
          rw [List.filterMap_cons_some h]
          exact congrArg (row :: ·) (ih s)

/-- In a table, every line that is a row is one. -/
lemma tryPoliciesIn_of_table {vhost text : String}
    (h : Answers host format s ["list_policies", "-p", vhost] .table text) :
    (((tryPoliciesIn host vhost).run format).run s).1.1 =
      .ok ((tableLines text).filterMap Row.ofLine?) := by
  rw [Answers] at h
  rw [tryPoliciesIn, StateT.run_bind, StateT.run_bind]
  generalize ((ask host ["list_policies", "-p", vhost]).run format).run s = answered at h ⊢
  obtain ⟨⟨answer, format'⟩, s'⟩ := answered
  obtain rfl : answer = .ok (.table, text) := h
  exact congrArg Except.ok (readTable_run (tableLines text) s')

/-- In JSON, the rows are those of the document, or there is none. -/
lemma tryPoliciesIn_of_json {vhost text : String} {rows : List Row}
    (h : Answers host format s ["list_policies", "-p", vhost] .json text)
    (hrows : Row.parseList? text = some rows) :
    (((tryPoliciesIn host vhost).run format).run s).1.1 = .ok rows := by
  rw [Answers] at h
  rw [tryPoliciesIn, StateT.run_bind, StateT.run_bind]
  generalize ((ask host ["list_policies", "-p", vhost]).run format).run s = answered at h ⊢
  obtain ⟨⟨answer, format'⟩, s'⟩ := answered
  obtain rfl : answer = .ok (.json, text) := h
  have hread : readRows host .json text = pure (.ok rows) := by
    rw [readRows, hrows]
  show ((readRows host .json text).run s').1 = .ok rows
  rw [hread]
  rfl

/-- What the broker answers for its virtual hosts is read in the format of the query. -/
lemma tryVhosts_of_answer {f : Format} {text : String}
    (h : Answers host format s ["list_vhosts"] f text) :
    (((tryVhosts host).run format).run s).1.1 = readVhosts f text := by
  rw [Answers] at h
  rw [tryVhosts, StateT.run_bind, StateT.run_bind]
  generalize ((ask host ["list_vhosts"]).run format).run s = answered at h ⊢
  obtain ⟨⟨answer, format'⟩, s'⟩ := answered
  obtain rfl : answer = .ok (f, text) := h
  rfl

end Query

/-! ### Objects -/

namespace Row

section

variable (vhost name scope pattern : String)

/-- The values of the fields when the names are given as strings. -/
def valuesOf (definition priority : Value) : List Value :=
  [.string vhost, .string name, .string scope, .string pattern, definition, priority]

/-- The values of a row have the kinds of the fields. -/
lemma fits_valuesOf (definition priority : Value) :
    List.Forall₂ (fun field v => field.2.Fits v) fields
      (valuesOf vhost name scope pattern definition priority) :=
  .cons ⟨vhost, rfl⟩ (.cons ⟨name, rfl⟩ (.cons ⟨scope, rfl⟩ (.cons ⟨pattern, rfl⟩
    (.cons trivial (.cons trivial .nil)))))

/-- The values of a row can be listed if its definition and its priority can. -/
lemma listable_valuesOf {depth : ℕ} {definition priority : Value}
    (hdefinition : definition.Listable depth) (hpriority : priority.Listable depth) :
    ∀ v ∈ valuesOf vhost name scope pattern definition priority, v.Listable depth := by
  simp only [valuesOf, List.forall_mem_cons, listable_string, hdefinition, hpriority, true_and,
    List.not_mem_nil, false_imp_iff, implies_true]

end

/-- The object lists the row. A definition and a priority count by their text. -/
def ListedBy (r : Row) (object : List (String × Value)) : Prop :=
  ∃ definition priority, textOf definition = r.definition ∧ textOf priority = r.priority ∧
    Gives fields object (valuesOf r.vhost r.name r.scope r.pattern definition priority)

lemma nodup_fields : (fields.map Prod.fst).Nodup := by
  decide

/-- An object lists only one row. -/
lemma ListedBy.unique {r r' : Row} {object : List (String × Value)} (h : r.ListedBy object)
    (h' : r'.ListedBy object) : r = r' := by
  obtain ⟨vhost, name, scope, pattern, definition, priority⟩ := r
  obtain ⟨vhost', name', scope', pattern', definition', priority'⟩ := r'
  obtain ⟨d, p, rfl, rfl, hgives⟩ := h
  obtain ⟨d', p', rfl, rfl, hgives'⟩ := h'
  have hvalues := (mapM_only?_of_gives nodup_fields hgives).symm.trans
    (mapM_only?_of_gives nodup_fields hgives')
  simp only [valuesOf, Option.some.injEq, List.cons.injEq, Value.string.injEq, and_true] at hvalues
  obtain ⟨rfl, rfl, rfl, rfl, rfl, rfl⟩ := hvalues
  rfl

/-- A list of objects that list rows lists a list of rows. -/
lemma exists_listed {objects : List (List (String × Value))}
    (h : ∀ object ∈ objects, ∃ r : Row, r.ListedBy object) :
    ∃ rows, List.Forall₂ ListedBy rows objects := by
  induction objects with
  | nil => exact ⟨[], .nil⟩
  | cons object objects ih =>
      obtain ⟨r, hr⟩ := h object List.mem_cons_self
      obtain ⟨rows, hrows⟩ := ih fun o ho => h o (List.mem_cons_of_mem object ho)
      exact ⟨r :: rows, .cons hr hrows⟩

/-- The rows that the objects of a document list are read from it. -/
theorem parseList?_of_listed {depth : ℕ} {text : String} {objects : List (List (String × Value))}
    {rows : List Row} (hwritten : writtenRecords? fields depth text = some objects)
    (hlisted : List.Forall₂ ListedBy rows objects) : parseList? text = some rows := by
  obtain ⟨records, hgives, hrows⟩ : ∃ records, List.Forall₂ (Gives fields) objects records ∧
      List.Forall₂ (fun values row => ofValues? values = some row) records rows := by
    clear hwritten
    induction hlisted with
    | nil => exact ⟨[], .nil, .nil⟩
    | cons hrow _ ih =>
        obtain ⟨definition, priority, hdefinition, hpriority, hgives⟩ := hrow
        obtain ⟨records, hrecords, hrows⟩ := ih
        refine ⟨_ :: records, .cons hgives hrecords, .cons ?_ hrows⟩
        rw [valuesOf, ofValues?, hdefinition, hpriority]
  rw [parseList?, parseRecords?_of_written nodup_fields hwritten hgives]
  exact mapM_of_forall₂ hrows

/-- Wherever an object stands in a document, its row stands among those that are read. -/
lemma getElem?_parseList? {depth i : ℕ} {text : String} {objects : List (List (String × Value))}
    {object : List (String × Value)} {row : Row}
    (hwritten : writtenRecords? fields depth text = some objects)
    (hobjects : ∀ other ∈ objects, ∃ r : Row, r.ListedBy other) (hi : objects[i]? = some object)
    (hrow : row.ListedBy object) :
    ∃ rows, parseList? text = some rows ∧ rows[i]? = some row := by
  obtain ⟨rows, hrows⟩ := exists_listed hobjects
  have hlength := hrows.length_eq
  obtain ⟨hlt, rfl⟩ := List.getElem?_eq_some_iff.1 hi
  have hlt' : i < rows.length := by omega
  have hsame : rows[i] = row := ListedBy.unique (hrows.get hlt' hlt) hrow
  refine ⟨rows, parseList?_of_listed hwritten hrows, ?_⟩
  rw [List.getElem?_eq_getElem hlt', hsame]

end Row

end BrokerPolicy
