import BrokerPolicy.Host.Recorded
import BrokerPolicy.Proofs.Listing.Reading
import BrokerPolicy.Proofs.Listing.Table

/-!
The two formats of a listing agree.

What an old broker puts in a table (`Tabled`) and a new one in a list of objects (`Listed`) is read
as the same rows and as the same virtual hosts: `tryPoliciesIn_tryVhosts_agree`. The plain list of
objects with all columns as strings is such a list (`listed_toListed`, `listed_vhostObject`), and so
is any document that says the same.
-/

namespace BrokerPolicy

open Json

/-! ### Lists of objects -/

/-- The text is a JSON list of the items. `listedBy` says by which objects an item is listed. -/
def Listed {α : Type} (fields : Fields) (listedBy : α → List (String × Value) → Prop)
    (items : List α) (text : String) : Prop :=
  ∃ depth objects, writtenRecords? fields depth text = some objects ∧
    List.Forall₂ listedBy items objects

/-- Objects that are printed one after the other list their items. -/
lemma listed_text {α : Type} {fields : Fields} {listedBy : α → List (String × Value) → Prop}
    {object : α → List (String × Value)} (hlistedBy : ∀ a, listedBy a (object a))
    (hlistable : ∀ a, ∀ m ∈ object a, m.2.Listable 0) (items : List α) :
    Listed fields listedBy items (Value.array ((items.map object).map .object)).text := by
  refine ⟨0, items.map object, writtenRecords?_text fun o ho => ?_, ?_⟩
  · obtain ⟨a, -, rfl⟩ := List.mem_map.1 ho
    exact hlistable a
  · rw [List.forall₂_map_right_iff, List.forall₂_same]
    exact fun a _ => hlistedBy a

namespace Row

/-- The members of a listed row, all columns as strings. -/
def members (r : Row) : List (String × Value) :=
  (fields.map Prod.fst).zip
    (valuesOf r.vhost r.name r.scope r.pattern (.string r.definition) (.string r.priority))

lemma toListed_eq (r : Row) : r.toListed = .object r.members := rfl

/-- A document that lists policies in JSON lists these rows. -/
theorem listed_toListed (rows : List Row) :
    Listed fields ListedBy rows (Value.array (rows.map toListed)).text := by
  have htoListed : rows.map toListed = (rows.map members).map .object := by
    rw [List.map_map]
    exact List.map_congr_left fun r _ => toListed_eq r
  rw [htoListed]
  refine listed_text (fun r => ?_) (fun r m hm => ?_) rows
  · exact ⟨_, _, rfl, rfl, gives_zip (fits_valuesOf _ _ _ _ _ _)⟩
  · exact listable_valuesOf _ _ _ _ (listable_string _) (listable_string _) m.2
      (List.of_mem_zip hm).2

end Row

/-! ### Virtual hosts -/

/-- The field of a listed virtual host. -/
def vhostFields : Fields :=
  [("name", .text)]

/-- The object lists the virtual host. -/
def VhostListedBy (name : String) (object : List (String × Value)) : Prop :=
  Gives vhostFields object [.string name]

/-- The object of a virtual host. -/
def vhostObject (name : String) : Value :=
  .object [("name", .string name)]

/-- A document that lists virtual hosts in JSON lists these names. -/
theorem listed_vhostObject (names : List String) :
    Listed vhostFields VhostListedBy names (Value.array (names.map vhostObject)).text := by
  have hobjects : names.map vhostObject =
      (names.map fun name => [("name", Value.string name)]).map .object := by
    rw [List.map_map]
    rfl
  have hfits (name : String) :
      List.Forall₂ (fun field v => field.2.Fits v) vhostFields [.string name] :=
    .cons ⟨name, rfl⟩ .nil
  rw [hobjects]
  exact listed_text (fun name => gives_zip (hfits name))
    (fun name => List.forall_mem_singleton.2 (listable_string name)) names

/-- The virtual hosts that the objects of a document list are read from it. -/
lemma parseVhosts?_of_listed {names : List String} {text : String}
    (h : Listed vhostFields VhostListedBy names text) : parseVhosts? text = some names := by
  obtain ⟨depth, objects, hwritten, hlisted⟩ := h
  have hgives : List.Forall₂ (Gives vhostFields) objects
      (names.map fun name => [Value.string name]) := by
    rw [List.forall₂_map_right_iff]
    exact hlisted.flip
  rw [parseVhosts?, ← vhostFields, parseRecords?_of_written (by decide) hwritten hgives]
  refine mapM_of_forall₂ ?_
  rw [List.forall₂_map_left_iff, List.forall₂_same]
  exact fun name _ => rfl

/-! ### Both formats -/

section

open Query

variable {σ : Type} {old new : Host (StateM σ)} {format format' : Option Format} {s s' : σ}

/-- **The formats of a listing agree**: rows that can stand in a table, and names that can, are read
as they are from the table of an old broker and from the list of a new one. -/
theorem tryPoliciesIn_tryVhosts_agree :
    (∀ {vhost : String} {rows : List Row} {table text : String}, (∀ r ∈ rows, r.Plain) →
      Tabled Row.OnLine rows table → Listed Row.fields Row.ListedBy rows text →
      Answers old format s ["list_policies", "-p", vhost] .table table →
      Answers new format' s' ["list_policies", "-p", vhost] .json text →
        (((tryPoliciesIn old vhost).run format).run s).1.1 = .ok rows ∧
          (((tryPoliciesIn new vhost).run format').run s').1.1 = .ok rows) ∧
    ∀ {names : List String} {table text : String}, (∀ name ∈ names, PlainName name) →
      Tabled vhostOnLine names table → Listed vhostFields VhostListedBy names text →
      Answers old format s ["list_vhosts"] .table table →
      Answers new format' s' ["list_vhosts"] .json text →
        (((tryVhosts old).run format).run s).1.1 = .ok names ∧
          (((tryVhosts new).run format').run s').1.1 = .ok names := by
  constructor
  · intro vhost rows table text hplain htable hlisted hold hnew
    obtain ⟨depth, objects, hwritten, hobjects⟩ := hlisted
    have htableRows := Row.filterMap_ofLine?_of_tabled hplain htable
    have hlistRows := Row.parseList?_of_listed hwritten hobjects
    -- each side reads as the rows described; neither computation is compared with the other
    refine ⟨?_, tryPoliciesIn_of_json hnew hlistRows⟩
    rw [tryPoliciesIn_of_table hold, htableRows]
  · intro names table text hplain htable hlisted hold hnew
    have htableNames := tableLines_of_tabled hplain htable
    have hlistNames := parseVhosts?_of_listed hlisted
    rw [tryVhosts_of_answer hold, tryVhosts_of_answer hnew, readVhosts, readVhosts, hlistNames]
    exact ⟨congrArg Except.ok htableNames, rfl⟩

/-- A row with quotes and a blank at its end. -/
def quotedRow : Row :=
  ⟨"/", "first \"q\"", "queues", "^\\.", "\x7b\x7d", "1 "⟩

/-- A row that looks like the end of a table and has empty columns. -/
def emptyRow : Row :=
  ⟨"..", "...done", "all", "", "", ""⟩

/-- The first row with a further column, the second without, among lines that hold no row. -/
def sampleBody : List (TableLine Row) :=
  [⟨none, [], .feed⟩,
    ⟨some quotedRow, "/\tfirst \"q\"\tqueues\t^\\.\t\x7b\x7d\t1 \tnode\r".toList, .feed⟩,
    ⟨none, " ...done\t".toList, .returnFeed⟩, ⟨none, "a\tb\t\t\tc".toList, .feed⟩,
    ⟨some emptyRow, "..\t...done\tall\t\t\t".toList, .returnFeed⟩]

def sampleTable : String :=
  "Listing policies\r\n\n/\tfirst \"q\"\tqueues\t^\\.\t\x7b\x7d\t1 \tnode\r\n ...done\t\r\n" ++
    "a\tb\t\t\tc\n..\t...done\tall\t\t\t"

/-- Two virtual hosts, one of them between blanks. -/
def sampleVhostBody : List (TableLine String) :=
  [⟨some "/", "/".toList, .returnFeed⟩, ⟨none, [], .feed⟩,
    ⟨some " logs ", " logs ".toList, .feed⟩, ⟨none, "...done".toList, .feed⟩]

def sampleVhostTable : String :=
  "name\n/\r\n\n logs \n...done\n"

/-- A broker that lists in tables. -/
def oldBroker : Host (StateM Trace) :=
  Recorded.host
    (fun
      | _, [_, _] => .ok sampleVhostTable
      | _, _ => .ok sampleTable)
    fun _ _ _ => .ok .lt

/-- A broker that lists in JSON. -/
def newBroker : Host (StateM Trace) :=
  Recorded.host
    (fun
      | _, [_, _, _] => .ok (Value.array (["/", " logs "].map vhostObject)).text
      | _, _ => .ok (Value.array ([quotedRow, emptyRow].map Row.toListed)).text)
    fun _ _ _ => .ok .eq

/-- A row with quotes, one with empty columns and a name between blanks, on a broker that lists in
tables and on one that lists in JSON. -/
theorem tryPoliciesIn_tryVhosts_agree_sample :
    quotedRow.Plain ∧ emptyRow.Plain ∧
      Tabled Row.OnLine [quotedRow, emptyRow] sampleTable ∧
      (((tryPoliciesIn oldBroker "/").run none).run []).1.1 = .ok [quotedRow, emptyRow] ∧
      (((tryPoliciesIn newBroker "/").run none).run []).1.1 = .ok [quotedRow, emptyRow] ∧
      PlainName "/" ∧ PlainName " logs " ∧
      Tabled vhostOnLine ["/", " logs "] sampleVhostTable ∧
      (((tryVhosts oldBroker).run none).run []).1.1 = .ok ["/", " logs "] ∧
      (((tryVhosts newBroker).run none).run []).1.1 = .ok ["/", " logs "] := by
  have hquoted : quotedRow.Plain :=
    ⟨by decide +kernel, ⟨'/', by decide +kernel, rfl⟩, ⟨'f', by decide +kernel, rfl⟩,
      by decide +kernel⟩
  have hempty : emptyRow.Plain :=
    ⟨by decide +kernel, ⟨'.', by decide +kernel, rfl⟩, ⟨'.', by decide +kernel, rfl⟩,
      by decide +kernel⟩
  have htable : Tabled Row.OnLine [quotedRow, emptyRow] sampleTable := by
    refine ⟨"Listing policies".toList, .returnFeed, sampleBody, false, by decide +kernel, ?_, rfl,
      by decide +kernel⟩
    simp only [sampleBody, List.forall_mem_cons, List.not_mem_nil, false_imp_iff, implies_true,
      and_true]
    refine ⟨⟨?_, ?_⟩, ⟨["node\r"], ?_, ?_⟩, ⟨?_, ?_⟩, ⟨?_, ?_⟩, ⟨[], ?_, ?_⟩⟩
    all_goals decide +kernel
  have hroot : PlainName "/" :=
    ⟨by decide +kernel, by decide +kernel, by decide +kernel⟩
  have hlogs : PlainName " logs " :=
    ⟨by decide +kernel, by decide +kernel, by decide +kernel⟩
  have hvhostTable : Tabled vhostOnLine ["/", " logs "] sampleVhostTable := by
    refine ⟨"name".toList, .feed, sampleVhostBody, true, by decide +kernel, ?_, rfl,
      by decide +kernel⟩
    simp only [sampleVhostBody, List.forall_mem_cons, List.not_mem_nil, false_imp_iff, implies_true,
      and_true]
    exact ⟨rfl, ⟨by decide +kernel, by decide +kernel⟩, rfl, by decide +kernel, by decide +kernel⟩
  have holdPolicies : Answers oldBroker none [] ["list_policies", "-p", "/"] .table sampleTable :=
    rfl
  have hnewPolicies : Answers newBroker none [] ["list_policies", "-p", "/"] .json
      (Value.array ([quotedRow, emptyRow].map Row.toListed)).text := rfl
  have holdVhosts : Answers oldBroker none [] ["list_vhosts"] .table sampleVhostTable := rfl
  have hnewVhosts : Answers newBroker none [] ["list_vhosts"] .json
      (Value.array (["/", " logs "].map vhostObject)).text := rfl
  have hrows : ∀ r ∈ [quotedRow, emptyRow], r.Plain :=
    List.forall_mem_cons.2 ⟨hquoted, List.forall_mem_singleton.2 hempty⟩
  have hlistedRows := Row.listed_toListed [quotedRow, emptyRow]
  obtain ⟨holdRows, hnewRows⟩ :=
    tryPoliciesIn_tryVhosts_agree.1 hrows htable hlistedRows holdPolicies hnewPolicies
  have hnames : ∀ name ∈ ["/", " logs "], PlainName name :=
    List.forall_mem_cons.2 ⟨hroot, List.forall_mem_singleton.2 hlogs⟩
  have hlistedNames := listed_vhostObject ["/", " logs "]
  obtain ⟨holdNames, hnewNames⟩ :=
    tryPoliciesIn_tryVhosts_agree.2 hnames hvhostTable hlistedNames holdVhosts hnewVhosts
  exact ⟨hquoted, hempty, htable, holdRows, hnewRows, hroot, hlogs, hvhostTable, holdNames,
    hnewNames⟩

end

end BrokerPolicy
