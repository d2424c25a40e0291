import BrokerPolicy.Listing.Row
import BrokerPolicy.Proofs.Text.Lines

/-!
What the tables of a broker hold.

A table is `Tabled`: a header, then a line for each item in order, and anywhere between them lines
that hold nothing. What a line holds differs from table to table: a row with or without further
columns (`Row.OnLine`), the name of a virtual host (`vhostOnLine`). If every line is read as what it
holds, with a carriage return at its end and without, the items are read from the table
(`filterMap_tableLines`), whatever the ends of the lines are.
-/

namespace BrokerPolicy

open Text

/-! ### Tables -/

/-- A line of a table: its text and its end, and what it holds, if anything. -/
structure TableLine (α : Type) where
  item : Option α
  text : List Char
  ending : LineEnd

/-- The text is a table of the items. `holds` says what there may be on a line that holds an item
and on one that holds nothing. -/
def Tabled {α : Type} (holds : Option α → List Char → Prop) (items : List α) (text : String) :
    Prop :=
  ∃ (header : List Char) (ending : LineEnd) (body : List (TableLine α)) (closed : Bool),
    '\n' ∉ header ∧ (∀ line ∈ body, holds line.item line.text) ∧
      body.filterMap TableLine.item = items ∧
      text = String.ofList (document closed
        ((header, ending) :: body.map fun line => (line.text, line.ending)))

/-- The line, if it counts. -/
def counted? (line : List Char) : Option String :=
  if isNoise line then none else some (String.ofList line)

lemma counted?_eq_none {line : List Char} (h : isNoise line = true) : counted? line = none :=
  if_pos h

lemma counted?_eq_some {line : List Char} (h : isNoise line = false) :
    counted? line = some (String.ofList line) :=
  if_neg (by rw [h]; decide)

/-- The lines of a table are those that count, but for the first. -/
lemma tableLines_eq_filterMap (text : String) :
    tableLines text = ((lines text.toList).drop 1).filterMap counted? := by
  rw [tableLines, ← List.filterMap_eq_map, List.filterMap_filter]
  refine List.filterMap_congr fun line _ => ?_
  cases h : isNoise line with
  | false => rw [counted?_eq_some h]; rfl
  | true => rw [counted?_eq_none h]; rfl

/-- A carriage return at its end does not make a line count. -/
lemma isNoise_dropReturn (line : List Char) : isNoise (dropReturn line) = isNoise line := by
  rw [isNoise, isNoise, trimChars_dropReturn]

/-- However the line is ended, it is read as what it holds. -/
structure ReadAs {α : Type} (read : String → Option α) (item : Option α) (line : List Char) :
    Prop where
  newline : '\n' ∉ line
  whole : (counted? line).bind read = item
  dropped : (counted? (dropReturn line)).bind read = item

/-- The items of a table are read if every line is. -/
lemma filterMap_tableLines {α : Type} {holds : Option α → List Char → Prop} {items : List α}
    {text : String} {read : String → Option α}
    (hread : ∀ item line, (∀ a ∈ item, a ∈ items) → holds item line → ReadAs read item line)
    (h : Tabled holds items text) : (tableLines text).filterMap read = items := by
  obtain ⟨header, ending, body, closed, hheader, hbody, rfl, rfl⟩ := h
  have hlines : ∀ line ∈ body, ReadAs read line.item line.text := by
    intro line hline
    refine hread _ _ (fun a ha => ?_) (hbody line hline)
    exact List.mem_filterMap.2 ⟨line, hline, ha⟩
  rw [tableLines_eq_filterMap, String.toList_ofList, drop_lines_document hheader,
    List.filterMap_filterMap, filterMap_lines_document rfl, List.filterMap_map]
  · exact List.filterMap_congr fun line hline => (hlines line hline).whole
  · intro l hl
    obtain ⟨line, hline, rfl⟩ := List.mem_map.1 hl
    exact ⟨(hlines line hline).newline, (hlines line hline).dropped.trans
      (hlines line hline).whole.symm⟩

/-! ### Rows -/

namespace Row

def columns (r : Row) : List String :=
  [r.vhost, r.name, r.scope, r.pattern, r.definition, r.priority]

/-- The row can stand on a line: nothing in it is taken for a separator, the line is not taken for a
blank one, and a carriage return at its end is none of its own. -/
structure Plain (r : Row) : Prop where
  separators : ∀ column ∈ r.columns, '\t' ∉ column.toList ∧ '\n' ∉ column.toList
  vhost : ∃ c ∈ r.vhost.toList, isBlank c = false
  name : ∃ c ∈ r.name.toList, isBlank c = false
  priority : r.priority.toList.getLast? ≠ some '\r'

/-- A line with a row has the columns of the row and perhaps further ones; a line without is blank,
closes the table or has too few columns. -/
def OnLine : Option Row → List Char → Prop
  | some r, line => ∃ further : List String, (∀ column ∈ further, '\n' ∉ column.toList) ∧
      line = r.toLine.toList ++ further.flatMap fun column => '\t' :: column.toList
  | none, line => '\n' ∉ line ∧ (isNoise line = true ∨ line.count '\t' < 5)

variable {r : Row}

lemma toList_toLine (r : Row) : r.toLine.toList =
    r.vhost.toList ++ '\t' :: (r.name.toList ++ '\t' :: (r.scope.toList ++ '\t' ::
      (r.pattern.toList ++ '\t' :: (r.definition.toList ++ '\t' :: r.priority.toList)))) := by
  rw [toLine, String.toList_intercalate]
  simp [List.intercalate]

/-- A text with a separator in the middle is not taken for a blank line or the closing mark. -/
lemma isNoise_eq_false {before after : List Char} (hbefore : ∃ c ∈ before, isBlank c = false)
    (hafter : ∃ c ∈ after, isBlank c = false) : isNoise (before ++ '\t' :: after) = false := by
  have htrim : trimChars (before ++ '\t' :: after) =
      trimStart before ++ '\t' :: trimEnd after := by
    rw [trimChars, trimStart_append hbefore, ← List.singleton_append, ← List.append_assoc,
      trimEnd_append _ hafter, List.append_assoc, List.singleton_append]
  have htab : '\t' ∈ trimChars (before ++ '\t' :: after) := by
    rw [htrim]
    exact List.mem_append_right _ List.mem_cons_self
  rw [isNoise, Bool.or_eq_false_iff, beq_eq_false_iff_ne, beq_eq_false_iff_ne]
  constructor
  · intro hnil
    exact List.not_mem_nil (hnil ▸ htab)
  · intro hdone
    exact absurd (hdone ▸ htab) (by decide)

/-- The columns of a row are found whatever follows them. -/
lemma ofLine?_append (hr : r.Plain) {rest : List Char} (hrest : ∀ c ∈ rest.head?, c = '\t') :
    ofLine? (String.ofList (r.toLine.toList ++ rest)) = some r := by
  have hcolumns := hr.separators
  simp only [columns, List.forall_mem_cons] at hcolumns
  obtain ⟨hvhost, hname, hscope, hpattern, hdefinition, hpriority, -⟩ := hcolumns
  obtain ⟨further, hfurther⟩ := exists_splitOn_append hpriority.1 hrest
  rw [ofLine?, String.toList_ofList, toList_toLine]
  simp only [List.append_assoc, List.cons_append]
  rw [splitOn_append_cons hvhost.1, splitOn_append_cons hname.1, splitOn_append_cons hscope.1,
    splitOn_append_cons hpattern.1, splitOn_append_cons hdefinition.1, hfurther]
  simp

/-- A row is read from its line, with or without further columns. -/
lemma counted?_bind_ofLine? (hr : r.Plain) {rest : List Char} (hrest : ∀ c ∈ rest.head?, c = '\t') :
    (counted? (r.toLine.toList ++ rest)).bind ofLine? = some r := by
  have hnoise : isNoise (r.toLine.toList ++ rest) = false := by
    obtain ⟨c, hc, hblank⟩ := hr.name
    rw [toList_toLine, List.append_assoc, List.cons_append]
    refine isNoise_eq_false hr.vhost ⟨c, ?_, hblank⟩
    rw [List.append_assoc]
    exact List.mem_append_left _ hc
  rw [counted?_eq_some hnoise, Option.bind_some, ofLine?_append hr hrest]

/-- The line of a row ends in its priority, which holds no carriage return. -/
lemma dropReturn_toLine (hr : r.Plain) : dropReturn r.toLine.toList = r.toLine.toList := by
  have htab : '\t' ≠ '\r' := by
    decide
  rw [toList_toLine]
  simp only [dropReturn_append_cons htab, dropReturn_of_getLast? hr.priority]

/-- A row is read from its line, with and without a carriage return. -/
lemma readAs_row (hr : r.Plain) {line : List Char} (h : OnLine (some r) line) :
    ReadAs ofLine? (some r) line := by
  obtain ⟨further, hfurther, rfl⟩ := h
  have hrow : '\n' ∉ r.toLine.toList := by
    have hcolumns := hr.separators
    simp only [columns, List.forall_mem_cons] at hcolumns
    simp [toList_toLine, hcolumns]
  -- a carriage return at the end could belong to the priority or to the last of the further columns
  cases further with
  | nil =>
      have hread : (counted? (r.toLine.toList ++ [])).bind ofLine? = some r :=
        counted?_bind_ofLine? hr (by simp)
      rw [List.append_nil] at hread
      rw [List.flatMap_nil, List.append_nil]
      exact ⟨hrow, hread, by rwa [dropReturn_toLine hr]⟩
  | cons column further =>
      have hrest : '\n' ∉ column.toList ++ further.flatMap fun column => '\t' :: column.toList := by
        simpa using hfurther
      rw [List.flatMap_cons, List.cons_append]
      refine ⟨?_, ?_, ?_⟩
      · simpa [hrow] using hrest
      · exact counted?_bind_ofLine? hr (by simp)
      · rw [dropReturn_append_cons (by decide)]
        exact counted?_bind_ofLine? hr (by simp)

/-- A line with too few columns is no row. -/
lemma ofLine?_eq_none {line : List Char} (h : line.count '\t' < 5) :
    ofLine? (String.ofList line) = none := by
  have hlength : ((splitOn '\t' line).map String.ofList).length < 6 := by
    rw [List.length_map, length_splitOn]
    omega
  rw [ofLine?, String.toList_ofList]
  split
  · next heq =>
    rw [heq] at hlength
    simp only [List.length_cons] at hlength
    omega
  · rfl

lemma counted?_bind_eq_none {line : List Char}
    (h : isNoise line = true ∨ line.count '\t' < 5) : (counted? line).bind ofLine? = none := by
  cases hnoise : isNoise line with
  | true => rw [counted?_eq_none hnoise, Option.bind_none]
  | false =>
      have hcount := h.resolve_left (by simp [hnoise])
      rw [counted?_eq_some hnoise, Option.bind_some, ofLine?_eq_none hcount]

/-- What is not a row is read as none. -/
lemma readAs_none {line : List Char} (h : OnLine none line) : ReadAs ofLine? none line := by
  refine ⟨h.1, counted?_bind_eq_none h.2, counted?_bind_eq_none (h.2.imp ?_ fun hcount => ?_)⟩
  · rw [isNoise_dropReturn]
    exact id
  · exact lt_of_le_of_lt ((sublist_dropReturn line).count_le '\t') hcount

/-- The rows of a table are read from it. -/
theorem filterMap_ofLine?_of_tabled {rows : List Row} {text : String} (hrows : ∀ r ∈ rows, r.Plain)
    (h : Tabled OnLine rows text) : (tableLines text).filterMap ofLine? = rows := by
  refine filterMap_tableLines (fun item line hitem hline => ?_) h
  cases item with
  | none => exact readAs_none hline
  | some r => exact readAs_row (hrows r (hitem r rfl)) hline

end Row

/-! ### Virtual hosts -/

/-- The name can stand on a line: it is a single line, which counts and has no carriage return of
its own at the end. -/
structure PlainName (name : String) : Prop where
  newline : '\n' ∉ name.toList
  last : name.toList.getLast? ≠ some '\r'
  counted : isNoise name.toList = false

/-- A line with a virtual host is its name; a line without is blank or closes the table. -/
def vhostOnLine : Option String → List Char → Prop
  | some name, line => line = name.toList
  | none, line => '\n' ∉ line ∧ isNoise line = true

/-- A plain name on a line of its own is read as it is. -/
lemma readAs_vhost {name : String} (hname : PlainName name) :
    ReadAs some (some name) name.toList := by
  have hcounted : counted? name.toList = some name := by
    rw [counted?_eq_some hname.counted, String.ofList_toList]
  refine ⟨hname.newline, ?_, ?_⟩
  · rw [hcounted, Option.bind_some]
  · rw [dropReturn_of_getLast? hname.last, hcounted, Option.bind_some]

lemma readAs_of_isNoise {line : List Char} (hnewline : '\n' ∉ line) (h : isNoise line = true) :
    ReadAs (some : String → Option String) none line := by
  refine ⟨hnewline, ?_, ?_⟩
  · rw [counted?_eq_none h, Option.bind_none]
  · rw [counted?_eq_none (by rwa [isNoise_dropReturn]), Option.bind_none]

/-- The names in a table of virtual hosts are its lines that count. -/
theorem tableLines_of_tabled {names : List String} {text : String}
    (hnames : ∀ name ∈ names, PlainName name) (h : Tabled vhostOnLine names text) :
    tableLines text = names := by
  rw [← List.filterMap_some (l := tableLines text)]
  refine filterMap_tableLines (fun item line hitem hline => ?_) h
  cases item with
  | none => exact readAs_of_isNoise hline.1 hline.2
  | some name =>
      obtain rfl : line = name.toList := hline
      exact readAs_vhost (hnames name (hitem name rfl))

end BrokerPolicy
