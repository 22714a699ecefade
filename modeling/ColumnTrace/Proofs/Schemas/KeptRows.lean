import ColumnTrace.Catalog
import ColumnTrace.Proofs.BareNames
import ColumnTrace.Proofs.Schemas.DraftTables

/-!
# Rows that a schema keeps

The rows of a schema are given as fields. Their names stand as they are where they are plain, and
then a table in the catalog is found under the name that its rows give it. `records_iff` tells when
no row is lost: if and only if no name is one of a database and one of a table without a database.
-/

set_option autoImplicit false

namespace ColumnTrace

open Text

/-! ## Plain names -/

/-- A filled name of small characters, with no mark and no dot in it. -/
structure IsPlainName (name : String) : Prop where
  ne_empty : name ≠ ""
  no_mark : ∀ c ∈ name.toList, isNameMark c = false
  small : ∀ c ∈ name.toList, isSmall c = true
  no_dot : '.' ∉ name.toList

instance (name : String) : Decidable (IsPlainName name) :=
  decidable_of_iff (name ≠ "" ∧
    (name.toList.all fun c => !isNameMark c && isSmall c && c != '.') = true) <| by
      rw [List.all_eq_true]
      simp only [Bool.and_eq_true, Bool.not_eq_true', bne_iff_ne]
      exact ⟨fun h => ⟨h.1, fun c hc => (h.2 c hc).1.1, fun c hc => (h.2 c hc).1.2,
          fun hdot => (h.2 _ hdot).2 rfl⟩,
        fun h => ⟨h.ne_empty, fun c hc => ⟨⟨h.no_mark c hc, h.small c hc⟩,
          fun heq => h.no_dot (heq ▸ hc)⟩⟩⟩

/-- A name of small characters is in lower case. -/
theorem lower_of_isSmall {name : String} (h : ∀ c ∈ name.toList, isSmall c = true) :
    Text.lower name = name := by
  rw [Text.lower, lowerAfter_of_isSmall h, String.ofList_toList]

/-- Names are compared as they stand where there is no mark and no capital letter in them. -/
theorem normalize_of_isSmall {name : String} (hmark : ∀ c ∈ name.toList, isNameMark c = false)
    (hsmall : ∀ c ∈ name.toList, isSmall c = true) : normalize name = name := by
  have hbare : bare name.toList = name.toList :=
    bare_eq_self_iff.2 ⟨fun c hc => hmark c (List.mem_of_mem_head? hc),
      fun c hc => hmark c (List.mem_of_mem_getLast? hc)⟩
  rw [normalize_eq, hbare, lowerAfter_of_isSmall hsmall, String.ofList_toList]

/-- A plain name stands as it is. -/
theorem IsPlainName.normalize_eq {name : String} (h : IsPlainName name) : normalize name = name :=
  normalize_of_isSmall h.no_mark h.small

/-! ## Rows of fields -/

namespace SchemaRow

/-- The fields that write the row down. -/
def fields (row : SchemaRow) : List String := [row.database, row.table, row.column, row.type]

/-- The row without blanks around its fields. -/
def trimmed (row : SchemaRow) : SchemaRow :=
  ⟨trim row.database, trim row.table, trim row.column, trim row.type⟩

/-- The row with the type that is kept. -/
def typed (row : SchemaRow) : SchemaRow :=
  { row with type := if row.type = "" then unknownType else lower row.type }

/-- The names of a row stand as they are; there may be no database. -/
structure IsPlain (row : SchemaRow) : Prop where
  database : row.database = "" ∨ IsPlainName row.database
  table : IsPlainName row.table
  column : IsPlainName row.column

instance (row : SchemaRow) : Decidable row.IsPlain :=
  decidable_of_iff ((row.database = "" ∨ IsPlainName row.database) ∧ IsPlainName row.table ∧
    IsPlainName row.column)
    ⟨fun ⟨database, table, column⟩ => ⟨database, table, column⟩,
      fun ⟨database, table, column⟩ => ⟨database, table, column⟩⟩

/-- The name of the table of a row, with its database if there is one. -/
def tableName (row : SchemaRow) : String :=
  if row.database = "" then row.table else row.database ++ "." ++ row.table

variable {row : SchemaRow}

/-- A plain row is read back from its fields. -/
theorem ofFields?_fields (h : row.trimmed.IsPlain) :
    ofFields? row.fields = some row.trimmed.typed := by
  have htable : trim row.table ≠ "" := h.table.ne_empty
  have hcolumn : trim row.column ≠ "" := h.column.ne_empty
  have hlowerDatabase : lower (trim row.database) = trim row.database := by
    rcases h.database with hempty | hplain
    · have hempty : trim row.database = "" := hempty
      rw [hempty]
      rfl
    · exact lower_of_isSmall hplain.small
  have hlowerTable : lower (trim row.table) = trim row.table := lower_of_isSmall h.table.small
  have hlowerColumn : lower (trim row.column) = trim row.column :=
    lower_of_isSmall h.column.small
  simp only [ofFields?, fields, List.getD_cons_zero, List.getD_cons_succ, htable, hcolumn,
    decide_false, Bool.or_self, Bool.false_eq_true, if_false, hlowerDatabase, hlowerTable,
    hlowerColumn, trimmed, typed]
  rfl

end SchemaRow

/-! ## Names of tables -/

/-- A name without dots and what comes after the first dot are told from the whole. -/
theorem append_dot_inj {first second first' second' : String} (h : '.' ∉ first.toList)
    (h' : '.' ∉ first'.toList) :
    first ++ "." ++ second = first' ++ "." ++ second' ↔ first = first' ∧ second = second' := by
  have htoList : ∀ xs ys : String, (xs ++ "." ++ ys).toList = xs.toList ++ '.' :: ys.toList :=
    fun xs ys => by simp
  rw [← String.toList_inj, htoList, htoList, append_separator_inj h h', String.toList_inj,
    String.toList_inj]

theorem dot_mem_append (first second : String) : '.' ∈ (first ++ "." ++ second).toList := by
  simp

namespace SchemaRow

variable {row : SchemaRow}

theorem tableName_of_no_database (h : row.database = "") : row.tableName = row.table := if_pos h

/-- A table in a database is named after it. -/
theorem tableName_of_database (h : row.database ≠ "") :
    row.tableName = row.database ++ "." ++ row.table :=
  if_neg h

/-- A table that stands at the top has no database. -/
theorem database_of_tableName_eq_outer (h : row.tableName = row.outer) : row.database = "" := by
  by_contra hdatabase
  rw [tableName_of_database hdatabase, outer_of_database hdatabase] at h
  have hlength := congrArg (fun name => name.toList.length) h
  simp at hlength

/-- The database of a plain row is a plain name, where there is one. -/
theorem IsPlain.database_of_ne (h : row.IsPlain) (hne : row.database ≠ "") :
    IsPlainName row.database :=
  h.database.resolve_left hne

/-- The name at the top of a plain row is plain. -/
theorem IsPlain.outer (h : row.IsPlain) : IsPlainName row.outer := by
  by_cases hdatabase : row.database = ""
  · exact (outer_of_no_database hdatabase).symm ▸ h.table
  · exact (outer_of_database hdatabase).symm ▸ h.database_of_ne hdatabase

/-- A name without a dot is that of a table without a database. -/
theorem tableName_eq_iff {name : String} (hdot : '.' ∉ name.toList) :
    row.tableName = name ↔ row.database = "" ∧ row.table = name := by
  by_cases hdatabase : row.database = ""
  · simp [tableName_of_no_database hdatabase, hdatabase]
  · rw [tableName_of_database hdatabase]
    refine iff_of_false ?_ fun h => hdatabase h.1
    rintro rfl
    exact hdot (dot_mem_append _ _)

/-- Any other name is that of a table in a database. -/
theorem IsPlain.tableName_eq_append_iff (h : row.IsPlain) {database table : String}
    (hdot : '.' ∉ database.toList) :
    row.tableName = database ++ "." ++ table ↔ row.IsOf database table := by
  by_cases hdatabase : row.database = ""
  · rw [tableName_of_no_database hdatabase]
    refine iff_of_false ?_ fun h => h.1 hdatabase
    intro heq
    exact h.table.no_dot (heq ▸ dot_mem_append _ _)
  · rw [tableName_of_database hdatabase, append_dot_inj (h.database_of_ne hdatabase).no_dot hdot,
      IsOf, and_iff_right hdatabase]

/-- The table of a plain row stands under its own name. -/
theorem IsPlain.normalize_tableName (h : row.IsPlain) :
    normalize row.tableName = row.tableName := by
  by_cases hdatabase : row.database = ""
  · rw [tableName_of_no_database hdatabase, h.table.normalize_eq]
  · have hplain := h.database_of_ne hdatabase
    have hmem : ∀ c ∈ (row.database ++ "." ++ row.table).toList,
        c ∈ row.database.toList ∨ c = '.' ∨ c ∈ row.table.toList := by simp
    rw [tableName_of_database hdatabase]
    refine normalize_of_isSmall (fun c hc => ?_) (fun c hc => ?_)
    · rcases hmem c hc with hc | rfl | hc
      · exact hplain.no_mark c hc
      · decide
      · exact h.table.no_mark c hc
    · rcases hmem c hc with hc | rfl | hc
      · exact hplain.small c hc
      · decide
      · exact h.table.small c hc

/-- The table of a plain row has a name. -/
theorem IsPlain.tableName_ne_empty (h : row.IsPlain) : row.tableName ≠ "" := by
  by_cases hdatabase : row.database = ""
  · rw [tableName_of_no_database hdatabase]
    exact h.table.ne_empty
  · rw [tableName_of_database hdatabase]
    intro hempty
    exact List.not_mem_nil (String.toList_eq_nil_iff.2 hempty ▸ dot_mem_append _ _)

variable {rows : List SchemaRow}

/-- The columns of the rows of a table, each once, in the order in which they first come. -/
def columnsOf (rows : List SchemaRow) (name : String) : List Label :=
  ((rows.filter (·.tableName = name)).map SchemaRow.column).eraseDups.map some

/-- The columns of plain rows stand under their own names. -/
theorem normal_columnsOf (h : ∀ row ∈ rows, row.IsPlain) (name : String) :
    (columnsOf rows name).map Label.normal = columnsOf rows name := by
  have hnormal : ∀ label ∈ columnsOf rows name, Label.normal label = label := by
    intro label hlabel
    obtain ⟨column, hcolumn, rfl⟩ := List.mem_map.1 hlabel
    obtain ⟨row, hrow, rfl⟩ := List.mem_map.1 (List.mem_eraseDups.1 hcolumn)
    exact congrArg some (h row (List.mem_filter.1 hrow).1).column.normalize_eq
  rw [List.map_congr_left hnormal, List.map_id']

/-- The column of a row is one of its table. -/
theorem mem_columnsOf (h : row ∈ rows) :
    some row.column ∈ columnsOf rows row.tableName :=
  List.mem_map_of_mem (List.mem_eraseDups.2 (List.mem_map_of_mem (List.mem_filter.2
    ⟨h, decide_eq_true rfl⟩)))

end SchemaRow

/-- Where names are apart, the rows under the name of a table without a database are its own. -/
theorem NamesApart.outer_eq_iff {rows : List SchemaRow} (hapart : NamesApart rows)
    {row other : SchemaRow} (hrow : row ∈ rows) (hother : other ∈ rows) (hempty : row.database = "")
    (hdot : '.' ∉ row.table.toList) :
    other.outer = row.table ↔ other.tableName = row.table := by
  rw [SchemaRow.tableName_eq_iff hdot]
  constructor
  · intro houter
    have hdatabase : other.database = "" := by
      by_contra hne
      exact hapart row hrow other hother hempty hne
        (houter.symm.trans (SchemaRow.outer_of_database hne))
    exact ⟨hdatabase, (SchemaRow.outer_of_no_database hdatabase).symm.trans houter⟩
  · rintro ⟨hdatabase, htable⟩
    exact (SchemaRow.outer_of_no_database hdatabase).trans htable

/-- A table under a name without a dot is what stands there. -/
theorem ListedUnder.only_of_no_dot {outer name : String} {top : OrderedMap String SchemaEntry}
    {labels : List Label} (h : ListedUnder outer top name labels) (hdot : '.' ∉ name.toList) :
    outer = name ∧ OnlyColumns top := by
  rcases h with ⟨-, honly⟩ | ⟨-, -⟩
  · exact ⟨rfl, honly⟩
  · exact absurd (dot_mem_append _ _) hdot

/-- A table with a database in its name stands in it. -/
theorem ListedUnder.table_of_append {outer database table : String}
    {top : OrderedMap String SchemaEntry} {labels : List Label}
    (h : ListedUnder outer top (database ++ "." ++ table) labels) (houter : '.' ∉ outer.toList)
    (hdatabase : '.' ∉ database.toList) :
    outer = database ∧ ∃ columns, top.get? table = some (.table columns) := by
  generalize hname : database ++ "." ++ table = name at h
  rcases h with ⟨-, -⟩ | ⟨stands, -⟩
  · exact absurd (hname ▸ dot_mem_append database table) houter
  · obtain ⟨rfl, rfl⟩ := (append_dot_inj hdatabase houter).1 hname
    exact ⟨rfl, _, stands⟩

namespace SchemaDraft

variable {draft : SchemaDraft} {rows : List SchemaRow} {outer name : String} {labels : List Label}

/-- A table of the draft is that of a row. -/
theorem Holds.exists_row (h : draft.Holds rows)
    (hlisted : ListedUnder outer (draft.under outer) name labels) :
    ∃ row ∈ rows, row.outer = outer ∧ row.tableName = name := by
  rcases hlisted with ⟨hfilled, honly⟩ | ⟨stands, -⟩
  · obtain ⟨inner, hinner⟩ := List.exists_mem_of_ne_nil _ hfilled
    obtain ⟨⟨_, entry⟩, hentry, rfl⟩ := List.mem_map.1 hinner
    obtain ⟨type, rfl⟩ := honly (OrderedMap.get?_of_mem hentry)
    obtain ⟨row, hrow, hdatabase, rfl⟩ := h.column (OrderedMap.get?_of_mem hentry)
    exact ⟨row, hrow, SchemaRow.outer_of_no_database hdatabase,
      SchemaRow.tableName_of_no_database hdatabase⟩
  · obtain ⟨⟨row, hrow, hof⟩, -⟩ := h.table stands
    refine ⟨row, hrow, hof.outer_inner.1, ?_⟩
    rw [SchemaRow.tableName_of_database hof.1, hof.2.1, hof.2.2]

/-- Where names are apart, a table of the draft has the columns of its rows. -/
theorem Holds.labels_eq (h : draft.Holds rows) (hplain : ∀ row ∈ rows, row.IsPlain)
    (hapart : NamesApart rows) (hlisted : ListedUnder outer (draft.under outer) name labels) :
    labels = SchemaRow.columnsOf rows name := by
  obtain ⟨row, hrow, houter, hname⟩ := h.exists_row hlisted
  rcases hlisted with ⟨-, -⟩ | ⟨stands, -⟩
  · have hempty := SchemaRow.database_of_tableName_eq_outer (hname.trans houter.symm)
    obtain rfl : row.table = outer := (SchemaRow.outer_of_no_database hempty).symm.trans houter
    have hdot := (hplain row hrow).table.no_dot
    have hinner : (rows.filter (·.tableName = row.table)).map SchemaRow.inner =
        (rows.filter (·.tableName = row.table)).map SchemaRow.column := by
      refine List.map_congr_left fun other hother => ?_
      have hname := of_decide_eq_true (List.mem_filter.1 hother).2
      exact SchemaRow.inner_of_no_database ((SchemaRow.tableName_eq_iff hdot).1 hname).1
    rw [SchemaRow.columnsOf, h.keys, ← hinner, List.filter_congr fun other hother =>
      decide_eq_decide.2 (hapart.outer_eq_iff hrow hother hempty hdot)]
  · obtain ⟨⟨other, hother, hof⟩, hkeys⟩ := h.table stands
    have hdot : '.' ∉ outer.toList :=
      hof.2.1 ▸ ((hplain other hother).database_of_ne hof.1).no_dot
    rw [SchemaRow.columnsOf, hkeys, List.filter_congr fun other hother =>
      decide_eq_decide.2 ((hplain other hother).tableName_eq_append_iff hdot)]

/-- Where names are apart, each row has its table in the draft. -/
theorem Holds.exists_listed (h : draft.Holds rows) (hapart : NamesApart rows) {row : SchemaRow}
    (hrow : row ∈ rows) :
    ∃ labels, ListedUnder row.outer (draft.under row.outer) row.tableName labels := by
  have hkey := h.mem_keys_iff.2 ⟨row, hrow, rfl, rfl⟩
  obtain ⟨⟨inner, entry⟩, hentry, hinner⟩ := List.mem_map.1 hkey
  obtain rfl : inner = row.inner := hinner
  by_cases hdatabase : row.database = ""
  · have houter := SchemaRow.outer_of_no_database hdatabase
    have honly : OnlyColumns (draft.under row.outer) := by
      intro inner entry hget
      cases entry with
      | column type => exact ⟨type, rfl⟩
      | table columns =>
        obtain ⟨⟨other, hother, hof⟩, -⟩ := h.table hget
        exact absurd (houter ▸ hof.2.1).symm (hapart row hrow other hother hdatabase hof.1)
    rw [SchemaRow.tableName_of_no_database hdatabase, ← houter]
    exact ⟨_, .columns (List.ne_nil_of_mem hkey) honly⟩
  · cases entry with
    | column type =>
      obtain ⟨other, hother, hempty, htable⟩ := h.column (OrderedMap.get?_of_mem hentry)
      rw [SchemaRow.outer_of_database hdatabase] at htable
      exact absurd htable (hapart other hother row hrow hempty hdatabase)
    | table columns =>
      have hget := OrderedMap.get?_of_mem hentry
      have hfilled : columns.keys ≠ [] := by
        rw [(h.table hget).2]
        exact List.ne_nil_of_mem (List.mem_eraseDups.2 (List.mem_map_of_mem (List.mem_filter.2
          ⟨hrow, decide_eq_true (SchemaRow.isOf_outer_inner hdatabase)⟩)))
      rw [SchemaRow.tableName_of_database hdatabase, ← SchemaRow.outer_of_database hdatabase,
        ← SchemaRow.inner_of_database hdatabase]
      exact ⟨_, .table hget hfilled⟩

/-- The tables of the draft with names in the form in which they are compared. -/
def namedTables (draft : SchemaDraft) : List (String × List Label) :=
  ((Schema.topLevels (draft.entries.map fun top =>
    (Scalar.text top.1, Schema.ofTop top.2))).flatten.map fun table =>
      (normalize table.1, table.2.map Label.normal)).filter (·.1 != "")

theorem tables_toSchema (draft : SchemaDraft) :
    draft.toSchema.tables = .ofList draft.namedTables := rfl

/-- Plain names have that form. -/
theorem Holds.mem_namedTables_iff (h : draft.Holds rows) (hplain : ∀ row ∈ rows, row.IsPlain) :
    (name, labels) ∈ draft.namedTables ↔ ∃ outer written,
      ListedUnder outer (draft.under outer) name written ∧ labels = written.map Label.normal := by
  constructor
  · intro hnamed
    obtain ⟨⟨written, columns⟩, hlisted, heq⟩ := List.mem_map.1 (List.mem_filter.1 hnamed).1
    obtain ⟨rfl, rfl⟩ := Prod.mk.inj heq
    obtain ⟨outer, hlisted⟩ := Schema.mem_topLevels_ofDraft.1 hlisted
    obtain ⟨row, hrow, -, rfl⟩ := h.exists_row hlisted
    rw [(hplain row hrow).normalize_tableName]
    exact ⟨outer, columns, hlisted, rfl⟩
  · rintro ⟨outer, written, hlisted, rfl⟩
    obtain ⟨row, hrow, -, rfl⟩ := h.exists_row hlisted
    refine List.mem_filter.2 ⟨List.mem_map.2
      ⟨_, Schema.mem_topLevels_ofDraft.2 ⟨outer, hlisted⟩, ?_⟩, ?_⟩
    · rw [(hplain row hrow).normalize_tableName]
    · exact bne_iff_ne.2 (hplain row hrow).tableName_ne_empty

/-- The tables of the schema of plain rows have the names that the draft gives them. -/
theorem Holds.mem_keys_tables_iff (h : draft.Holds rows) (hplain : ∀ row ∈ rows, row.IsPlain) :
    name ∈ draft.toSchema.tables.keys ↔
      ∃ outer labels, ListedUnder outer (draft.under outer) name labels := by
  rw [tables_toSchema, OrderedMap.mem_keys_ofList, List.mem_map]
  constructor
  · rintro ⟨⟨_, labels⟩, hnamed, rfl⟩
    obtain ⟨outer, written, hlisted, -⟩ := (h.mem_namedTables_iff hplain).1 hnamed
    exact ⟨outer, written, hlisted⟩
  · rintro ⟨outer, written, hlisted⟩
    exact ⟨_, (h.mem_namedTables_iff hplain).2 ⟨outer, written, hlisted, rfl⟩, rfl⟩

/-- Where names are apart, they are the tables of the rows. -/
theorem Holds.mem_tables_iff (h : draft.Holds rows) (hplain : ∀ row ∈ rows, row.IsPlain)
    (hapart : NamesApart rows) : (name, labels) ∈ draft.toSchema.tables.entries ↔
      ∃ row ∈ rows, name = row.tableName ∧ labels = SchemaRow.columnsOf rows row.tableName := by
  have hnamed : ∀ {name labels}, (name, labels) ∈ draft.namedTables ↔
      ∃ row ∈ rows, name = row.tableName ∧ labels = SchemaRow.columnsOf rows row.tableName := by
    intro name labels
    rw [h.mem_namedTables_iff hplain]
    constructor
    · rintro ⟨outer, written, hlisted, rfl⟩
      obtain ⟨row, hrow, -, hname⟩ := h.exists_row hlisted
      refine ⟨row, hrow, hname.symm, ?_⟩
      rw [h.labels_eq hplain hapart hlisted, SchemaRow.normal_columnsOf hplain, hname]
    · rintro ⟨row, hrow, rfl, rfl⟩
      obtain ⟨written, hlisted⟩ := h.exists_listed hapart hrow
      refine ⟨_, written, hlisted, ?_⟩
      rw [h.labels_eq hplain hapart hlisted, SchemaRow.normal_columnsOf hplain]
  rw [tables_toSchema, OrderedMap.mem_entries_ofList_iff, hnamed]
  rintro ⟨name, labels⟩ htable ⟨name', labels'⟩ hother heq
  obtain ⟨row, -, rfl, rfl⟩ := hnamed.1 htable
  obtain ⟨other, -, rfl, rfl⟩ := hnamed.1 hother
  have hname : row.tableName = other.tableName := heq
  rw [hname]

end SchemaDraft

/-! ## Rows that are kept -/

/-- The catalog has the table of each row with its column, and nothing but the tables of rows, each
with the columns of its rows. -/
structure Catalog.Records (c : Catalog) (rows : List SchemaRow) : Prop where
  column : ∀ row ∈ rows, c.hasTable (some row.tableName) = true ∧
    some row.column ∈ c.columns (some row.tableName)
  table : ∀ entry ∈ c.tables.entries, ∃ row ∈ rows,
    entry = (some row.tableName, SchemaRow.columnsOf rows row.tableName)

section
variable {schema : Schema} {name : String}

/-- The catalog of a schema has its tables, in order. -/
theorem Catalog.entries_ofSchema (schema : Schema) : (Catalog.ofSchema schema).tables.entries =
    schema.tables.entries.map fun table => (some table.1, table.2) := by
  refine OrderedMap.entries_ofList_of_nodup ?_
  have hkeys : (schema.tables.entries.map fun table => ((some table.1 : Label), table.2)).map
      Prod.fst = schema.tables.keys.map some := by
    simp [OrderedMap.keys, Function.comp_def]
  rw [hkeys]
  exact List.Pairwise.map some (fun _ _ hne heq => hne (Option.some.inj heq))
    schema.tables.nodup_keys

/-- The catalog of a schema has the tables of the schema, under names that stand as they are. -/
theorem Catalog.hasTable_ofSchema_iff (h : normalize name = name) :
    (Catalog.ofSchema schema).hasTable (some name) = true ↔ name ∈ schema.tables.keys := by
  have hnormal : Label.normal (some name) = some name := congrArg some h
  have hkeys : (Catalog.ofSchema schema).tables.keys = schema.tables.keys.map some := by
    rw [OrderedMap.keys, entries_ofSchema, OrderedMap.keys, List.map_map, List.map_map]
    rfl
  rw [hasTable, hnormal, OrderedMap.contains, ← Option.ne_none_iff_isSome, ne_eq,
    OrderedMap.get?_eq_none_iff, not_not, hkeys,
    List.mem_map_of_injective fun _ _ => Option.some.inj]

/-- The catalog of a schema gives a table the columns that it has in the schema. -/
theorem Catalog.columns_ofSchema {labels : List Label} (h : normalize name = name)
    (hmem : (name, labels) ∈ schema.tables.entries) :
    (Catalog.ofSchema schema).columns (some name) = labels := by
  have hnormal : Label.normal (some name) = some name := congrArg some h
  have hentry : (some name, labels) ∈ (Catalog.ofSchema schema).tables.entries := by
    rw [entries_ofSchema]
    exact List.mem_map_of_mem hmem
  rw [columns, hnormal, OrderedMap.get?_of_mem hentry, Option.getD_some]

end

namespace SchemaDraft

variable {draft : SchemaDraft} {rows : List SchemaRow}

/-- The draft that plain rows leave records them, if no database has the name of a table without
one. -/
theorem Holds.records (h : draft.Holds rows) (hplain : ∀ row ∈ rows, row.IsPlain)
    (hapart : NamesApart rows) : (Catalog.ofSchema draft.toSchema).Records rows where
  column row hrow := by
    have hnormal := (hplain row hrow).normalize_tableName
    have hmem := (h.mem_tables_iff hplain hapart).2 ⟨row, hrow, rfl, rfl⟩
    rw [Catalog.hasTable_ofSchema_iff hnormal, Catalog.columns_ofSchema hnormal hmem]
    exact ⟨OrderedMap.key_mem_of_entry_mem hmem, SchemaRow.mem_columnsOf hrow⟩
  table entry hentry := by
    rw [Catalog.entries_ofSchema] at hentry
    obtain ⟨⟨name, labels⟩, hmem, rfl⟩ := List.mem_map.1 hentry
    obtain ⟨row, hrow, rfl, rfl⟩ := (h.mem_tables_iff hplain hapart).1 hmem
    exact ⟨row, hrow, rfl⟩

/-- A name of a database cannot have a table of its own as well as those in it. -/
theorem Holds.namesApart (h : draft.Holds rows) (hplain : ∀ row ∈ rows, row.IsPlain)
    (hall : ∀ row ∈ rows, (Catalog.ofSchema draft.toSchema).hasTable (some row.tableName) = true) :
    NamesApart rows := by
  have hlisted : ∀ row ∈ rows, ∃ outer labels,
      ListedUnder outer (draft.under outer) row.tableName labels := fun row hrow =>
    (h.mem_keys_tables_iff hplain).1
      ((Catalog.hasTable_ofSchema_iff (hplain row hrow).normalize_tableName).1 (hall row hrow))
  intro row hrow other hother hempty hdatabase hsame
  obtain ⟨outer, labels, htop⟩ := hlisted row hrow
  obtain ⟨outer', labels', hin⟩ := hlisted other hother
  obtain ⟨first, hfirst, rfl, -⟩ := h.exists_row hin
  have hname := SchemaRow.tableName_of_no_database hempty
  obtain ⟨rfl, honly⟩ := htop.only_of_no_dot (hname ▸ (hplain row hrow).table.no_dot)
  rw [SchemaRow.tableName_of_database hdatabase] at hin
  obtain ⟨houter, columns, hstands⟩ := hin.table_of_append (hplain first hfirst).outer.no_dot
    ((hplain other hother).database_of_ne hdatabase).no_dot
  -- the same name at the top has nothing but columns, and a table
  rw [houter, ← hsame, ← hname] at hstands
  obtain ⟨type, htype⟩ := honly hstands
  cases htype

end SchemaDraft

section
variable {given : List SchemaRow}

/-- The types of the rows make no difference to what a draft holds. -/
theorem SchemaDraft.Holds.of_typed {draft : SchemaDraft} {rows : List SchemaRow}
    (h : draft.Holds (rows.map SchemaRow.typed)) : draft.Holds rows where
  keys outer := by
    rw [h.keys, List.filter_map, List.map_map]
    rfl
  column hget := by
    obtain ⟨_, htyped, hnames⟩ := h.column hget
    obtain ⟨row, hrow, rfl⟩ := List.mem_map.1 htyped
    exact ⟨row, hrow, hnames⟩
  table hget := by
    obtain ⟨⟨_, htyped, hof⟩, hkeys⟩ := h.table hget
    obtain ⟨row, hrow, rfl⟩ := List.mem_map.1 htyped
    refine ⟨⟨row, hrow, hof⟩, ?_⟩
    rw [hkeys, List.filter_map, List.map_map]
    rfl

/-- The schema of plain rows is that of the draft they make. -/
theorem Schema.ofTable_eq_ok_iff (heading : List String) {schema : Schema}
    (hplain : ∀ row ∈ given.map SchemaRow.trimmed, row.IsPlain) :
    Schema.ofTable (heading :: given.map SchemaRow.fields) = .ok schema ↔
      ∃ draft, SchemaDraft.addAll .empty ((given.map SchemaRow.trimmed).map SchemaRow.typed) =
        .ok draft ∧ draft.toSchema = schema := by
  have hrows : (given.map SchemaRow.fields).filterMap SchemaRow.ofFields? =
      (given.map SchemaRow.trimmed).map SchemaRow.typed := by
    rw [List.filterMap_map, List.map_map, ← List.filterMap_eq_map]
    refine List.filterMap_congr fun row hrow => ?_
    rw [Function.comp_apply, SchemaRow.ofFields?_fields (hplain _ (List.mem_map_of_mem hrow))]
    rfl
  rw [ofTable, List.tail_cons, ofRows, hrows]
  cases SchemaDraft.addAll .empty ((given.map SchemaRow.trimmed).map SchemaRow.typed) with
  | error clash => exact ⟨fun h => (by cases h), fun ⟨_, h, _⟩ => (by cases h)⟩
  | ok draft =>
    constructor
    · intro h
      exact ⟨draft, rfl, Except.ok.inj h⟩
    · rintro ⟨_, h, rfl⟩
      obtain rfl := Except.ok.inj h
      rfl

/-- No row of a table of fields is lost if and only if no name is one of a database and one of a
table without a database. Where one is, the rows are refused or a row is without its table. -/
theorem records_iff (heading : List String)
    (hplain : ∀ row ∈ given.map SchemaRow.trimmed, row.IsPlain) :
    ((∃ schema, Schema.ofTable (heading :: given.map SchemaRow.fields) = .ok schema ∧
        (Catalog.ofSchema schema).Records (given.map SchemaRow.trimmed)) ↔
      NamesApart (given.map SchemaRow.trimmed)) ∧
    ∀ schema, Schema.ofTable (heading :: given.map SchemaRow.fields) = .ok schema →
      (∀ row ∈ given.map SchemaRow.trimmed,
        (Catalog.ofSchema schema).hasTable (some row.tableName) = true) →
      NamesApart (given.map SchemaRow.trimmed) := by
  have happart : ∀ schema, Schema.ofTable (heading :: given.map SchemaRow.fields) = .ok schema →
      (∀ row ∈ given.map SchemaRow.trimmed,
        (Catalog.ofSchema schema).hasTable (some row.tableName) = true) →
      NamesApart (given.map SchemaRow.trimmed) := by
    intro schema hschema hall
    obtain ⟨draft, hdraft, rfl⟩ := (Schema.ofTable_eq_ok_iff heading hplain).1 hschema
    exact (SchemaDraft.Holds.of_addAll hdraft).of_typed.namesApart hplain hall
  refine ⟨⟨fun ⟨schema, hschema, hrecords⟩ => ?_, fun h => ?_⟩, happart⟩
  · exact happart schema hschema fun row hrow => (hrecords.column row hrow).1
  · have htyped : NamesApart ((given.map SchemaRow.trimmed).map SchemaRow.typed) :=
      List.forall_mem_map.2 fun row hrow => List.forall_mem_map.2 fun other hother =>
        h row hrow other hother
    obtain ⟨draft, hdraft⟩ := SchemaDraft.exists_addAll htyped
    exact ⟨_, (Schema.ofTable_eq_ok_iff heading hplain).2 ⟨draft, hdraft, rfl⟩,
      (SchemaDraft.Holds.of_addAll hdraft).of_typed.records hplain h⟩

/-- The headings of a table of rows. -/
def rowHeading : List String := ["database", "table", "column", "data_type"]

/-- The rows of a database and of a table beside it, given in turns and between blanks. -/
theorem records_tableBesideDatabase :
    let given : List SchemaRow := [⟨"d", "t", "a", "int"⟩, ⟨" ", "u", "a", ""⟩,
      ⟨"d", " t ", "b", "int"⟩, ⟨"d", "t", "a", "text"⟩]
    ∃ schema, Schema.ofTable (rowHeading :: given.map SchemaRow.fields) = .ok schema ∧
      (Catalog.ofSchema schema).Records (given.map SchemaRow.trimmed) :=
  (records_iff rowHeading (by decide +kernel)).1.2 (by decide +kernel)

/-- A table without a database that is called like a database: in the one order of the rows they are
refused, in the other the table in the database is lost. -/
theorem not_records_tableLikeDatabase :
    (∀ row ∈ [(⟨"", "d", "c", "int"⟩ : SchemaRow), ⟨"d", "c", "x", "int"⟩], row.IsPlain) ∧
    Schema.ofTable [rowHeading, ["", "d", "c", "int"], ["d", "c", "x", "int"]] =
      .error ⟨"d", "c"⟩ ∧
    ∃ schema, Schema.ofTable [rowHeading, ["d", "c", "x", "int"], ["", "d", "c", "int"]] =
      .ok schema ∧ (Catalog.ofSchema schema).hasTable (some "d.c") = false :=
  ⟨by decide +kernel, rfl, _, rfl, by decide +kernel⟩

end

end ColumnTrace
