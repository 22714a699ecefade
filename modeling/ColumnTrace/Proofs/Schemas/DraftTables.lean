import ColumnTrace.Proofs.Schemas.Drafts

/-!
# The tables of a draft

Under a name at the top stands a table, where nothing but columns stands there, or the tables of a
database. The schema of a draft has these tables (`mem_topLevels_ofDraft`): a column that stands
beside tables is no part of any.
-/

set_option autoImplicit false

namespace ColumnTrace

/-- Nothing but columns stands in the mapping. -/
def OnlyColumns (top : OrderedMap String SchemaEntry) : Prop :=
  ∀ {inner entry}, top.get? inner = some entry → ∃ type, entry = .column type

/-- A mapping under a name at the top has a table of these columns: itself, where nothing but
columns stands there, or one in it. -/
inductive ListedUnder (outer : String) (top : OrderedMap String SchemaEntry) :
    String → List Label → Prop
  | columns (filled : top.keys ≠ []) (only : OnlyColumns top) :
      ListedUnder outer top outer (top.keys.map some)
  | table {inner : String} {columns : OrderedMap String String}
      (stands : top.get? inner = some (.table columns)) (filled : columns.keys ≠ []) :
      ListedUnder outer top (outer ++ "." ++ inner) (columns.keys.map some)

namespace Schema

variable {name : String} {labels : List Label}

/-- A table of several mappings is one of a mapping under a name at the top. -/
theorem mem_topLevels {entries : List (Scalar × Schema)} :
    (name, labels) ∈ (topLevels entries).flatten ↔
      ∃ entry ∈ entries, (name, labels) ∈ (entry.2.levels entry.1.word).flatten := by
  induction entries with
  | nil => simp [topLevels]
  | cons entry rest ih =>
    obtain ⟨key, schema⟩ := entry
    rw [topLevels, mem_flatten_overlay, ih]
    simp

/-- A table below a path is one of a mapping below the path and a name. -/
theorem mem_entriesLevels {path : String} {entries : List (Scalar × Schema)} :
    (name, labels) ∈ (entriesLevels path entries).flatten ↔ ∃ entry ∈ entries,
      (name, labels) ∈ (entry.2.levels (path ++ "." ++ entry.1.word)).flatten := by
  induction entries with
  | nil => simp [entriesLevels]
  | cons entry rest ih =>
    obtain ⟨key, schema⟩ := entry
    rw [entriesLevels, mem_flatten_overlay, ih]
    simp

/-- Columns with types are one table, if there are any. -/
theorem mem_levels_ofTypes {path : String} {columns : OrderedMap String String} :
    (name, labels) ∈ ((ofTypes columns).levels path).flatten ↔
      columns.keys ≠ [] ∧ name = path ∧ labels = columns.keys.map some := by
  have hlabels : (columns.entries.map fun entry =>
      (Scalar.text entry.1, Schema.leaf (.text entry.2))).map (fun entry => entry.1.label) =
      columns.keys.map some := by
    simp [OrderedMap.keys, Function.comp_def, Scalar.label, Scalar.word]
  rw [ofTypes, levels]
  by_cases hempty : columns.keys = []
  · have hentries : columns.entries = [] := List.map_eq_nil_iff.1 hempty
    simp [hentries, hempty, isColumnMap, entriesLevels]
  · have hentries : columns.entries ≠ [] := fun h => hempty (congrArg (List.map Prod.fst) h)
    rw [if_pos (by simp [isColumnMap, isLeaf, hentries]), hlabels]
    simp [hempty]

/-- The schema of a mapping under a name at the top. -/
def ofTop (top : OrderedMap String SchemaEntry) : Schema :=
  .mapping (top.entries.map fun entry => (.text entry.1, entry.2.toSchema))

/-- A mapping is a table if it has columns and nothing else. -/
theorem isColumnMap_ofTop {top : OrderedMap String SchemaEntry} :
    isColumnMap (top.entries.map fun entry => (Scalar.text entry.1, entry.2.toSchema)) = true ↔
      top.keys ≠ [] ∧ OnlyColumns top := by
  have hleaf : ∀ entry : SchemaEntry, entry.toSchema.isLeaf = true ↔
      ∃ type, entry = .column type := by
    intro entry
    cases entry with
    | column type => simp [SchemaEntry.toSchema, isLeaf]
    | table columns => simp [SchemaEntry.toSchema, ofTypes, isLeaf]
  have hall : OnlyColumns top ↔ ∀ entry ∈ top.entries, entry.2.toSchema.isLeaf = true := by
    simp only [OnlyColumns, OrderedMap.get?_eq_some_iff, Prod.forall, hleaf]
  rw [hall, isColumnMap, OrderedMap.keys]
  simp

/-- The tables of a mapping under a name at the top are those that are listed there. -/
theorem mem_levels_ofTop {outer : String} {top : OrderedMap String SchemaEntry} :
    (name, labels) ∈ ((ofTop top).levels outer).flatten ↔ ListedUnder outer top name labels := by
  have hlabels : (top.entries.map fun entry => (Scalar.text entry.1, entry.2.toSchema)).map
      (fun entry => entry.1.label) = top.keys.map some := by
    simp [OrderedMap.keys, Function.comp_def, Scalar.label, Scalar.word]
  rw [ofTop, levels]
  by_cases hcolumns : top.keys ≠ [] ∧ OnlyColumns top
  · rw [if_pos (isColumnMap_ofTop.2 hcolumns), hlabels, List.flatten_singleton, List.mem_singleton,
      Prod.mk.injEq]
    constructor
    · rintro ⟨rfl, rfl⟩
      exact .columns hcolumns.1 hcolumns.2
    · rintro (_ | ⟨stands, -⟩)
      · exact ⟨rfl, rfl⟩
      · obtain ⟨type, htype⟩ := hcolumns.2 stands
        cases htype
  · rw [if_neg (mt isColumnMap_ofTop.1 hcolumns), List.flatten_cons, List.nil_append,
      mem_entriesLevels]
    constructor
    · rintro ⟨_, hentry, hlisted⟩
      obtain ⟨⟨inner, entry⟩, hmem, rfl⟩ := List.mem_map.1 hentry
      cases entry with
      | column type => simp [SchemaEntry.toSchema, levels] at hlisted
      | table columns =>
        obtain ⟨hfilled, rfl, rfl⟩ := mem_levels_ofTypes.1 hlisted
        exact .table (OrderedMap.get?_eq_some_iff.2 hmem) hfilled
    · rintro (⟨hfilled, honly⟩ | ⟨stands, hfilled⟩)
      · exact absurd ⟨hfilled, honly⟩ hcolumns
      · exact ⟨_, List.mem_map_of_mem (OrderedMap.get?_eq_some_iff.1 stands),
          mem_levels_ofTypes.2 ⟨hfilled, rfl, rfl⟩⟩

/-- The tables of the schema of a draft, before names are put in the form in which they are
compared. -/
theorem mem_topLevels_ofDraft {draft : SchemaDraft} :
    (name, labels) ∈ (topLevels (draft.entries.map fun top =>
        (Scalar.text top.1, ofTop top.2))).flatten ↔
      ∃ outer, ListedUnder outer (draft.under outer) name labels := by
  have hunder : ∀ {outer top}, draft.get? outer = some top → draft.under outer = top :=
    fun h => by rw [SchemaDraft.under, h, Option.getD_some]
  rw [mem_topLevels]
  constructor
  · rintro ⟨_, hentry, hlisted⟩
    obtain ⟨⟨outer, top⟩, hmem, rfl⟩ := List.mem_map.1 hentry
    rw [← OrderedMap.get?_eq_some_iff] at hmem
    refine ⟨outer, ?_⟩
    rw [hunder hmem]
    exact mem_levels_ofTop.1 hlisted
  · rintro ⟨outer, hlisted⟩
    cases hget : draft.get? outer with
    | none =>
      have hnone : draft.under outer = ∅ := by rw [SchemaDraft.under, hget, Option.getD_none]
      rw [hnone] at hlisted
      rcases hlisted with ⟨hfilled, -⟩ | ⟨stands, -⟩
      · exact absurd rfl hfilled
      · cases stands
    | some top =>
      rw [hunder hget] at hlisted
      exact ⟨_, List.mem_map_of_mem (OrderedMap.get?_eq_some_iff.1 hget),
        mem_levels_ofTop.2 hlisted⟩

end Schema

end ColumnTrace
