import Mathlib.Data.List.Forall2
import ColumnTrace.Proofs.FirstAppearances
import ColumnTrace.Proofs.Lineage.NamedColumns
import ColumnTrace.Proofs.Namespaces

/-!
# What a record says of its map

A record shows the columns of its map one by one, with what each comes from, and the tables that are
read. The tables are not taken from the qualifiers: they are read off the qualified names, at the
last dot, after two rounds of taking repetitions off, one in each column and one over all columns.
Where no source has a dot in its own name, nothing goes wrong on this way: what stands before the
last dot is the source's whole qualifier, however its segments are cut
(`Attribute.namespaceOf_qualifiedName`), and repetitions in one column do not matter to what is seen
first over all columns (`tablesOf_flatMap_eraseDups`). So the record has the tables of all sources
and no others, and all in the order of the map (`LineageMap.record_isFaithful`).
-/

set_option autoImplicit false

namespace ColumnTrace

/-- What stands before the last dot of a source's qualified name is its qualifier. -/
theorem Attribute.namespaceOf_qualifiedName {a : Attribute} {name : String}
    (hname : a.name = some name) (hdots : '.' ∉ name.toList) :
    Text.namespaceOf a.qualifiedName = Text.dotted a.qualifier := by
  have hparts : a.qualifiedName = Text.dotted (a.qualifier ++ [name]) := by
    rw [Attribute.qualifiedName, hname]
    rfl
  rw [hparts]
  by_cases hbare : a.qualifier = []
  · rw [hbare, List.nil_append, Text.dotted_singleton, Text.namespaceOf_of_not_mem hdots]
    rfl
  · rw [Text.dotted_append hbare (List.cons_ne_nil name []), Text.dotted_singleton,
      Text.namespaceOf_under_eq_iff]
    exact hdots

/-! ## The tables of several columns -/

/-- The tables of columns, taken column by column. -/
theorem tablesOf_eq_flatMap (columns : List String) :
    tablesOf columns =
      (columns.flatMap fun column => [Text.namespaceOf column].filter (· != "")).eraseDups := by
  rw [tablesOf, List.map_eq_flatMap, List.filter_flatMap]

/-- Repetitions within the parts of a list of columns do not change its tables. -/
theorem tablesOf_flatMap_eraseDups {α : Type} (f : α → List String) (xs : List α) :
    tablesOf (xs.flatMap fun x => (f x).eraseDups) = tablesOf (xs.flatMap f) := by
  rw [tablesOf_eq_flatMap, ← eraseDups_flatMap_eraseDups, eraseDups_flatMap_of_parts,
    eraseDups_flatMap_eraseDups, ← tablesOf_eq_flatMap]

namespace LineageMap

/-- The tables of all sources of the map, as often as they occur. -/
def sourceTables (m : LineageMap) : List String :=
  (m.entries.flatMap fun entry => entry.2.attrs.map fun a => Text.dotted a.qualifier).filter
    (· != "")

/-- The tables of a map are the qualifiers of its sources, those that are there. -/
theorem mem_sourceTables {m : LineageMap} {table : String} :
    table ∈ m.sourceTables ↔
      table ≠ "" ∧ ∃ entry ∈ m.entries, ∃ a ∈ entry.2.attrs, Text.dotted a.qualifier = table := by
  simp only [sourceTables, List.mem_filter, List.mem_flatMap, List.mem_map, bne_iff_ne]
  exact and_comm

/-- A column of a record bears the name of the map's column, and has the qualified names of its
sources, each once and in the order in which they first appear. -/
def ShownAs (entry : Attribute × AttributeSet) (shown : ColumnSources) : Prop :=
  entry.1.name = some shown.column ∧
    FirstSeen (entry.2.attrs.map Attribute.qualifiedName) shown.sources

/-- A record shows the entries of the map, one by one. -/
theorem forall₂_toColumns {m : LineageMap} (hnamed : m.isNamed = true) :
    List.Forall₂ ShownAs m.entries m.toColumns := by
  have hkeys := (isNamed_iff.1 hnamed).1
  rw [toColumns, List.forall₂_map_right_iff, List.forall₂_same]
  intro entry hentry
  obtain ⟨name, hname⟩ := Option.isSome_iff_exists.1 (hkeys entry.1 (List.mem_map_of_mem hentry))
  refine ⟨?_, firstSeen_eraseDups _⟩
  rw [hname]
  rfl

/-- Reading the tables off the qualified names gives the tables of the sources. -/
theorem tablesOf_toColumns {m : LineageMap} (hnamed : m.isNamed = true)
    (hdots : ∀ entry ∈ m.entries, ∀ a ∈ entry.2.attrs, ∀ name ∈ a.name, '.' ∉ name.toList) :
    tablesOf (m.toColumns.flatMap ColumnSources.sources) = m.sourceTables.eraseDups := by
  have hsources := (isNamed_iff.1 hnamed).2
  have hqualifiers :
      (m.entries.flatMap fun entry =>
        (entry.2.attrs.map Attribute.qualifiedName).map Text.namespaceOf) =
        m.entries.flatMap fun entry => entry.2.attrs.map fun a => Text.dotted a.qualifier := by
    refine List.flatMap_congr fun entry hentry => ?_
    rw [List.map_map]
    refine List.map_congr_left fun a ha => ?_
    obtain ⟨name, hname⟩ := Option.isSome_iff_exists.1 (hsources entry hentry a ha)
    exact Attribute.namespaceOf_qualifiedName hname (hdots entry hentry a ha name hname)
  rw [toColumns, List.flatMap_map, tablesOf_flatMap_eraseDups, tablesOf, List.map_flatMap,
    hqualifiers, sourceTables]

/-- Where the sources have no dots in their names, the record shows each column of the map in its
turn with its sources, each once and in the order in which they appear, and the tables of all
sources, each once and in the order in which they appear over the columns, and no others. -/
theorem record_isFaithful {m : LineageMap} (hnamed : m.isNamed = true)
    (hdots : ∀ entry ∈ m.entries, ∀ a ∈ entry.2.attrs, ∀ name ∈ a.name, '.' ∉ name.toList) :
    ∃ r, m.record = .ok r ∧
      List.Forall₂ ShownAs m.entries r.columns ∧
      FirstSeen m.sourceTables r.inputs ∧
      ∀ table, table ∈ r.inputs ↔
        table ≠ "" ∧ ∃ entry ∈ m.entries, ∃ a ∈ entry.2.attrs, Text.dotted a.qualifier = table := by
  have hinputs : m.toRecord.inputs = m.sourceTables.eraseDups := tablesOf_toColumns hnamed hdots
  refine ⟨m.toRecord, by rw [record, if_pos hnamed], forall₂_toColumns hnamed, ?_, fun table => ?_⟩
  · rw [hinputs]
    exact firstSeen_eraseDups m.sourceTables
  · rw [hinputs, List.mem_eraseDups, mem_sourceTables]

/-- Two columns that read one table twice over, its name once in one segment and once in two. -/
def twiceRead : LineageMap :=
  .ofList [(⟨1, some "total", []⟩,
      .ofList [⟨2, some "price", ["shop.sales"]⟩, ⟨3, some "rate", []⟩,
        ⟨4, some "price", ["shop", "sales"]⟩]),
    (⟨5, some "tax", []⟩, .ofList [⟨6, some "tax", ["rates"]⟩, ⟨2, some "price", ["shop.sales"]⟩])]

/-- A table that is read twice over under one name is recorded once. -/
theorem record_isFaithful_twiceRead :
    (twiceRead.isNamed = true ∧ ∀ entry ∈ twiceRead.entries, ∀ a ∈ entry.2.attrs,
      ∀ name ∈ a.name, '.' ∉ name.toList) ∧
    ∃ r, twiceRead.record = .ok r ∧
      List.Forall₂ ShownAs twiceRead.entries r.columns ∧
      FirstSeen twiceRead.sourceTables r.inputs ∧
      ∀ table, table ∈ r.inputs ↔
        table ≠ "" ∧ ∃ entry ∈ twiceRead.entries, ∃ a ∈ entry.2.attrs,
          Text.dotted a.qualifier = table :=
  ⟨by decide, record_isFaithful (by decide) (by decide)⟩

example : twiceRead.record = .ok
    { inputs := ["shop.sales", "rates"]
      outputs := []
      columns := [⟨"total", ["shop.sales.price", "rate"]⟩,
        ⟨"tax", ["rates.tax", "shop.sales.price"]⟩] } := by
  decide

end LineageMap

end ColumnTrace
