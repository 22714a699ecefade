import ColumnTrace.Lineage.Map

/-!
# Lineage records

A `LineageRecord` is what a reader gets: the tables that are read, the tables that are written, and
for each column the columns it comes from. `LineageMap.toRecord` makes one from a map whose columns
have names; tables are what stands before the last dot of a column.
-/

set_option autoImplicit false

namespace ColumnTrace

/-- A column with the columns it comes from. -/
structure ColumnSources where
  column : String
  sources : List String
deriving DecidableEq

/-- The tables that a statement reads and writes, and its columns with their sources. -/
structure LineageRecord where
  inputs : List String
  outputs : List String
  columns : List ColumnSources
deriving DecidableEq

/-- The tables of columns, each once, in order of first appearance; a column without a table is left
out. -/
def tablesOf (columns : List String) : List String :=
  ((columns.map Text.namespaceOf).filter (· != "")).eraseDups

/-- The columns of a map with the qualified names of their sources. -/
def LineageMap.toColumns (m : LineageMap) : List ColumnSources :=
  m.entries.map fun entry =>
    ⟨entry.1.name.getD "", (entry.2.attrs.map Attribute.qualifiedName).eraseDups⟩

/-- The record of a map. -/
def LineageMap.toRecord (m : LineageMap) : LineageRecord where
  inputs := tablesOf (m.toColumns.flatMap ColumnSources.sources)
  outputs := tablesOf (m.toColumns.map ColumnSources.column)
  columns := m.toColumns

/-- All columns of the map and all their sources have names. -/
def LineageMap.isNamed (m : LineageMap) : Bool :=
  m.entries.all fun entry => entry.1.isNamed && entry.2.attrs.all Attribute.isNamed

/-- The record of a map, where nothing in it lacks a name. -/
def LineageMap.record (m : LineageMap) : Except ExtractionError LineageRecord :=
  if m.isNamed then .ok m.toRecord else .error .namelessColumn

end ColumnTrace
