import ColumnTrace.Json.Printer
import ColumnTrace.Lineage.Record

/-!
# How a record is written

A record is written as a JSON object, or as rows of a table with one row for each column and source.
-/

set_option autoImplicit false

namespace ColumnTrace

/-- A column with its sources as a JSON object. -/
def ColumnSources.toJson (c : ColumnSources) : Json :=
  .object [("column", .string c.column), ("originalColumns", .strings c.sources)]

namespace LineageRecord

/-- The record as a JSON object. -/
def toJson (r : LineageRecord) : Json :=
  .object [("inputTables", .strings r.inputs), ("outputTables", .strings r.outputs),
    ("columnLineage", .array (r.columns.map ColumnSources.toJson))]

/-- The names of the columns of `rows`. -/
def rowHeader : List String := ["file", "statement", "column", "original_column"]

/-- One row for each column and source, with the script and the number of the statement before them;
a column without sources has one row. -/
def rows (r : LineageRecord) (file : Option String) (statement : Option Int) :
    List (List String) :=
  r.columns.flatMap fun c =>
    (if c.sources.isEmpty then [""] else c.sources).map fun source =>
      [file.getD "", (statement.map Text.writeInt).getD "", c.column, source]

end LineageRecord

end ColumnTrace
