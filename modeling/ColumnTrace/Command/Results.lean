import ColumnTrace.Command.Options
import ColumnTrace.Csv.Writer
import ColumnTrace.Lineage.Report
import ColumnTrace.Session

/-!
# Results of scripts

The result of a statement stands beside the script that it is from. Results are written as a list of
JSON objects, or as a table with one row for each column and source.
-/

set_option autoImplicit false

namespace ColumnTrace.Command

/-- The result of a statement of a script. -/
structure ScriptResult where
  file : String
  statement : StatementLineage

namespace ScriptResult

/-- The result as a JSON object. -/
def toJson (r : ScriptResult) : Json :=
  .object [("file", .string r.file), ("statement", .int r.statement.id),
    ("sql", .string r.statement.sql),
    ("lineage", match r.statement.lineage with
      | some record => record.toJson
      | none => .null)]

/-- The rows of the result; there are none without lineage. -/
def rows (r : ScriptResult) : List (List String) :=
  match r.statement.lineage with
  | some record => record.rows (some r.file) (some r.statement.id)
  | none => []

end ScriptResult

/-- The text of results. -/
def OutputFormat.write (format : OutputFormat) (results : List ScriptResult) : String :=
  match format with
  | .json => (Json.array (results.map ScriptResult.toJson)).indented
  | .csv => Csv.write (LineageRecord.rowHeader :: results.flatMap ScriptResult.rows)

end ColumnTrace.Command
