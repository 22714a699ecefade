import ColumnTrace.Schema

/-!
# Schemas from rows

A schema may be given as rows of database, table, column and type. A row without a table or a
column says nothing; a row without a database puts its table at the top. Names are in lower case.
Databases, tables at the top, and the columns of those tables share their names: a column at the
top can take the place of a table in a database, and a table cannot be put where a column stands.
-/

set_option autoImplicit false

namespace ColumnTrace

/-- A row: a column of a table with its type. The database may be empty. -/
structure SchemaRow where
  database : String
  table : String
  column : String
  type : String
deriving DecidableEq

/-- The type of a column where none is given. -/
def unknownType : String := "unknown"

namespace SchemaRow

/-- The row that fields stand for, if they name a table and a column: the first four fields without
blanks around them, as many as there are. -/
def ofFields? (fields : List String) : Option SchemaRow :=
  let field (i : Nat) := Text.trim (fields.getD i "")
  if field 1 = "" || field 2 = "" then none
  else some ⟨Text.lower (field 0), Text.lower (field 1), Text.lower (field 2),
    if field 3 = "" then unknownType else Text.lower (field 3)⟩

end SchemaRow

/-- What stands under a name in a mapping at the top: a column with its type, or a table. -/
inductive SchemaEntry where
  | column (type : String)
  | table (columns : OrderedMap String String)

/-- A table would stand where a column stands. -/
structure NameClash where
  database : String
  table : String
deriving DecidableEq

/-- The mappings at the top, each a table or a database. -/
abbrev SchemaDraft := OrderedMap String (OrderedMap String SchemaEntry)

namespace SchemaDraft

/-- The draft with one more row. -/
def add (draft : SchemaDraft) (row : SchemaRow) : Except NameClash SchemaDraft :=
  if row.database = "" then
    let top := (draft.get? row.table).getD ∅
    .ok (draft.insert row.table (top.insert row.column (.column row.type)))
  else
    let top := (draft.get? row.database).getD ∅
    match top.get? row.table with
    | some (.column _) => .error ⟨row.database, row.table⟩
    | some (.table columns) =>
      let table := SchemaEntry.table (columns.insert row.column row.type)
      .ok (draft.insert row.database (top.insert row.table table))
    | none =>
      let table := SchemaEntry.table (OrderedMap.empty.insert row.column row.type)
      .ok (draft.insert row.database (top.insert row.table table))

/-- The draft with more rows, one after the other. -/
def addAll (draft : SchemaDraft) : List SchemaRow → Except NameClash SchemaDraft
  | [] => .ok draft
  | row :: rest => do (← draft.add row).addAll rest

end SchemaDraft

/-- A mapping of columns to their types. -/
def Schema.ofTypes (columns : OrderedMap String String) : Schema :=
  .mapping (columns.entries.map fun entry => (.text entry.1, .leaf (.text entry.2)))

/-- The schema of an entry. -/
def SchemaEntry.toSchema : SchemaEntry → Schema
  | .column type => .leaf (.text type)
  | .table columns => .ofTypes columns

/-- The schema of a draft. -/
def SchemaDraft.toSchema (draft : SchemaDraft) : Schema :=
  .mapping (draft.entries.map fun top =>
    (.text top.1, .mapping (top.2.entries.map fun entry => (.text entry.1, entry.2.toSchema))))

namespace Schema

/-- The schema of rows of fields. -/
def ofRows (rows : List (List String)) : Except NameClash Schema := do
  return (← SchemaDraft.addAll OrderedMap.empty (rows.filterMap SchemaRow.ofFields?)).toSchema

/-- The schema of rows under a row of headings. -/
def ofTable (rows : List (List String)) : Except NameClash Schema := ofRows rows.tail

/-- The number of names at the top. -/
def size : Schema → Nat
  | .mapping entries => entries.length
  | _ => 0

end Schema

end ColumnTrace
