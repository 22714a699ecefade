/-!
# Writing comma separated values

Fields have commas between them and rows end in CR LF. A field with a comma, a double quote or a
line end in it stands between double quotes, and its own double quotes are written twice.
-/

set_option autoImplicit false

namespace ColumnTrace.Csv

/-- The character can stand in a field only between quotes. -/
def needsQuotes (c : Char) : Bool := c == ',' || c == '"' || c == '\r' || c == '\n'

/-- The characters of a field with every double quote twice. -/
def doubled (cs : List Char) : List Char :=
  cs.flatMap fun c => if c = '"' then ['"', '"'] else [c]

/-- A field as it is written. -/
def writeField (field : String) : String :=
  if field.toList.any needsQuotes then
    String.ofList ('"' :: doubled field.toList ++ ['"'])
  else field

/-- A row as it is written. -/
def writeRow (fields : List String) : String :=
  ",".intercalate (fields.map writeField) ++ "\r\n"

/-- The text of rows. -/
def write (rows : List (List String)) : String := String.join (rows.map writeRow)

end ColumnTrace.Csv
