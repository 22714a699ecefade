import ColumnTrace.Label
import ColumnTrace.Text.Blank
import ColumnTrace.Text.Case
import ColumnTrace.Text.Segments

/-!
# Identifiers

SQL names are compared in one form: without blanks, backticks and double quotes around them, in
lower case. A table's name may be qualified by a database and a catalog (`TableName`).
-/

set_option autoImplicit false

namespace ColumnTrace

/-- The form in which names are compared: blanks are taken off at both ends, then backticks, then
double quotes, and the rest is put in lower case. -/
def normalize (name : String) : String :=
  let bare := Text.trimmed Text.isBlank name.toList
  let bare := Text.trimmed (· == '\x60') bare
  let bare := Text.trimmed (· == '"') bare
  Text.lower (String.ofList bare)

/-- The label in the form in which names are compared. -/
def Label.normal (label : Label) : Label := label.map normalize

/-- The characters without one backtick at their end. -/
def dropLastBacktick (cs : List Char) : List Char :=
  if cs.getLast? == some '\x60' then cs.dropLast else cs

/-- The text without one backtick at its start and one at its end. -/
def dropBackticks (name : String) : String :=
  String.ofList <| dropLastBacktick <| match name.toList with
    | '\x60' :: rest => rest
    | cs => cs

/-- The name of a table, with the database and the catalog that hold it. -/
structure TableName where
  name : String
  database : Option String
  catalog : Option String
deriving DecidableEq, Inhabited

namespace TableName

/-- The parts that are given, the widest first. -/
def parts (t : TableName) : List String :=
  (t.catalog.toList ++ t.database.toList ++ [t.name]).filter (· != "")

/-- The parts with dots between them. -/
def qualifiedName (t : TableName) : String := Text.dotted t.parts

/-- Reads a dotted name: the last segment is the table, the first of three or more the catalog, all
between the database. -/
def parse (qualified : String) : TableName :=
  match Text.segments qualified with
  | [] => ⟨"", none, none⟩
  | [name] => ⟨name, none, none⟩
  | [database, name] => ⟨name, some database, none⟩
  | catalog :: rest => ⟨rest.getLastD "", some (Text.dotted rest.dropLast), some catalog⟩

end TableName

end ColumnTrace
