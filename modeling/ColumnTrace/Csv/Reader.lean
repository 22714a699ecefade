import ColumnTrace.Text.Lines

/-!
# Reading comma separated values

A text is a list of rows, and a row a list of fields. A field that begins with a double quote goes
on to the next lone double quote, commas and line ends included; a double quote inside it is
written twice. A double quote elsewhere stands for itself, and what follows the closing quote
belongs to the field. A field that is still open at the end of the text ends there. An empty line
is a row without fields.
-/

set_option autoImplicit false

namespace ColumnTrace.Csv

/-- Where the reading of a row stands: before its first character, at the start of a later field, in
a field, between quotes, or right after a quote between quotes. -/
inductive Position where
  | rowStart
  | fieldStart
  | inField
  | inQuotes
  | afterQuote
deriving DecidableEq

/-- A row that is being read: its fields so far and the characters of the present one, both in
reverse. -/
structure OpenRow where
  fields : List String
  field : List Char

namespace OpenRow

/-- The row without any field. -/
def empty : OpenRow := ⟨[], []⟩

/-- One more character of the present field. -/
def add (row : OpenRow) (c : Char) : OpenRow := { row with field := c :: row.field }

/-- The present field is complete. -/
def endField (row : OpenRow) : OpenRow := ⟨String.ofList row.field.reverse :: row.fields, []⟩

/-- The fields of the row, the present one included. -/
def complete (row : OpenRow) : List String := row.endField.fields.reverse

end OpenRow

/-- The rows of the rest of a text whose line ends are LF. -/
def rowsFrom : Position → OpenRow → List Char → List (List String)
  | .rowStart, _, [] => []
  | _, row, [] => [row.complete]
  | .rowStart, row, c :: rest =>
    if c = '\n' then [] :: rowsFrom .rowStart .empty rest
    else if c = ',' then rowsFrom .fieldStart row.endField rest
    else if c = '"' then rowsFrom .inQuotes row rest
    else rowsFrom .inField (row.add c) rest
  | .fieldStart, row, c :: rest =>
    if c = '\n' then row.complete :: rowsFrom .rowStart .empty rest
    else if c = ',' then rowsFrom .fieldStart row.endField rest
    else if c = '"' then rowsFrom .inQuotes row rest
    else rowsFrom .inField (row.add c) rest
  | .inField, row, c :: rest =>
    if c = '\n' then row.complete :: rowsFrom .rowStart .empty rest
    else if c = ',' then rowsFrom .fieldStart row.endField rest
    else rowsFrom .inField (row.add c) rest
  | .inQuotes, row, c :: rest =>
    if c = '"' then rowsFrom .afterQuote row rest
    else rowsFrom .inQuotes (row.add c) rest
  | .afterQuote, row, c :: rest =>
    if c = '\n' then row.complete :: rowsFrom .rowStart .empty rest
    else if c = ',' then rowsFrom .fieldStart row.endField rest
    else if c = '"' then rowsFrom .inQuotes (row.add c) rest
    else rowsFrom .inField (row.add c) rest

/-- The rows of a text. -/
def read (text : String) : List (List String) :=
  rowsFrom .rowStart .empty (Text.unifyLineEnds text).toList

end ColumnTrace.Csv
