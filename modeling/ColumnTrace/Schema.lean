import ColumnTrace.Identifier
import ColumnTrace.Levels
import ColumnTrace.OrderedMap
import ColumnTrace.Scalar

/-!
# Schemas

A schema is a nested mapping: names lead to mappings, and at the end to the columns of a table.
Columns are a list, or the keys of a filled mapping that leads to no further mapping or list.
`tables` is the flat form: each table under its dotted name, in the form in which names are
compared; a later table of a name replaces an earlier one. The mapping is read by levels, from the
top down. Any value may serve as a name, a list or a mapping by its text.
-/

set_option autoImplicit false

namespace ColumnTrace

/-- A nested mapping of names; a plain value in it is the type of a column or the name of one. -/
inductive Schema where
  | leaf (value : Scalar)
  | list (items : List Schema)
  | mapping (entries : List (Scalar × Schema))
deriving Inhabited

namespace Schema

/-- The schema without tables. -/
def empty : Schema := .mapping []

/-- The value is written at the key's place, or at the end where the key is new. -/
def assign (key : Scalar) (value : Schema) : List (Scalar × Schema) → List (Scalar × Schema)
  | [] => [(key, value)]
  | entry :: rest =>
    if entry.1.sameKey key then (entry.1, value) :: rest else entry :: assign key value rest

/-- The mapping of a list of pairs: a key that comes twice keeps its first place and takes its last
value. -/
def ofPairs (pairs : List (Scalar × Schema)) : Schema :=
  .mapping (pairs.foldl (fun entries pair => assign pair.1 pair.2 entries) [])

mutual

/-- The schema that a JSON value writes down. -/
def ofJson : Json → Schema
  | .array items => .list (ofItems items)
  | .object members => .mapping (ofMembers members)
  | .null => .leaf .null
  | .bool value => .leaf (.bool value)
  | .int value => .leaf (.int value)
  | .real value => .leaf (.real value)
  | .string value => .leaf (.text value)

/-- The schemas that the items of a JSON array write down. -/
def ofItems : List Json → List Schema
  | [] => []
  | item :: rest => ofJson item :: ofItems rest

/-- The entries that the members of a JSON object write down. -/
def ofMembers : List (String × Json) → List (Scalar × Schema)
  | [] => []
  | (name, value) :: rest => (.text name, ofJson value) :: ofMembers rest

end

mutual

/-- The text of a value among others. -/
def shown : Schema → String
  | .leaf value => value.shown
  | .list items => "[" ++ ", ".intercalate (shownItems items) ++ "]"
  | .mapping entries => "\x7b" ++ ", ".intercalate (shownEntries entries) ++ "\x7d"

/-- The texts of items. -/
def shownItems : List Schema → List String
  | [] => []
  | item :: rest => item.shown :: shownItems rest

/-- The texts of entries. -/
def shownEntries : List (Scalar × Schema) → List String
  | [] => []
  | (key, value) :: rest => (key.shown ++ ": " ++ value.shown) :: shownEntries rest

end

/-- The name that a value stands for. -/
def label : Schema → Label
  | .leaf value => value.label
  | value => some value.shown

/-- The schema is a plain value. -/
def isLeaf : Schema → Bool
  | .leaf _ => true
  | _ => false

/-- The keys of a mapping are the columns of a table: it is filled and leads to plain values. -/
def isColumnMap (entries : List (Scalar × Schema)) : Bool :=
  !entries.isEmpty && entries.all fun entry => entry.2.isLeaf

mutual

/-- The tables under a path by levels, each with its path and columns. -/
def levels (path : String) : Schema → List (List (String × List Label))
  | .leaf _ => [[]]
  | .list items => [[(path, items.map label)]]
  | .mapping entries =>
    if isColumnMap entries then [[(path, entries.map fun entry => entry.1.label)]]
    else [] :: entriesLevels path entries

/-- The tables under the entries of a mapping by levels. -/
def entriesLevels (path : String) : List (Scalar × Schema) → List (List (String × List Label))
  | [] => []
  | (key, schema) :: rest =>
    overlay (levels (path ++ "." ++ key.word) schema) (entriesLevels path rest)

end

/-- The tables under the names at the top by levels. -/
def topLevels : List (Scalar × Schema) → List (List (String × List Label))
  | [] => []
  | (key, schema) :: rest => overlay (schema.levels key.word) (topLevels rest)

/-- The tables of a schema with their columns. -/
def tables : Schema → OrderedMap String (List Label)
  | .mapping entries =>
    .ofList (((topLevels entries).flatten.map fun table =>
      (normalize table.1, table.2.map Label.normal)).filter (·.1 != ""))
  | _ => ∅

end Schema

end ColumnTrace
