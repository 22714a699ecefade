import ColumnTrace.Command.Stop
import ColumnTrace.Csv.Reader
import ColumnTrace.Files.Tree
import ColumnTrace.Json.Reader

/-!
# Where the schema comes from

A schema is read from a table of comma separated values, from a JSON file, or from JSON in the
arguments; the first of these that is given holds, and an empty text does not count. Without any the
schema has no tables.
-/

set_option autoImplicit false

namespace ColumnTrace.Command

/-- The schema of a JSON value, which has to be an object or null. -/
def schemaOfJson : Json → Traced Stop Schema
  | .null => pure .empty
  | .object members => pure (Schema.ofJson (.object members))
  | _ => refuse 1 "Schema must be a JSON object"

/-- The schema of a table in the text of a file. -/
def schemaOfTable (path text : String) : Traced Stop Schema :=
  match Schema.ofTable (Csv.read text) with
  | .ok schema => do
    Traced.note (.info ("Loaded schema from CSV " ++ path ++ " with " ++
      Text.writeNat schema.size ++ " top-level entries"))
    return schema
  | .error clash => .fail (.clash clash)

/-- The schema of a table in a file. -/
def schemaOfTableAt (tree : FileTree) (path : String) : Traced Stop Schema :=
  match tree.place path with
  | .file _ text => schemaOfTable path text
  | .nullDevice => schemaOfTable path ""
  | .directory _ | .outside => refuse 1 ("Failed to parse schema CSV " ++ path ++ ": " ++ fileMark)
  | .free _ | .unseen | .missing | .blocked => refuse 1 ("Schema CSV not found: " ++ path)

/-- The schema of JSON text; where it is none, the log says so after some words. -/
def schemaOfText (words text : String) : Traced Stop Schema :=
  match Json.read? text, Json.excessDigits? text with
  | some _, some digits => .fail (.tooLong digits)
  | some json, none => schemaOfJson json
  | none, _ => refuse 1 (words ++ ": " ++ jsonMark)

/-- The schema of a JSON file. -/
def schemaOfFile (tree : FileTree) (path : String) : Traced Stop Schema :=
  let words := "Error loading schema from " ++ path
  match tree.place path with
  | .file _ text => schemaOfText words text
  | .nullDevice => schemaOfText words ""
  | .free _ | .unseen | .missing => refuse 1 (words ++ ": " ++ fileMark)
  | .directory _ | .outside | .blocked => .fail (.ofPath path)

/-- The value of an option that is given and not empty. -/
def given? (value : Option String) : Option String := value.filter (· != "")

/-- The schema that the options ask for. -/
def Options.loadSchema (options : Options) (tree : FileTree) : Traced Stop Schema :=
  match given? options.schemaCsv, given? options.schemaFile, given? options.schema with
  | some path, _, _ => schemaOfTableAt tree path
  | none, some path, _ => schemaOfFile tree path
  | none, none, some text => schemaOfText "Invalid schema JSON" text
  | none, none, none => pure .empty

end ColumnTrace.Command
