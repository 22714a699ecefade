import ColumnTrace.Json.Basic
import ColumnTrace.OrderedMap
import ColumnTrace.Sql.Library

/-!
# Syntax trees in JSON

A node is written as an object: its kind under `k`, its arguments under `args` as a list of pairs of
name and value, and what is known of it under `agg`, `int`, `name`, `alias` and `sql`. A type is
written as an object with its name under `type`. A library is a list of pairs of text and result; a
result is the list of statements, or an object that says under `error` why there are none.
`Node.outline` writes a node in this form, all but its text.
-/

set_option autoImplicit false

namespace ColumnTrace.Sql

/-- What the members of an object say: the name of a type, or the parts of a node. -/
structure Members where
  type : Option String := none
  kind : Option String := none
  args : List (String × Value) := []
  facts : Facts := ⟨false, false, none, none, none⟩

namespace Members

/-- The value that the members write down. -/
def toValue? (m : Members) : Option Value :=
  match m.type, m.kind with
  | some type, _ => some (.typeName type)
  | none, some kind => some (.node (.mk kind m.args m.facts))
  | none, none => none

/-- The members with one plain member more; members of other names say nothing. -/
def add (m : Members) (name : String) (value : Json) : Members :=
  match name, value with
  | "type", .string type => { m with type }
  | "k", .string kind => { m with kind }
  | "agg", .bool aggregate => { m with facts := { m.facts with aggregate } }
  | "int", .bool wholeNumber => { m with facts := { m.facts with wholeNumber } }
  | "name", .string name => { m with facts := { m.facts with name } }
  | "alias", .string aliasText => { m with facts := { m.facts with aliasText } }
  | "sql", .string sql => { m with facts := { m.facts with sql } }
  | _, _ => m

end Members

mutual

/-- The value that a JSON value writes down. -/
def Value.ofJson? : Json → Option Value
  | .null => some .null
  | .bool value => some (.scalar (.bool value))
  | .int value => some (.scalar (.int value))
  | .real value => some (.scalar (.real value))
  | .string value => some (.scalar (.text value))
  | .array items => do return .list (← Value.listOfJson? items)
  | .object members => do (← Members.ofJson? members).toValue?

/-- The values of a list. -/
def Value.listOfJson? : List Json → Option (List Value)
  | [] => some []
  | item :: rest => do return (← Value.ofJson? item) :: (← Value.listOfJson? rest)

/-- What the members of an object say; the first of a name holds. An argument that comes twice keeps
its first place and takes its last value. -/
def Members.ofJson? : List (String × Json) → Option Members
  | [] => some {}
  | (name, value) :: rest => do
    let m ← Members.ofJson? rest
    if name = "args" then
      return { m with args := (OrderedMap.ofList (← argsOfJson? value)).entries }
    else return m.add name value

/-- The arguments of a node. -/
def argsOfJson? : Json → Option (List (String × Value))
  | .array items => argListOfJson? items
  | _ => some []

/-- The arguments of a list. -/
def argListOfJson? : List Json → Option (List (String × Value))
  | [] => some []
  | item :: rest => do return (← argOfJson? item) :: (← argListOfJson? rest)

/-- An argument: its name and its value. -/
def argOfJson? : Json → Option (String × Value)
  | .array items => argPairOfJson? items
  | _ => none

/-- An argument of name and value. -/
def argPairOfJson? : List Json → Option (String × Value)
  | .string name :: rest => do return (name, ← lastOfJson? rest)
  | _ => none

/-- The only value of a list. -/
def lastOfJson? : List Json → Option Value
  | [value] => Value.ofJson? value
  | _ => none

end

/-- What is known of a node apart from its text, as members of an object; what says nothing is left
out. -/
def Facts.members (facts : Facts) : List (String × Json) :=
  (if facts.aggregate then [("agg", .bool true)] else []) ++
    (if facts.wholeNumber then [("int", .bool true)] else []) ++
    (facts.name.map fun name => ("name", Json.string name)).toList ++
    (facts.aliasText.map fun name => ("alias", Json.string name)).toList

mutual

/-- The node in JSON, without its text. -/
def Node.outline : Node → Json
  | .mk kind args facts =>
    .object (("k", .string kind) ::
      (if args.isEmpty then [] else [("args", .array (Node.outlineArgs args))]) ++ facts.members)

/-- Arguments in JSON, as pairs of name and value. -/
def Node.outlineArgs : List (String × Value) → List Json
  | [] => []
  | (name, value) :: rest => .array [.string name, value.outline] :: Node.outlineArgs rest

/-- The value in JSON, nodes without their texts. -/
def Value.outline : Value → Json
  | .scalar value => value.toJson
  | .typeName name => .object [("type", .string name)]
  | .node n => n.outline
  | .list items => .array (Value.outlineItems items)

/-- Values in JSON, nodes without their texts. -/
def Value.outlineItems : List Value → List Json
  | [] => []
  | item :: rest => item.outline :: Value.outlineItems rest

end

/-- The node that a JSON value writes down. -/
def Node.ofJson? (json : Json) : Option Node := do (← Value.ofJson? json).node?

/-- A statement; a null stands for an empty one. -/
def statementOfJson? : Json → Option (Option Node)
  | .null => some none
  | json => do return some (← Node.ofJson? json)

/-- Why a text has no statements. -/
def failureOfJson? (json : Json) : Option ParseFailure :=
  match json.member? "error", json.member? "message" with
  | some (.string "ParseError"), _ => some .notStatement
  | some (.string "TokenError"), _ => some .notTokens
  | some (.string "ValueError"), some (.string message) => some (.unsupported message)
  | _, _ => none

/-- The result of a text. -/
def resultOfJson? : Json → Option (Except ParseFailure (List (Option Node)))
  | .array trees => do return .ok (← trees.mapM statementOfJson?)
  | json => do return .error (← failureOfJson? json)

/-- The library that a JSON value writes down. -/
def Library.ofJson? : Json → Option Library
  | .array entries => entries.mapM fun
    | .array [.string text, result] => do return (text, ← resultOfJson? result)
    | _ => none
  | _ => none

end ColumnTrace.Sql
