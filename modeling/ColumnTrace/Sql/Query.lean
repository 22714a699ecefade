import ColumnTrace.Identifier
import ColumnTrace.Plan.Basic
import ColumnTrace.PlanningError
import ColumnTrace.Sql.Tree

/-!
# The clauses of a query

Readings of the nodes that a query is made of. Where an argument has had two names in the course of
time, the first that is there counts. A reading fails where it has to look into a value that is no
node, or has to go through one that is no list: no statement has such a tree.
-/

set_option autoImplicit false

namespace ColumnTrace.Sql

/-- What is read off a tree. -/
abbrev Reading := Except PlanningError

namespace Value

/-- The node that the value has to be. -/
def toNode : Value → Reading Node
  | .node n => .ok n
  | _ => .error .malformed

/-- The items of a value that has to be a list, or to say nothing. -/
def items (v : Value) : Reading (List Value) :=
  match v.items? with
  | some items => .ok items
  | none => .error .malformed

/-- The node that the value is, where it is there. -/
def nodeIfThere (v : Value) : Reading (Option Node) :=
  if v.isThere then some <$> v.toNode else .ok none

/-- The value in capitals: that of a text, and an empty one of a value that says nothing. -/
def capitals : Value → Reading String
  | .scalar (.text text) => .ok (Text.upper text)
  | v => if v.isGiven then .error .malformed else .ok ""

/-- The text of a value in capitals, empty where the value says nothing. -/
def wordInCapitals (v : Value) : String := if v.isGiven then Text.upper v.word else ""

end Value

namespace Node

/-- The items of an argument that is a list. -/
def itemsOf (n : Node) (name : String) : Reading (List Value) := (n.arg name).items

/-- The items that the node lists. -/
def expressions (n : Node) : Reading (List Value) := n.itemsOf "expressions"

/-- The nodes of an argument that is a list of nodes. -/
def nodesOf (n : Node) (name : String) : Reading (List Node) := do
  (← n.itemsOf name).mapM Value.toNode

/-- The items of one kind that the node lists. -/
def listed (n : Node) (kind : String) : Reading (List Node) := do
  return ((← n.expressions).filterMap Value.node?).filter (·.is kind)

/-- The first of several arguments that is there. -/
def firstArg (n : Node) : List String → Value
  | [] => .null
  | name :: rest => if (n.arg name).isThere then n.arg name else n.firstArg rest

/-- The text of the node, which only an engine that is known can write. -/
def write (engine : String) (n : Node) : Except PlanningError String :=
  match n.facts.sql with
  | some sql => .ok sql
  | none => .error (.unreadable (.unknownEngine engine))

/-- The word for the node's kind in messages. -/
def key (n : Node) : String := Text.lower n.kind

/-- The node's name in the form in which names are compared. -/
def normalName (n : Node) : Label := n.name.normal

/-- The names of the nodes of an argument in the form in which names are compared. -/
def normalNames (n : Node) (name : String) : Reading (List Label) := do
  return (← n.nodesOf name).map normalName

/-- The node is a query that stands by itself. -/
def isQuery (n : Node) : Bool :=
  n.is "Select" || n.is "Union" || n.is "Intersect" || n.is "Except"

/-- The node is a query, or one in brackets. -/
def isQueryOrSubquery (n : Node) : Bool := n.isQuery || n.is "Subquery"

/-- The node that stands for all columns of a source. -/
def isStarColumn (n : Node) : Bool := n.is "Column" && n.this?.any (·.is "Star")

/-- The first relation of the `FROM` clause. -/
def fromTerm (select : Node) : Reading Value := do
  match ← (select.firstArg ["from", "from_"]).nodeIfThere with
  | some clause => return clause.arg "this"
  | none => return .null

/-- The `WITH` clause. -/
def withClause (n : Node) : Value := n.firstArg ["with", "with_"]

/-- The joins after the first relation. -/
def joins (select : Node) : Reading (List Value) := select.itemsOf "joins"

/-- How a join puts rows together: its kind counts before its side. -/
def joinType (join : Node) : Reading JoinType := do
  let kind ← (join.arg "kind").capitals
  let side ← (join.arg "side").capitals
  match kind, side with
  | "SEMI", _ => return .leftSemi
  | "ANTI", _ => return .leftAnti
  | "CROSS", _ => return .cross
  | _, "LEFT" => return .leftOuter
  | _, "RIGHT" => return .rightOuter
  | _, "FULL" => return .fullOuter
  | _, _ => return .inner

/-- The columns that a join names for both sides. -/
def usingColumns (join : Node) : Reading (List Label) := join.normalNames "using"

/-- The plain expressions of the `GROUP BY` clause. -/
def groupExpressions (select : Node) : Reading (List Value) := do
  match ← (select.arg "group").nodeIfThere with
  | some group => group.expressions
  | none => return []

/-- The alias in the form in which names are compared. -/
def alias? (n : Node) : Option String :=
  if n.aliasName = "" then none else some (normalize n.aliasName)

/-- The columns that an alias of a source names. -/
def aliasColumns (n : Node) : Reading (List Label) :=
  match n.child? "alias" with
  | some a => if a.is "TableAlias" then a.normalNames "columns" else .ok []
  | none => .ok []

/-- A part of a name, where it is given and not blank. -/
def namePart (n : Node) (part : String) : Option String :=
  let text := normalize (n.textOf part)
  if text = "" then none else some text

/-- The name of a table. -/
def tableName (table : Node) : TableName :=
  ⟨(table.normalName).getD "", table.namePart "db", table.namePart "catalog"⟩

/-- The name of a table with dots between its parts. -/
def qualifiedName (table : Node) : String := table.tableName.qualifiedName

/-- The name of a node whose name has several parts, as a table. -/
def identifier (n : Node) : Reading TableName :=
  if n.is "Table" || n.is "Column" then .ok n.tableName else .error .malformed

end ColumnTrace.Sql.Node
