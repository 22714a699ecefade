import ColumnTrace.Attribute
import ColumnTrace.PlanningError
import ColumnTrace.Sql.Query

/-!
# Names in scope

A query sees the columns of its own sources, and where none of them answers, those of the queries
around it. A column without a qualifier that two sources have is ambiguous, unless a join names it
for both.
-/

set_option autoImplicit false

namespace ColumnTrace

/-- A relation in a `FROM` clause: its main name, all names by which columns may be qualified, its
columns, and whether these were only inferred. -/
structure Source where
  name : String
  names : List String
  output : List Attribute
  inferred : Bool

/-- The sources of one query, and the columns that its joins name for both sides. -/
structure Frame where
  sources : List Source
  shared : List Label

/-- The frames that a query sees, its own first. -/
abbrev Scope := List Frame

namespace Frame

/-- The frame of sources without shared columns. -/
def ofSources (sources : List Source) : Frame := ⟨sources, []⟩

/-- The first source that goes by a name. -/
def source? (f : Frame) (name : String) : Option Source :=
  f.sources.find? fun source => source.names.contains name

/-- The column of a name among the sources, or that of one source where a qualifier names it. -/
def find (f : Frame) (qualifier : Option String) (name : Label) :
    Except PlanningError (Option Attribute) :=
  match qualifier with
  | some qualifier =>
    .ok ((f.source? qualifier).bind fun source => source.output.find? (·.name == name))
  | none =>
    let found := (f.sources.flatMap Source.output).filter (·.name == name)
    if 1 < found.length && !f.shared.contains name then .error (.ambiguousColumn name)
    else .ok found.head?

end Frame

namespace Scope

/-- The column of a name in the nearest frame that has it. -/
def find (qualifier : Option String) (name : Label) :
    Scope → Except PlanningError (Option Attribute)
  | [] => .ok none
  | frame :: outer => do
    match ← frame.find qualifier name with
    | some a => return some a
    | none => find qualifier name outer

end Scope

namespace Sql.Node

/-- The qualifier of a column in the form in which names are compared. -/
def qualifier? (column : Sql.Node) : Option String :=
  let parts := (["catalog", "db", "table"].map column.textOf).filter (· != "")
  let qualifier := Text.dotted (parts.map normalize)
  if qualifier = "" then none else some qualifier

/-- The column stands without the name of a table. -/
def isUnqualified (column : Sql.Node) : Bool := column.textOf "table" == ""

/-- The names by which the columns of a source may be qualified, the main one first. -/
def sourceNames (term : Sql.Node) : List String :=
  match term.alias?.filter (· != "") with
  | some name => [name]
  | none =>
    if term.is "Table" then [term.qualifiedName, term.tableName.name].eraseDups
    else ["__auto_generated_subquery_name"]

/-- The names of the columns below a node that one of these names qualifies. -/
def qualifiedReferences (root : Sql.Node) (names : List String) : List Label :=
  (root.preorder.filter fun c =>
    c.is "Column" && c.qualifier?.any names.contains && !c.isStarColumn).map normalName

/-- The names of the columns without qualifier below a node. -/
def unqualifiedReferences (root : Sql.Node) : List Label :=
  (root.preorder.filter fun c => c.is "Column" && c.isUnqualified).map normalName

/-- The nodes below a query that belong to it and to no query inside it. -/
def ownNodes (select : Sql.Node) : List Sql.Node :=
  select.children.flatMap (reachable (·.is "Select"))

/-- The names of the columns without qualifier that belong to a query itself. -/
def ownUnqualified (select : Sql.Node) : List Label :=
  (select.ownNodes.filter fun c => c.is "Column" && c.isUnqualified && !c.isStarColumn).map
    normalName

end Sql.Node

/-- The column that a node refers to. A qualifier of one part that names no source may itself be a
column, the node then a field of it. -/
def Scope.column (scope : Scope) (node : Sql.Node) : Except PlanningError Attribute := do
  let name := node.normalName
  let qualifier := node.qualifier?
  let direct ← scope.find qualifier name
  let found ← match direct, qualifier with
    | none, some q => if q.toList.contains '.' then pure none else scope.find none q
    | direct, _ => pure direct
  match found with
  | some a => return a
  | none => throw (.unresolvedColumn qualifier name)

end ColumnTrace
