import ColumnTrace.Planner.Monad
import ColumnTrace.Planner.Scope

/-!
# Relations of a `FROM` clause

A table name is resolved, in this order, to a named query in scope (unless a database qualifies
it), a stored result, a view, or a table of the catalog. A table that the catalog does not know
gets the columns that the statement refers to.
-/

set_option autoImplicit false

namespace ColumnTrace

/-- A relation of a `FROM` clause, with its columns as names are resolved against them. -/
structure Planned where
  plan : Plan
  source : Source

namespace Planner

/-- The plan with its columns renamed by position; without names it stays as it is. -/
def renameColumns (names : List Label) (plan : Plan) : Planner Plan :=
  if names.isEmpty then pure plan
  else if names.length ≠ plan.output.length then
    fail (.aliasArity names.length plan.output.length)
  else do
    let items ← (plan.output.zip names).mapM fun pair => do
      return SelectItem.aliased (.mk (.column pair.1) pair.2 (← freshId))
    return .project items plan

/-- The plan of a stored query, where `stored` plans its text, while the query's name counts as
being expanded. -/
def expandStored (stored : String → Planner Plan) (recursive : String → PlanningError)
    (name sql : String) : Planner Plan := do
  if (← context).expanding.contains name then fail (recursive name)
  within (.expanding name) (stored sql)

/-- A view with new columns, under the names that it declares or those of its query. -/
def view (stored : String → Planner Plan) (name : TableName) (definition : ViewDefinition) :
    Planner Plan := do
  let body ← expandStored stored .recursiveView name.qualifiedName definition.sql
  let names := if definition.columns.isEmpty then body.output.map Attribute.name
    else definition.columns
  if names.length ≠ body.output.length then
    fail (.viewArity name.qualifiedName names.length body.output.length)
  return .view name (← freshColumns names) body definition.temporary

/-- The physical plan of a scan over a stored result, which remembers the plan of its query. -/
def storedScan (query : Plan) : PhysicalNode :=
  .mk "InMemoryTableScan" [.mk "WholeStageCodegen" [] (some query)] none

/-- A stored result with new columns. -/
def cached (stored : String → Planner Plan) (name sql : String) : Planner Plan := do
  let query ← expandStored stored .recursiveCache name sql
  return .cached (← freshLike query.output) (storedScan query) (some name)

/-- What a table name stands for, before its columns are renamed. -/
def resolveTable (stored : String → Planner Plan) (table : TableName) : Planner Plan := do
  let name := table.qualifiedName
  let definition ← if table.database.isSome then pure none else findCte? name
  match definition with
  | some definition => return .cteReference definition.id (← freshLike definition.child.output)
  | none =>
    let catalog ← catalog
    match catalog.cachedQuery? name, catalog.view? name with
    | some sql, _ => cached stored name sql
    | none, some definition => view stored table definition
    | none, none => return .relation (← freshColumns (catalog.columns name)) (some table)

/-- The source of a plan under the names of a node. -/
def sourceOf (names : List String) (output : List Attribute) (inferred : Bool) : Source :=
  ⟨names.headD "", names, output, inferred⟩

/-- A table, view, stored result or named query. -/
def table (stored : String → Planner Plan) (node : Sql.Node) : Planner Planned := do
  let plan ← resolveTable stored node.tableName
  let plan ← renameColumns (← ofExcept node.aliasColumns) plan
  return ⟨plan, sourceOf node.sourceNames plan.output false⟩

/-- The name of the column at a position of a list of rows. -/
def columnName (position : Nat) : String := "col" ++ Text.writeNat (position + 1)

/-- The values of a row; a value that stands alone is a row of one. -/
def rowItems (row : Sql.Value) : Sql.Reading (List Sql.Value) :=
  match row.node?.filter (·.is "Tuple") with
  | some tuple => tuple.expressions
  | none => .ok [row]

/-- Rows that are written out, under the names of an alias. -/
def values (rows naming : Sql.Node) : Planner Planned := do
  let rows ← ofExcept rows.expressions
  let first ← (rows.take 1).mapM fun row => ofExcept (rowItems row)
  let width := first.flatten.length
  let given ← ofExcept naming.aliasColumns
  let names := if given.isEmpty then (List.range width).map fun i => some (columnName i) else given
  if names.length ≠ width then fail (.valuesArity width names.length)
  let output ← freshColumns names
  let texts ← rows.mapM fun row => do
    (← ofExcept (rowItems row)).mapM fun value => do write (← ofExcept value.toNode)
  let name := (naming.alias?.filter (· != "")).getD "__values"
  return ⟨.localRelation output texts, ⟨name, [name], output, false⟩⟩

/-- A table that the catalog does not know, with the columns that are inferred for it. -/
def inferred (node : Sql.Node) (columns : List Label) : Planner Planned := do
  note (.debug ("Table " ++ node.qualifiedName ++ " is not in the catalog; inferred columns " ++
    Label.quotedList columns))
  let output ← freshColumns columns
  return ⟨.relation output (some node.tableName), sourceOf node.sourceNames output true⟩

/-- The node names a table that neither a named query in scope nor the catalog has. -/
def isUnknownTable (node : Sql.Node) : Planner Bool := do
  if !node.is "Table" then return false
  let table := node.tableName
  if table.database.isNone && (← findCte? table.qualifiedName).isSome then return false
  return !(← catalog).knows table.qualifiedName

/-- A relation of a `FROM` clause other than an unknown table, where `query` plans the queries below
and `outer` is what they see. -/
def source (stored : String → Planner Plan) (query : Scope → Sql.Node → Planner Plan)
    (outer : Scope) (term : Sql.Node) : Planner Planned :=
  if term.is "Table" then table stored term
  else if term.is "Values" then values term term
  else if term.is "Subquery" then do
    let inner ← ofExcept (term.arg "this").toNode
    if inner.is "Values" then values inner term
    else do
      let child ← query outer inner
      let child ← renameColumns (← ofExcept term.aliasColumns) child
      let name := (term.alias?.filter (· != "")).getD "__auto_generated_subquery_name"
      return ⟨.wrap "SubqueryAlias" child, ⟨name, [name], child.output, false⟩⟩
  else fail (.unsupportedSource term.key)

end Planner

end ColumnTrace
