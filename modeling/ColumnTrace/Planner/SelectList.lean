import ColumnTrace.Planner.Expression

/-!
# Select lists and grouping

A select list names its entries: an alias gives its name, a column keeps its own, any other
expression is named by its text. Grouping terms may be positions or aliases of the select list.
-/

set_option autoImplicit false

namespace ColumnTrace

namespace Sql.Node

/-- The entries of a select list. -/
def projections (select : Sql.Node) : Sql.Reading (List Sql.Value) := select.expressions

/-- The entries of a select list that give a name. -/
def namedProjections (select : Sql.Node) : Sql.Reading (List Sql.Node) := select.listed "Alias"

/-- A sort of node stands in one of the entries of a select list, where a search through an entry
stops at some nodes; the entries are looked through in order up to the first that has one. -/
def anyWithin (stop sort : Sql.Node → Bool) : List Sql.Value → Sql.Reading Bool
  | [] => .ok false
  | entry :: rest => do
    if ((← entry.toNode).reachable stop).any sort then return true else anyWithin stop sort rest

/-- The query groups its rows: it says so, or an aggregate function of its own stands in its select
list. -/
def isAggregate (select : Sql.Node) : Sql.Reading Bool := do
  if (select.arg "group").isGiven then return true
  else
    let entries ← select.projections
    anyWithin (fun n => n.is "Window" || n.is "Select") (·.facts.aggregate) entries

/-- A window function of the query's own stands in its select list. -/
def hasWindows (select : Sql.Node) : Sql.Reading Bool := do
  anyWithin (·.is "Select") (·.is "Window") (← select.projections)

end Sql.Node

/-- The columns that a star stands for: those of all sources, or of the one that is named. -/
def Scope.expandStar (scope : Scope) (qualifier : Option String) :
    Except PlanningError (List Attribute) := do
  let frame := scope.headD ⟨[], []⟩
  let sources ← match qualifier with
    | none => pure frame.sources
    | some q => match frame.source? q with
      | some source => pure [source]
      | none => throw (.unresolvedStar q)
  match sources.find? Source.inferred with
  | some source => throw (.starOverInferred source.name)
  | none => return sources.flatMap Source.output

namespace Resolver

/-- An entry of a select list; a star gives several. -/
def selectItems (resolve : Resolver) (scope : Scope) (entry : Sql.Value) :
    Projecting (List SelectItem) := do
  let node ← (Planner.ofExcept entry.toNode : Planner Sql.Node)
  if node.is "Star" || node.isStarColumn then
    let qualifier := if node.is "Star" then none else node.qualifier?
    let columns ← (Planner.ofExcept (scope.expandStar qualifier) : Planner (List Attribute))
    return columns.map SelectItem.column
  else if node.is "Alias" then
    let e ← resolve.value scope (node.arg "this")
    let name := normalize node.aliasName
    return [.aliased (.mk e (some name) (← (Planner.freshId : Planner Int)))]
  else
    match ← resolve scope node with
    | .column a => return [.column a]
    | e =>
      let name ← (Planner.write node : Planner String)
      return [.aliased (.mk e (some name) (← (Planner.freshId : Planner Int)))]

/-- The entries of a select list. -/
def selectList (resolve : Resolver) (scope : Scope) (select : Sql.Node) :
    Projecting (List SelectItem) := do
  let entries ← (Planner.ofExcept select.projections : Planner (List Sql.Value))
  return (← entries.mapM (resolve.selectItems scope)).flatten

/-- The select list of a query in which no window function is allowed. -/
def plainSelectList (resolve : Resolver) (scope : Scope) (select : Sql.Node) :
    Planner (List SelectItem) := do
  return (← (resolve.selectList scope select).run none).1

/-- What an entry of a select list computes, whatever its alias. -/
def computed (entry : Sql.Value) : Sql.Value :=
  match entry.node?.filter (·.is "Alias") with
  | some named => named.arg "this"
  | none => entry

/-- The entry at a position of the select list, counted from one. -/
def entryAt (resolve : Resolver) (select : Sql.Node) (scope : Scope) (position : Int) :
    Planner Expr := do
  let entries ← Planner.ofExcept select.projections
  let entry := if 1 ≤ position then entries[(position - 1).toNat]? else none
  match entry with
  | none => Planner.fail (.groupPosition position)
  | some entry => resolve.plain scope (computed entry)

/-- The expression of a value. A whole number stands for the entry of the select list at that
position, the name of no column in scope for the entry of that alias. -/
def groupingTerm (resolve : Resolver) (select : Sql.Node) (scope : Scope) (term : Sql.Value) :
    Planner Expr := do
  match term.node? with
  | none => resolve.plain scope term
  | some node =>
    if node.is "Literal" && node.facts.wholeNumber then
      resolve.entryAt select scope (← Planner.require (node.name.bind Text.readInt?))
    else if node.is "Column" && node.isUnqualified then
      match ← Planner.ofExcept (scope.find none node.normalName) with
      | some _ => resolve.plain scope term
      | none =>
        let named ← Planner.ofExcept select.namedProjections
        match named.find? fun p => some (normalize p.aliasName) == node.normalName with
        | some projection => resolve.plain scope (projection.arg "this")
        | none => resolve.plain scope term
    else resolve.plain scope term

end Resolver

end ColumnTrace
