import ColumnTrace.Planner.Query
import ColumnTrace.Sql.Statement

/-!
# Merges

A merge assigns values to columns of its target. An update may read target and source, an insert the
source only; a star assigns to every target column the source column of its name. The columns of an
unknown table are inferred from the qualified references of the statement and from the columns that
the clauses assign (for the target) or read without qualifier (for the source).
-/

set_option autoImplicit false

namespace ColumnTrace

/-- The columns that a clause names for the target of a merge, and those without qualifier that it
reads from the source. -/
structure ClauseHints where
  assigned : List Label
  read : List Label

namespace ClauseHints

/-- The hints of several clauses, each column once. -/
def ofAll (hints : List ClauseHints) : ClauseHints :=
  ⟨(hints.flatMap assigned).eraseDups, (hints.flatMap read).eraseDups⟩

end ClauseHints

namespace Sql.Node

/-- What an assignment tells. -/
def equationHints (equation : Sql.Node) : Sql.Reading ClauseHints := do
  let target ← (equation.arg "this").toNode
  let value ← (equation.arg "expression").toNode
  return ⟨[target.normalName], value.unqualifiedReferences⟩

/-- The tuple that an argument is. -/
def tuple? (n : Sql.Node) (name : String) : Option Sql.Node := (n.child? name).filter (·.is "Tuple")

/-- What a clause of a merge tells. -/
def clauseHints (clause : Sql.Node) : Sql.Reading ClauseHints :=
  match clause.child? "then" with
  | none => .ok ⟨[], []⟩
  | some action =>
    if action.is "Update" then do
      return .ofAll (← (← action.listed "EQ").mapM equationHints)
    else if action.is "Insert" then do
      let assigned ← match action.tuple? "this" with
        | some columns => columns.normalNames "expressions"
        | none => pure []
      let read := (action.tuple? "expression").elim [] unqualifiedReferences
      return ⟨assigned, read⟩
    else .ok ⟨[], []⟩

end Sql.Node

namespace Planner

/-- The target or the source of a merge. -/
def mergeTerm (stored : String → Planner Plan) (query : Scope → Sql.Node → Planner Plan)
    (hints : List Label) (node : Sql.Node) : Planner Planned := do
  if ← isUnknownTable node then
    let qualified := (← context).root.qualifiedReferences node.sourceNames
    inferred node (qualified ++ hints).eraseDups
  else source stored query [] node

/-- The target column that a node names. -/
def targetColumn (target : Source) (node : Sql.Node) : Planner Attribute :=
  match target.output.find? (·.name == node.normalName) with
  | some a => pure a
  | none => fail (.missingColumn target.name node.normalName)

/-- The source columns are missing under these names. -/
def failMissing {α : Type} (names : List Label) : Planner α :=
  match names.mapM id with
  | some names => fail (.missingInSource names)
  | none => fail .namelessInSource

/-- Every target column gets the source column of its name; of several the last. -/
def starAssignments (target source : Source) : Planner (List Assignment) :=
  let find (a : Attribute) := source.output.reverse.find? (·.name == a.name)
  let missing := target.output.filter fun a => (find a).isNone
  if missing.isEmpty then
    pure (target.output.filterMap fun a => (find a).map fun s => .mk a (.column s))
  else failMissing (missing.map Attribute.name)

/-- An assignment of an update, or those that a star stands for. -/
def updateAssignment (resolve : Resolver) (target source : Source) (entry : Sql.Value) :
    Planner (List Assignment) := do
  let node ← ofExcept entry.toNode
  if node.is "Star" then starAssignments target source
  else if !node.is "EQ" then fail (.unexpectedAssignment (← write node))
  else
    let key ← targetColumn target (← ofExcept (node.arg "this").toNode)
    return [.mk key (← resolve.plain [.ofSources [target, source]] (node.arg "expression"))]

/-- The assignments of an update. -/
def updateAssignments (resolve : Resolver) (target source : Source) (action : Sql.Node) :
    Planner (List Assignment) := do
  let entries ← ofExcept action.expressions
  return (← entries.mapM (updateAssignment resolve target source)).flatten

/-- The columns that an insert names, or all of the target. -/
def insertKeys (target : Source) (action : Sql.Node) : Planner (List Attribute) :=
  match action.tuple? "this" with
  | some columns => do (← ofExcept (columns.nodesOf "expressions")).mapM (targetColumn target)
  | none => pure target.output

/-- The values of an insert. -/
def insertValues (action : Sql.Node) : Sql.Reading (List Sql.Value) :=
  match action.tuple? "expression" with
  | some values => values.expressions
  | none => .ok []

/-- The assignments of an insert. -/
def insertAssignments (resolve : Resolver) (target source : Source) (action : Sql.Node) :
    Planner (List Assignment) := do
  if action.this?.any (·.is "Star") then starAssignments target source
  else
    let keys ← insertKeys target action
    let values ← ofExcept (insertValues action)
    if keys.length ≠ values.length then fail (.mergeInsertArity keys.length values.length)
    (keys.zip values).mapM fun pair => do
      return .mk pair.1 (← resolve.plain [.ofSources [source]] pair.2)

/-- What a clause of a merge does. -/
def mergeAction (resolve : Resolver) (target source : Source) (clause : Sql.Node) :
    Planner MergeAction :=
  match clause.child? "then" with
  | none => pure (.delete none)
  | some action =>
    if action.is "Update" then do
      return .update (← updateAssignments resolve target source action) none
    else if action.is "Insert" then do
      return .insert (← insertAssignments resolve target source action) none
    else pure (.delete none)

/-- A merge. -/
def merge (stored : String → Planner Plan) (tier : Tier) (node : Sql.Node) : Planner Plan := do
  let clauses ← ofExcept node.mergeClauses
  let targetNode ← match node.this?.filter (·.is "Table") with
    | some target => pure target
    | none => fail .mergeTargetNotTable
  let sourceValue ← ofExcept node.mergeSource
  let hints ← ofExcept (clauses.mapM Sql.Node.clauseHints)
  let hints := ClauseHints.ofAll hints
  let target ← mergeTerm stored tier.query hints.assigned targetNode
  let source ← mergeTerm stored tier.query hints.read (← ofExcept sourceValue.toNode)
  let actions ← clauses.mapM fun clause => do
    return ((clause.arg "matched").isGiven,
      ← mergeAction tier.resolve target.source source.source clause)
  return .merge target.plan source.plan ((actions.filter (·.1)).map Prod.snd)
    ((actions.filter fun a => !a.1).map Prod.snd)

end Planner

end ColumnTrace
