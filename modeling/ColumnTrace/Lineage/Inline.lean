import ColumnTrace.Lineage.Failure
import ColumnTrace.Traced

/-!
# Writing named queries in place

A `WITH` clause defines named queries, and the plan under it refers to them by number. `inline`
writes every definition in the place of its references, under a projection that gives the
definition's columns the names and identities of the reference. A definition sees the clauses
around its own and the earlier definitions of its own; the latest definition of a number counts. A
reference without a definition in scope stays. Commands that write no rows of their own, stored
results and the select lists of window operators are left as they are, and so is a merge.
-/

set_option autoImplicit false

namespace ColumnTrace

/-- The named queries in scope, the latest first. -/
abbrev CteScope := List (Int × Plan)

/-- The reference's columns computed from the definition's. -/
def referenceProjection (output : List Attribute) (body : Plan) : Plan :=
  .project ((body.output.zip output).map fun pair =>
    .aliased (.mk (.column pair.1) pair.2.name pair.2.id)) body

/-- What stands for a reference: the definition under the reference's columns, or the reference
itself. -/
def resolveReference (scope : CteScope) (id : Int) (output : List Attribute) :
    Traced ExtractionError Plan :=
  match scope.lookup id with
  | none => do
    .note (.debug ("CTE reference " ++ Text.writeInt id ++
      " has no definition in scope; left in place"))
    return .cteReference id output
  | some body =>
    if body.output.length ≠ output.length then
      .fail (.referenceArity id body.output.length output.length)
    else pure (referenceProjection output body)

mutual

/-- The plan with its references written out. -/
def Plan.inline (scope : CteScope) : Plan → Traced ExtractionError Plan
  | .withCte definitions body => do body.inline (← CteDefinition.extend scope definitions)
  | .cteReference id output => resolveReference scope id output
  | .project items child => do
    let child ← child.inline scope
    return .project (← SelectItem.inlineAll scope items) child
  | .aggregate grouping items child => do
    let child ← child.inline scope
    return .aggregate grouping (← SelectItem.inlineAll scope items) child
  | .window functions child partition order => do
    return .window functions (← child.inline scope) partition order
  | .expand projections output child => do return .expand projections output (← child.inline scope)
  | .join left right type condition => do
    let left ← left.inline scope
    return .join left (← right.inline scope) type condition
  | .union branches output => do return .union (← Plan.inlineAll scope branches) output
  | .view name output body temporary => do
    return .view name output (← body.inline scope) temporary
  | .cteDefinition (.mk id child) => do return .cteDefinition (.mk id (← child.inline scope))
  | .operator name children output => do
    return .operator name (← Plan.inlineAll scope children) output
  | .createTable name query replace => do return .createTable name (← query.inline scope) replace
  | .insertTable table query mode => do return .insertTable table (← query.inline scope) mode
  | .insertDirectory location query overwrite => do
    return .insertDirectory location (← query.inline scope) overwrite
  | .merge target source matched notMatched => do
    let _ ← target.inline scope
    let _ ← source.inline scope
    return .merge target source matched notMatched
  | .relation output table => pure (.relation output table)
  | .localRelation output rows => pure (.localRelation output rows)
  | .oneRow => pure .oneRow
  | .cached output physical table => pure (.cached output physical table)
  | .commandResult output command => pure (.commandResult output command)
  | .alterView name query => pure (.alterView name query)
  | .createView name query type columns => pure (.createView name query type columns)
  | .saveSource query provider => pure (.saveSource query provider)

/-- The plans with their references written out, from left to right. -/
def Plan.inlineAll (scope : CteScope) : List Plan → Traced ExtractionError (List Plan)
  | [] => pure []
  | plan :: rest => do
    let plan ← plan.inline scope
    return plan :: (← Plan.inlineAll scope rest)

/-- The scope with more definitions; each sees those before it. -/
def CteDefinition.extend (scope : CteScope) :
    List CteDefinition → Traced ExtractionError CteScope
  | [] => pure scope
  | .mk id child :: rest => do
    let body ← child.inline scope
    CteDefinition.extend ((id, body) :: scope) rest

/-- The entries of a select list with the references in their subqueries written out. -/
def SelectItem.inlineAll (scope : CteScope) :
    List SelectItem → Traced ExtractionError (List SelectItem)
  | [] => pure []
  | .column a :: rest => do return .column a :: (← SelectItem.inlineAll scope rest)
  | .aliased (.mk child name id) :: rest => do
    let child ← child.inline scope
    return .aliased (.mk child name id) :: (← SelectItem.inlineAll scope rest)

/-- The expression with the references in its subqueries written out. -/
def Expr.inline (scope : CteScope) : Expr → Traced ExtractionError Expr
  | .column a => pure (.column a)
  | .literal text => pure (.literal text)
  | .call name args => do return .call name (← Expr.inlineAll scope args)
  | .count args distinct => do return .count (← Expr.inlineAll scope args) distinct
  | .subquery plan => do return .subquery (← plan.inline scope)
  | .windowed function partition order => do
    let function ← function.inline scope
    let partition ← Expr.inlineAll scope partition
    return .windowed function partition (← Expr.inlineAll scope order)
  | .aliased (.mk child name id) => do return .aliased (.mk (← child.inline scope) name id)

/-- The expressions with the references in their subqueries written out, from left to right. -/
def Expr.inlineAll (scope : CteScope) : List Expr → Traced ExtractionError (List Expr)
  | [] => pure []
  | e :: rest => do
    let e ← e.inline scope
    return e :: (← Expr.inlineAll scope rest)

end

end ColumnTrace
