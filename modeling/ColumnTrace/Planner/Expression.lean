import ColumnTrace.Plan.Expr
import ColumnTrace.Planner.Monad
import ColumnTrace.Planner.Scope

/-!
# Expressions

An expression is resolved against a scope. Window functions are taken out of it: each becomes a
column of its own, and the functions are collected, where windows are allowed at all.
-/

set_option autoImplicit false

namespace ColumnTrace

/-- The window functions that were taken out so far; none where windows are not allowed. -/
abbrev Windows := Option (List Alias)

/-- A planning computation that collects window functions. -/
abbrev Projecting := StateT Windows Planner

/-- How the parts of an expression are resolved. -/
abbrev Resolver := Scope → Sql.Node → Projecting Expr

namespace Resolver

/-- The expression of a value, which has to be a node. -/
def value (resolve : Resolver) (scope : Scope) (value : Sql.Value) : Projecting Expr := do
  resolve scope (← (Planner.ofExcept value.toNode : Planner Sql.Node))

/-- The expression of a value in which no window function is allowed. -/
def plain (resolve : Resolver) (scope : Scope) (value : Sql.Value) : Planner Expr := do
  return (← (resolve.value scope value).run none).1

/-- The expression that a term of an order sorts by. -/
def sortKey (term : Sql.Value) : Sql.Value :=
  match term.node?.filter (·.is "Ordered") with
  | some ordered => ordered.arg "this"
  | none => term

/-- The terms of the order of a window. -/
def orderTerms (window : Sql.Node) : Sql.Reading (List Sql.Value) :=
  let order := window.arg "order"
  if order.isGiven then do return (← (← order.toNode).expressions).map sortKey else .ok []

/-- A window function under a name of its own, where so many were taken out before it. -/
def windowAlias (resolve : Resolver) (scope : Scope) (node : Sql.Node) (before : Nat) :
    Planner Alias := do
  let function ← resolve.plain scope (node.arg "this")
  let partition ← (← Planner.ofExcept (node.itemsOf "partition_by")).mapM (resolve.plain scope)
  let order ← (← Planner.ofExcept (orderTerms node)).mapM (resolve.plain scope)
  let id ← Planner.freshId
  return .mk (.windowed function partition order) (some ("_we" ++ Text.writeNat before)) id

/-- The column of a window function, which is taken out. -/
def window (resolve : Resolver) (scope : Scope) (node : Sql.Node) : Projecting Attribute :=
  fun windows => match windows with
    | none => Planner.fail .misplacedWindow
    | some taken => do
      let function ← resolve.windowAlias scope node taken.length
      return (function.toAttribute, some (taken ++ [function]))

/-- A count, with the expressions that it counts; a star counts rows. -/
def count (resolve : Resolver) (scope : Scope) (node : Sql.Node) : Projecting Expr := do
  match (← (Planner.ofExcept (node.arg "this").nodeIfThere : Planner (Option Sql.Node))) with
  | none => return .count [] false
  | some arg =>
    if arg.is "Distinct" then
      let counted ← (Planner.ofExcept arg.expressions : Planner (List Sql.Value))
      return .count (← counted.mapM (resolve.value scope)) true
    else if arg.is "Star" then return .count [] false
    else return .count [← resolve scope arg] false

/-- One level of an expression, where `query` plans scalar subqueries and `resolve` the parts. -/
def step (query : Scope → Sql.Node → Planner Plan) (resolve : Resolver) : Resolver :=
  fun scope node => do
    if node.is "Column" then
      if node.isStarColumn then
        (do Planner.fail (.misplacedStar (← Planner.write node)) : Planner Expr)
      else return .column (← (Planner.ofExcept (scope.column node) : Planner Attribute))
    else if node.is "Literal" || node.is "Null" || node.is "Boolean" || node.is "Star" then
      return .literal (← (Planner.write node : Planner String))
    else if node.isQueryOrSubquery then
      return .subquery (← (query scope node : Planner Plan))
    else if node.is "Window" then return .column (← resolve.window scope node)
    else if node.is "Count" then resolve.count scope node
    else if node.is "Alias" || node.is "Paren" then resolve.value scope (node.arg "this")
    else if node.is "Lambda" then
      -- the variables of a lambda are no columns
      return .literal (← (Planner.write node : Planner String))
    else return .call node.key (← node.children.mapM (resolve scope))

end Resolver

end ColumnTrace
