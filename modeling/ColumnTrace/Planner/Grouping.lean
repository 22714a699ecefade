import ColumnTrace.Planner.SelectList
import ColumnTrace.Sql.Grouping

/-!
# Grouped queries

A query with plain groups becomes an aggregation over its source. Grouping sets become an
aggregation over an expansion: each set gives every row once more, with the grouping columns
outside the set replaced by `NULL` and a number whose bits tell which they are, the first column's
bit the highest. The select list refers to the expanded copies of the grouping columns.
-/

set_option autoImplicit false

namespace ColumnTrace

/-- The number of a grouping set: the bit of each column that the set lacks, the first column's bit
the highest. -/
def groupingMask (columns : List Attribute) (members : AttributeSet) : Nat :=
  columns.foldl (fun mask c => 2 * mask + if members.contains c then 0 else 1) 0

/-- The row of an expansion for one grouping set. -/
def groupingRow (input columns : List Attribute) (members : AttributeSet) : List Expr :=
  input.map Expr.column ++
    (columns.map fun c => if members.contains c then Expr.column c else .literal "NULL") ++
    [.literal (Text.writeNat (groupingMask columns members))]

/-- The columns of grouping sets, each once, in order of first appearance. -/
def groupingColumns (sets : List AttributeSet) : List Attribute :=
  (AttributeSet.ofList (sets.flatMap AttributeSet.attrs)).attrs

/-- The copy of a column, by its identity. -/
def copyOf? (columns copies : List Attribute) (id : Int) : Option Attribute :=
  ((columns.zip copies).find? fun pair => pair.1.id == id).map Prod.snd

/-- The rows of a plan, once for each grouping set, with a copy of each grouping column and the
number of the set. -/
def Plan.expandedBy (child : Plan) (sets : List AttributeSet) (copies : List Attribute)
    (number : Attribute) : Plan :=
  .expand (sets.map (groupingRow child.output (groupingColumns sets)))
    (child.output ++ copies ++ [number]) child

/-- A select list over the rows of a plan, grouped by the copies and the number of the set. -/
def Plan.groupedBySets (child : Plan) (sets : List AttributeSet) (copies : List Attribute)
    (number : Attribute) (items : List SelectItem) : Plan :=
  .aggregate ((copies ++ [number]).map Expr.column)
    (items.map (·.substitute (copyOf? (groupingColumns sets) copies)))
    (child.expandedBy sets copies number)

/-- The attribute that an expression is. -/
def Expr.asColumn? : Expr → Option Attribute
  | .column a => some a
  | _ => none

namespace Resolver

/-- The columns of one grouping set. -/
def groupingMembers (resolve : Resolver) (select : Sql.Node) (scope : Scope)
    (terms : List Sql.Value) : Planner AttributeSet := do
  let members ← terms.mapM (resolve.groupingTerm select scope)
  match members.mapM Expr.asColumn? with
  | some columns => return .ofList columns
  | none => Planner.fail .groupingNotColumn

/-- A query with grouping sets over its source. -/
def groupingSets (resolve : Resolver) (select : Sql.Node) (scope : Scope) (child : Plan)
    (sets : List (List Sql.Value)) : Planner Plan := do
  let members ← sets.mapM (resolve.groupingMembers select scope)
  let copies ← Planner.freshLike (groupingColumns members)
  let number ← Planner.freshColumn (some "spark_grouping_id")
  let items ← resolve.plainSelectList scope select
  return child.groupedBySets members copies number items

/-- A grouped query over its source. -/
def aggregate (resolve : Resolver) (select : Sql.Node) (scope : Scope) (child : Plan) :
    Planner Plan := do
  if ← Planner.ofExcept select.hasWindows then Planner.fail .windowOverAggregate
  match ← Planner.ofExcept (Sql.groupingSets select) with
  | some sets => resolve.groupingSets select scope child sets
  | none => do
    let terms ← Planner.ofExcept select.groupExpressions
    let grouping ← terms.mapM (resolve.groupingTerm select scope)
    return .aggregate grouping (← resolve.plainSelectList scope select) child

end Resolver

end ColumnTrace
