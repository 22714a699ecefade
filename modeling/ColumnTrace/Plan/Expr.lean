import ColumnTrace.AttributeSet
import ColumnTrace.Plan.Basic

/-!
# What lineage reads off an expression

The attributes that an expression refers to, the plans of its scalar subqueries, and whether it
counts rows without looking at a column. A subquery's plan is not part of the expression around it:
its columns are no references.
-/

set_option autoImplicit false

namespace ColumnTrace

mutual

/-- The attributes of an expression, from left to right. -/
def Expr.attributes : Expr → List Attribute
  | .column a => [a]
  | .literal _ => []
  | .call _ args => Expr.attributesOfAll args
  | .count args _ => Expr.attributesOfAll args
  | .subquery _ => []
  | .windowed function partition order =>
    function.attributes ++ (Expr.attributesOfAll partition ++ Expr.attributesOfAll order)
  | .aliased (.mk child _ _) => child.attributes

/-- The attributes of a list of expressions, from left to right. -/
def Expr.attributesOfAll : List Expr → List Attribute
  | [] => []
  | e :: rest => e.attributes ++ Expr.attributesOfAll rest

end

/-- The attributes that an expression refers to. -/
def Expr.references (e : Expr) : AttributeSet := .ofList e.attributes

mutual

/-- The expression counts rows without looking at a column: `COUNT(*)` or `COUNT(1)` stands in it.
-/
def Expr.countsRows : Expr → Bool
  | .column _ => false
  | .literal _ => false
  | .call _ args => Expr.anyCountsRows args
  | .count args _ => (Expr.attributesOfAll args).isEmpty || Expr.anyCountsRows args
  | .subquery _ => false
  | .windowed function partition order =>
    function.countsRows || (Expr.anyCountsRows partition || Expr.anyCountsRows order)
  | .aliased (.mk child _ _) => child.countsRows

/-- One of the expressions counts rows without looking at a column. -/
def Expr.anyCountsRows : List Expr → Bool
  | [] => false
  | e :: rest => e.countsRows || Expr.anyCountsRows rest

end

mutual

/-- The plans of the scalar subqueries in an expression, from left to right. -/
def Expr.subqueries : Expr → List Plan
  | .column _ => []
  | .literal _ => []
  | .call _ args => Expr.subqueriesOfAll args
  | .count args _ => Expr.subqueriesOfAll args
  | .subquery plan => [plan]
  | .windowed function partition order =>
    function.subqueries ++ (Expr.subqueriesOfAll partition ++ Expr.subqueriesOfAll order)
  | .aliased (.mk child _ _) => child.subqueries

/-- The plans of the scalar subqueries in a list of expressions, from left to right. -/
def Expr.subqueriesOfAll : List Expr → List Plan
  | [] => []
  | e :: rest => e.subqueries ++ Expr.subqueriesOfAll rest

end

mutual

/-- The expression with every subquery's plan changed by a function. -/
def Expr.mapSubqueries (f : Plan → Plan) : Expr → Expr
  | .column a => .column a
  | .literal text => .literal text
  | .call name args => .call name (Expr.mapSubqueriesOfAll f args)
  | .count args distinct => .count (Expr.mapSubqueriesOfAll f args) distinct
  | .subquery plan => .subquery (f plan)
  | .windowed function partition order =>
    .windowed (function.mapSubqueries f) (Expr.mapSubqueriesOfAll f partition)
      (Expr.mapSubqueriesOfAll f order)
  | .aliased (.mk child name id) => .aliased (.mk (child.mapSubqueries f) name id)

/-- The expressions with every subquery's plan changed by a function. -/
def Expr.mapSubqueriesOfAll (f : Plan → Plan) : List Expr → List Expr
  | [] => []
  | e :: rest => e.mapSubqueries f :: Expr.mapSubqueriesOfAll f rest

end

mutual

/-- The expression with attributes exchanged: an attribute whose identity the function answers gives
way to the answer. -/
def Expr.substitute (f : Int → Option Attribute) : Expr → Expr
  | .column a => .column ((f a.id).getD a)
  | .literal text => .literal text
  | .call name args => .call name (Expr.substituteAll f args)
  | .count args distinct => .count (Expr.substituteAll f args) distinct
  | .subquery plan => .subquery plan
  | .windowed function partition order =>
    .windowed (function.substitute f) (Expr.substituteAll f partition) (Expr.substituteAll f order)
  | .aliased (.mk child name id) => .aliased (.mk (child.substitute f) name id)

/-- The expressions with attributes exchanged. -/
def Expr.substituteAll (f : Int → Option Attribute) : List Expr → List Expr
  | [] => []
  | e :: rest => e.substitute f :: Expr.substituteAll f rest

end

/-- The entry of a select list with attributes exchanged. -/
def SelectItem.substitute (f : Int → Option Attribute) : SelectItem → SelectItem
  | .column a => .column ((f a.id).getD a)
  | .aliased (.mk child name id) => .aliased (.mk (child.substitute f) name id)

end ColumnTrace
