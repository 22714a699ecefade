import ColumnTrace.Proofs.Expressions

/-!
# The identities that a plan introduces

A column gets its identity where it first appears: in the output of a relation, of a view, of a
union, of what reads a stored result or a named query, as a new column of an expansion, or under an
alias. A named query gets its number where it is defined. `Plan.introduced` lists what a plan
introduces, with everything that stands in its subqueries, its named queries, the bodies of its
views and the plans that its stored results remember. What only refers to a column introduces
nothing.
-/

set_option autoImplicit false

namespace ColumnTrace

/-- What tells columns apart, and what tells named queries apart. -/
inductive Identity where
  | column (id : Int)
  | query (number : Int)
deriving DecidableEq

/-- The identities of columns. -/
def Identity.ofColumns (columns : List Attribute) : List Identity :=
  columns.map fun a => .column a.id

mutual

/-- The identities that an expression introduces. -/
def Expr.introduced : Expr → List Identity
  | .column _ => []
  | .literal _ => []
  | .call _ args => args.flatMap Expr.introduced
  | .count args _ => args.flatMap Expr.introduced
  | .subquery plan => plan.introduced
  | .windowed function partition order =>
    function.introduced ++ (partition.flatMap Expr.introduced ++ order.flatMap Expr.introduced)
  | .aliased definition => definition.introduced
termination_by x => sizeOf x
decreasing_by
  all_goals first
    | exact Expr.sizeOf_lt_count (by assumption)
    | decreasing_tactic

/-- The identities that a row of an expansion introduces. -/
def Expr.introducedByRow (row : List Expr) : List Identity := row.flatMap Expr.introduced
termination_by sizeOf row

/-- The identities that an expression, if there is one, introduces. -/
def Expr.introducedIfThere : Option Expr → List Identity
  | none => []
  | some e => e.introduced
termination_by x => sizeOf x

/-- The identity that an alias gives, and those that its expression introduces. -/
def Alias.introduced : Alias → List Identity
  | .mk child _ id => .column id :: child.introduced
termination_by x => sizeOf x

/-- The identities that an entry of a select list introduces. -/
def SelectItem.introduced : SelectItem → List Identity
  | .column _ => []
  | .aliased definition => definition.introduced
termination_by x => sizeOf x

/-- The identities that the value of an assignment introduces. -/
def Assignment.introduced : Assignment → List Identity
  | .mk _ value => value.introduced
termination_by x => sizeOf x

/-- The identities that an action of a merge introduces. -/
def MergeAction.introduced : MergeAction → List Identity
  | .update assignments condition =>
    assignments.flatMap Assignment.introduced ++ Expr.introducedIfThere condition
  | .insert assignments condition =>
    assignments.flatMap Assignment.introduced ++ Expr.introducedIfThere condition
  | .delete condition => Expr.introducedIfThere condition
termination_by x => sizeOf x

/-- The identities that the plans which a physical node and the nodes below it remember introduce.
-/
def PhysicalNode.introduced : PhysicalNode → List Identity
  | .mk _ children link =>
    Plan.introducedIfThere link ++ children.flatMap PhysicalNode.introduced
termination_by x => sizeOf x

/-- The number of a named query, and the identities that the query introduces. -/
def CteDefinition.introduced : CteDefinition → List Identity
  | .mk id child => .query id :: child.introduced
termination_by x => sizeOf x

/-- The identities that a plan introduces. -/
def Plan.introduced : Plan → List Identity
  | .project items child => child.introduced ++ items.flatMap SelectItem.introduced
  | .aggregate grouping items child =>
    child.introduced ++ (grouping.flatMap Expr.introduced ++ items.flatMap SelectItem.introduced)
  | .window functions child partition order =>
    child.introduced ++ (functions.flatMap Alias.introduced ++
      (partition.flatMap Expr.introduced ++ order.flatMap Expr.introduced))
  | .expand projections output child =>
    -- the columns of the child come first and stay as they are
    child.introduced ++ (Identity.ofColumns (output.drop child.output.length) ++
      projections.flatMap Expr.introducedByRow)
  | .join left right _ condition =>
    left.introduced ++ (right.introduced ++ Expr.introducedIfThere condition)
  | .union branches output => branches.flatMap Plan.introduced ++ Identity.ofColumns output
  | .relation output _ => Identity.ofColumns output
  | .localRelation output _ => Identity.ofColumns output
  | .oneRow => []
  | .view _ output body _ => body.introduced ++ Identity.ofColumns output
  | .cteDefinition definition => definition.introduced
  | .cteReference _ output => Identity.ofColumns output
  | .withCte definitions body => definitions.flatMap CteDefinition.introduced ++ body.introduced
  | .cached output physical _ => physical.introduced ++ Identity.ofColumns output
  | .operator _ children _ => children.flatMap Plan.introduced
  | .commandResult _ command => command.introduced
  | .alterView _ query => query.introduced
  | .createView _ query _ _ => query.introduced
  | .createTable _ query _ => query.introduced
  | .insertTable _ query _ => query.introduced
  | .insertDirectory _ query _ => query.introduced
  | .saveSource query _ => query.introduced
  | .merge target source matched notMatched =>
    target.introduced ++ (source.introduced ++
      (matched.flatMap MergeAction.introduced ++ notMatched.flatMap MergeAction.introduced))
termination_by x => sizeOf x

/-- The identities that a plan, if there is one, introduces. -/
def Plan.introducedIfThere : Option Plan → List Identity
  | none => []
  | some plan => plan.introduced
termination_by x => sizeOf x

end

/-- An operator without a rule of its own introduces nothing. -/
@[simp]
theorem Plan.introduced_wrap (name : String) (plan : Plan) :
    (plan.wrap name).introduced = plan.introduced := by
  rw [wrap, introduced, List.flatMap_singleton]

@[simp]
theorem Expr.introduced_column (a : Attribute) : (Expr.column a).introduced = [] := by
  rw [introduced]

/-- Columns that are carried over introduce nothing. -/
@[simp]
theorem SelectItem.flatMap_introduced_column (columns : List Attribute) :
    (columns.map SelectItem.column).flatMap SelectItem.introduced = [] := by
  rw [List.flatMap_map, List.flatMap_eq_nil_iff]
  intro a _
  rw [introduced]

/-! ## Exchanged columns -/

section
variable (f : Int → Option Attribute)

mutual

/-- An expression introduces the same where the columns that it refers to are exchanged. -/
theorem Expr.introduced_substitute : ∀ e : Expr, (e.substitute f).introduced = e.introduced
  | .column _ => by simp only [substitute, introduced]
  | .literal _ => by simp only [substitute]
  | .call _ args => by
    simp only [substitute, introduced, Expr.flatMap_introduced_substituteAll args]
  | .count args _ => by
    simp only [substitute, introduced, Expr.flatMap_introduced_substituteAll args]
  | .subquery _ => by simp only [substitute]
  | .windowed function partition order => by
    simp only [substitute, introduced, function.introduced_substitute,
      Expr.flatMap_introduced_substituteAll partition,
      Expr.flatMap_introduced_substituteAll order]
  | .aliased (.mk child _ _) => by
    simp only [substitute, introduced, Alias.introduced, child.introduced_substitute]

/-- A substitution in expressions introduces nothing. -/
theorem Expr.flatMap_introduced_substituteAll : ∀ es : List Expr,
    (Expr.substituteAll f es).flatMap Expr.introduced = es.flatMap Expr.introduced
  | [] => rfl
  | e :: rest => by
    simp only [substituteAll, List.flatMap_cons, e.introduced_substitute,
      Expr.flatMap_introduced_substituteAll rest]

end

/-- A substitution in an entry introduces nothing. -/
theorem SelectItem.introduced_substitute (item : SelectItem) :
    (item.substitute f).introduced = item.introduced := by
  cases item with
  | column a => simp only [substitute, introduced]
  | aliased definition =>
    obtain ⟨child, name, id⟩ := definition
    simp only [substitute, introduced, Alias.introduced, child.introduced_substitute]

end

end ColumnTrace
