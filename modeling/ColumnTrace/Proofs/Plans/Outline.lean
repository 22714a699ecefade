import ColumnTrace.Lineage.Extract
import ColumnTrace.Proofs.Expressions
import Mathlib.Data.List.Forall2

/-!
# A plan and the plans in it

A plan holds other plans: those that its operator works on, the subqueries of its expressions, the
queries of a clause, the plans that a stored result goes back to (`Plan.parts`). `Plan.mapParts`
exchanges them and leaves everything else. With a one-row relation for each of them the outline of
the plan is left (`Plan.outline`): two plans with one outline differ in their parts only.

Writing named queries in place goes into the parts in `Plan.entered`. It leaves those in
`Plan.bypassed` and `Plan.aside` as they are: the queries of commands that write no rows of their
own, the sides of a merge, and the subqueries of all expressions that stand in no select list.
-/

set_option autoImplicit false

namespace ColumnTrace

/-! ## Expressions -/

section
variable (f : Plan → Plan)

mutual

/-- Other subqueries leave the columns of an expression as they are. -/
theorem Expr.attributes_mapSubqueries :
    ∀ e : Expr, (e.mapSubqueries f).attributes = e.attributes
  | .column _ => rfl
  | .literal _ => rfl
  | .call _ args => Expr.attributesOfAll_mapSubqueriesOfAll args
  | .count args _ => Expr.attributesOfAll_mapSubqueriesOfAll args
  | .subquery _ => rfl
  | .windowed function partition order => by
    simp only [Expr.mapSubqueries, Expr.attributes, function.attributes_mapSubqueries,
      Expr.attributesOfAll_mapSubqueriesOfAll partition,
      Expr.attributesOfAll_mapSubqueriesOfAll order]
  | .aliased (.mk child _ _) => child.attributes_mapSubqueries

/-- Other subqueries leave the columns of expressions as they are. -/
theorem Expr.attributesOfAll_mapSubqueriesOfAll : ∀ es : List Expr,
    Expr.attributesOfAll (Expr.mapSubqueriesOfAll f es) = Expr.attributesOfAll es
  | [] => rfl
  | e :: rest => by
    simp only [Expr.mapSubqueriesOfAll, Expr.attributesOfAll, e.attributes_mapSubqueries,
      Expr.attributesOfAll_mapSubqueriesOfAll rest]

end

/-- Other subqueries leave what an expression refers to as it is. -/
@[simp]
theorem Expr.references_mapSubqueries (e : Expr) :
    (e.mapSubqueries f).references = e.references := by
  rw [Expr.references, e.attributes_mapSubqueries, Expr.references]

mutual

/-- Whether an expression counts rows does not depend on its subqueries. -/
theorem Expr.countsRows_mapSubqueries :
    ∀ e : Expr, (e.mapSubqueries f).countsRows = e.countsRows
  | .column _ => rfl
  | .literal _ => rfl
  | .call _ args => Expr.anyCountsRows_mapSubqueriesOfAll args
  | .count args _ => by
    simp only [Expr.mapSubqueries, Expr.countsRows, Expr.anyCountsRows_mapSubqueriesOfAll args,
      Expr.attributesOfAll_mapSubqueriesOfAll f args]
  | .subquery _ => rfl
  | .windowed function partition order => by
    simp only [Expr.mapSubqueries, Expr.countsRows, function.countsRows_mapSubqueries,
      Expr.anyCountsRows_mapSubqueriesOfAll partition,
      Expr.anyCountsRows_mapSubqueriesOfAll order]
  | .aliased (.mk child _ _) => child.countsRows_mapSubqueries

/-- Whether one of several expressions counts rows does not depend on their subqueries. -/
theorem Expr.anyCountsRows_mapSubqueriesOfAll : ∀ es : List Expr,
    Expr.anyCountsRows (Expr.mapSubqueriesOfAll f es) = Expr.anyCountsRows es
  | [] => rfl
  | e :: rest => by
    simp only [Expr.mapSubqueriesOfAll, Expr.anyCountsRows, e.countsRows_mapSubqueries,
      Expr.anyCountsRows_mapSubqueriesOfAll rest]

end

mutual

/-- The subqueries of an expression are changed one by one. -/
theorem Expr.subqueries_mapSubqueries :
    ∀ e : Expr, (e.mapSubqueries f).subqueries = e.subqueries.map f
  | .column _ => rfl
  | .literal _ => rfl
  | .call _ args => Expr.subqueriesOfAll_mapSubqueriesOfAll args
  | .count args _ => Expr.subqueriesOfAll_mapSubqueriesOfAll args
  | .subquery _ => rfl
  | .windowed function partition order => by
    simp only [Expr.mapSubqueries, Expr.subqueries, List.map_append,
      function.subqueries_mapSubqueries, Expr.subqueriesOfAll_mapSubqueriesOfAll partition,
      Expr.subqueriesOfAll_mapSubqueriesOfAll order]
  | .aliased (.mk child _ _) => child.subqueries_mapSubqueries

/-- The subqueries of expressions are changed one by one. -/
theorem Expr.subqueriesOfAll_mapSubqueriesOfAll : ∀ es : List Expr,
    Expr.subqueriesOfAll (Expr.mapSubqueriesOfAll f es) = (Expr.subqueriesOfAll es).map f
  | [] => rfl
  | e :: rest => by
    simp only [Expr.mapSubqueriesOfAll, Expr.subqueriesOfAll, List.map_append,
      e.subqueries_mapSubqueries, Expr.subqueriesOfAll_mapSubqueriesOfAll rest]

end

/-- The subqueries of expressions are changed in each of them. -/
theorem Expr.mapSubqueriesOfAll_eq_map (es : List Expr) :
    Expr.mapSubqueriesOfAll f es = es.map (Expr.mapSubqueries f) := by
  induction es with
  | nil => rfl
  | cons e rest ih => rw [Expr.mapSubqueriesOfAll, List.map_cons, ih]

end


mutual

/-- Functions that agree on the subqueries of an expression change it alike. -/
theorem Expr.mapSubqueries_congr {f g : Plan → Plan} :
    ∀ e : Expr, (∀ query ∈ e.subqueries, f query = g query) →
      e.mapSubqueries f = e.mapSubqueries g
  | .column _, _ => rfl
  | .literal _, _ => rfl
  | .call name args, h => congrArg (Expr.call name) (Expr.mapSubqueriesOfAll_congr args h)
  | .count args distinct, h =>
    congrArg (Expr.count · distinct) (Expr.mapSubqueriesOfAll_congr args h)
  | .subquery plan, h => congrArg Expr.subquery (h plan (List.mem_singleton_self plan))
  | .windowed function partition order, h => by
    simp only [Expr.subqueries, List.mem_append] at h
    simp only [Expr.mapSubqueries, function.mapSubqueries_congr fun q hq => h q (Or.inl hq),
      Expr.mapSubqueriesOfAll_congr partition fun q hq => h q (Or.inr (Or.inl hq)),
      Expr.mapSubqueriesOfAll_congr order fun q hq => h q (Or.inr (Or.inr hq))]
  | .aliased (.mk child name id), h =>
    congrArg (fun child => Expr.aliased (.mk child name id)) (child.mapSubqueries_congr h)

/-- Functions that agree on the subqueries of expressions change them alike. -/
theorem Expr.mapSubqueriesOfAll_congr {f g : Plan → Plan} :
    ∀ es : List Expr, (∀ query ∈ Expr.subqueriesOfAll es, f query = g query) →
      Expr.mapSubqueriesOfAll f es = Expr.mapSubqueriesOfAll g es
  | [], _ => rfl
  | e :: rest, h => by
    simp only [Expr.subqueriesOfAll, List.mem_append] at h
    simp only [Expr.mapSubqueriesOfAll, e.mapSubqueries_congr fun q hq => h q (Or.inl hq),
      Expr.mapSubqueriesOfAll_congr rest fun q hq => h q (Or.inr hq)]

end


section
variable (f g : Plan → Plan)

mutual

/-- Two changes of the subqueries of an expression are one. -/
theorem Expr.mapSubqueries_mapSubqueries :
    ∀ e : Expr, (e.mapSubqueries f).mapSubqueries g = e.mapSubqueries (g ∘ f)
  | .column _ => rfl
  | .literal _ => rfl
  | .call name args =>
    congrArg (Expr.call name) (Expr.mapSubqueriesOfAll_mapSubqueriesOfAll args)
  | .count args distinct =>
    congrArg (Expr.count · distinct) (Expr.mapSubqueriesOfAll_mapSubqueriesOfAll args)
  | .subquery _ => rfl
  | .windowed function partition order => by
    simp only [Expr.mapSubqueries, function.mapSubqueries_mapSubqueries,
      Expr.mapSubqueriesOfAll_mapSubqueriesOfAll partition,
      Expr.mapSubqueriesOfAll_mapSubqueriesOfAll order]
  | .aliased (.mk child name id) =>
    congrArg (fun child => Expr.aliased (.mk child name id)) child.mapSubqueries_mapSubqueries

/-- Two changes of the subqueries of expressions are one. -/
theorem Expr.mapSubqueriesOfAll_mapSubqueriesOfAll : ∀ es : List Expr,
    Expr.mapSubqueriesOfAll g (Expr.mapSubqueriesOfAll f es) =
      Expr.mapSubqueriesOfAll (g ∘ f) es
  | [] => rfl
  | e :: rest => congrArg₂ List.cons e.mapSubqueries_mapSubqueries
    (Expr.mapSubqueriesOfAll_mapSubqueriesOfAll rest)

end

end

mutual

/-- Subqueries that stay leave an expression as it is. -/
theorem Expr.mapSubqueries_id : ∀ e : Expr, e.mapSubqueries id = e
  | .column _ => rfl
  | .literal _ => rfl
  | .call name args => congrArg (Expr.call name) (Expr.mapSubqueriesOfAll_id args)
  | .count args distinct => congrArg (Expr.count · distinct) (Expr.mapSubqueriesOfAll_id args)
  | .subquery _ => rfl
  | .windowed function partition order => by
    simp only [Expr.mapSubqueries, function.mapSubqueries_id,
      Expr.mapSubqueriesOfAll_id partition, Expr.mapSubqueriesOfAll_id order]
  | .aliased (.mk child name id) =>
    congrArg (fun child => Expr.aliased (.mk child name id)) child.mapSubqueries_id

/-- Subqueries that stay leave expressions as they are. -/
theorem Expr.mapSubqueriesOfAll_id : ∀ es : List Expr, Expr.mapSubqueriesOfAll id es = es
  | [] => rfl
  | e :: rest => congrArg₂ List.cons e.mapSubqueries_id (Expr.mapSubqueriesOfAll_id rest)

end

/-! ## Exchanged parts -/

/-- The alias with the subqueries of its expression changed by a function. -/
def Alias.mapSubqueries (f : Plan → Plan) (a : Alias) : Alias :=
  .mk (a.child.mapSubqueries f) a.name a.id

/-- The entry of a select list with its subqueries changed by a function. -/
def SelectItem.mapSubqueries (f : Plan → Plan) : SelectItem → SelectItem
  | .column a => .column a
  | .aliased definition => .aliased (definition.mapSubqueries f)

/-- The assignment with the subqueries of its value changed by a function. -/
def Assignment.mapSubqueries (f : Plan → Plan) (a : Assignment) : Assignment :=
  .mk a.key (a.value.mapSubqueries f)

/-- The action with the subqueries of its expressions changed by a function. -/
def MergeAction.mapSubqueries (f : Plan → Plan) : MergeAction → MergeAction
  | .update assignments condition =>
    .update (assignments.map (Assignment.mapSubqueries f)) (condition.map (Expr.mapSubqueries f))
  | .insert assignments condition =>
    .insert (assignments.map (Assignment.mapSubqueries f)) (condition.map (Expr.mapSubqueries f))
  | .delete condition => .delete (condition.map (Expr.mapSubqueries f))

mutual

/-- The physical node with the plans that it and the nodes below it remember changed by a function.
-/
def PhysicalNode.mapLinks (f : Plan → Plan) : PhysicalNode → PhysicalNode
  | .mk name children link => .mk name (PhysicalNode.mapLinksOfAll f children) (link.map f)

/-- The physical nodes with the plans that they remember changed by a function. -/
def PhysicalNode.mapLinksOfAll (f : Plan → Plan) : List PhysicalNode → List PhysicalNode
  | [] => []
  | node :: rest => node.mapLinks f :: PhysicalNode.mapLinksOfAll f rest

end

/-- The definition with its query changed by a function. -/
def CteDefinition.map (f : Plan → Plan) (definition : CteDefinition) : CteDefinition :=
  .mk definition.id (f definition.child)

/-- The values that an action of a merge assigns, and its condition. -/
def MergeAction.exprs : MergeAction → List Expr
  | .update assignments condition => assignments.map Assignment.value ++ condition.toList
  | .insert assignments condition => assignments.map Assignment.value ++ condition.toList
  | .delete condition => condition.toList

namespace Plan

/-- The parts that writing out goes into: the plans that the operator works on and the subqueries of
a select list. -/
def entered : Plan → List Plan
  | .project items child => child :: Expr.subqueriesOfAll (items.map SelectItem.toExpr)
  | .aggregate _ items child => child :: Expr.subqueriesOfAll (items.map SelectItem.toExpr)
  | .window _ child _ _ => [child]
  | .expand _ _ child => [child]
  | .join left right _ _ => [left, right]
  | .union branches _ => branches
  | .view _ _ body _ => [body]
  | .cteDefinition definition => [definition.child]
  | .operator _ children _ => children
  | .createTable _ query _ => [query]
  | .insertTable _ query _ => [query]
  | .insertDirectory _ query _ => [query]
  | _ => []

/-- Parts that writing out leaves as they are: the subqueries of grouping terms and of window
functions, the sides of a merge, and the queries of commands that write no rows of their own. -/
def bypassed : Plan → List Plan
  | .aggregate grouping _ _ => Expr.subqueriesOfAll grouping
  | .window functions _ partition order =>
    Expr.subqueriesOfAll (functions.map Alias.child ++ (partition ++ order))
  | .commandResult _ command => [command]
  | .alterView _ query => [query]
  | .createView _ query _ _ => [query]
  | .saveSource query _ => [query]
  | .merge target source _ _ => [target, source]
  | _ => []

/-- The other subqueries that writing out leaves as they are: those in projections of an expansion,
in the condition of a join, and in the actions of a merge. -/
def aside : Plan → List Plan
  | .expand projections _ _ => Expr.subqueriesOfAll projections.flatten
  | .join _ _ _ condition => Expr.subqueriesOfAll condition.toList
  | .merge _ _ matched notMatched =>
    Expr.subqueriesOfAll ((matched ++ notMatched).flatMap MergeAction.exprs)
  | _ => []

/-- The plans that a stored result remembers. -/
def stored : Plan → List Plan
  | .cached _ physical _ => physical.linkLevels.flatten
  | _ => []

/-- The queries that a `WITH` clause names, and the plan under the clause. -/
def clause : Plan → List Plan
  | .withCte definitions body => definitions.map CteDefinition.child ++ [body]
  | _ => []

/-- The plans directly in a plan. -/
def parts (plan : Plan) : List Plan :=
  plan.entered ++ (plan.bypassed ++ (plan.aside ++ (plan.stored ++ plan.clause)))

/-- The plan with its parts changed: those that are entered by the first function, those that are
left as they are by the second, those of a stored result or a clause by the third. -/
def mapParts (f g h : Plan → Plan) : Plan → Plan
  | .project items child => .project (items.map (SelectItem.mapSubqueries f)) (f child)
  | .aggregate grouping items child =>
    .aggregate (grouping.map (Expr.mapSubqueries g)) (items.map (SelectItem.mapSubqueries f))
      (f child)
  | .window functions child partition order =>
    .window (functions.map (Alias.mapSubqueries g)) (f child)
      (partition.map (Expr.mapSubqueries g)) (order.map (Expr.mapSubqueries g))
  | .expand projections output child =>
    .expand (projections.map (List.map (Expr.mapSubqueries g))) output (f child)
  | .join left right type condition =>
    .join (f left) (f right) type (condition.map (Expr.mapSubqueries g))
  | .union branches output => .union (branches.map f) output
  | .relation output table => .relation output table
  | .localRelation output rows => .localRelation output rows
  | .oneRow => .oneRow
  | .view name output body temporary => .view name output (f body) temporary
  | .cteDefinition definition => .cteDefinition (definition.map f)
  | .cteReference id output => .cteReference id output
  | .withCte definitions body => .withCte (definitions.map (CteDefinition.map h)) (h body)
  | .cached output physical table => .cached output (physical.mapLinks h) table
  | .operator name children output => .operator name (children.map f) output
  | .commandResult output command => .commandResult output (g command)
  | .alterView name query => .alterView name (g query)
  | .createView name query type columns => .createView name (g query) type columns
  | .createTable name query replace => .createTable name (f query) replace
  | .insertTable table query mode => .insertTable table (f query) mode
  | .insertDirectory location query overwrite => .insertDirectory location (f query) overwrite
  | .saveSource query provider => .saveSource (g query) provider
  | .merge target source matched notMatched =>
    .merge (g target) (g source) (matched.map (MergeAction.mapSubqueries g))
      (notMatched.map (MergeAction.mapSubqueries g))

/-- The plan without the plans in it: a one-row relation stands for each. -/
def outline (plan : Plan) : Plan :=
  plan.mapParts (fun _ => .oneRow) (fun _ => .oneRow) (fun _ => .oneRow)

end Plan

/-! ### Expressions and nodes -/

section
variable (f g : Plan → Plan)

theorem Expr.subqueriesOfAll_map (es : List Expr) :
    Expr.subqueriesOfAll (es.map (Expr.mapSubqueries f)) = (Expr.subqueriesOfAll es).map f := by
  rw [← Expr.mapSubqueriesOfAll_eq_map, Expr.subqueriesOfAll_mapSubqueriesOfAll]

theorem SelectItem.toExpr_mapSubqueries (item : SelectItem) :
    (item.mapSubqueries f).toExpr = item.toExpr.mapSubqueries f := by
  rcases item with a | ⟨child, name, id⟩ <;> rfl

/-- The subqueries of a select list are those of its expressions. -/
theorem SelectItem.map_toExpr_mapSubqueries (items : List SelectItem) :
    (items.map (SelectItem.mapSubqueries f)).map SelectItem.toExpr =
      (items.map SelectItem.toExpr).map (Expr.mapSubqueries f) := by
  rw [List.map_map, List.map_map]
  exact List.map_congr_left fun item _ => item.toExpr_mapSubqueries f

/-- The subqueries of window functions are those of their expressions. -/
theorem Alias.map_child_mapSubqueries (functions : List Alias) :
    (functions.map (Alias.mapSubqueries f)).map Alias.child =
      (functions.map Alias.child).map (Expr.mapSubqueries f) := by
  rw [List.map_map, List.map_map]
  rfl

/-- The subqueries of an action are those of its expressions. -/
theorem MergeAction.exprs_mapSubqueries (action : MergeAction) :
    (action.mapSubqueries f).exprs = action.exprs.map (Expr.mapSubqueries f) := by
  cases action <;> simp [mapSubqueries, exprs, Assignment.mapSubqueries, Assignment.value,
    Function.comp_def, Option.toList_map]

/-- The subqueries of actions are those of their expressions. -/
theorem MergeAction.flatMap_exprs_mapSubqueries (actions : List MergeAction) :
    (actions.map (MergeAction.mapSubqueries f)).flatMap MergeAction.exprs =
      (actions.flatMap MergeAction.exprs).map (Expr.mapSubqueries f) := by
  simp only [List.flatMap_map, List.map_flatMap, MergeAction.exprs_mapSubqueries]

/-- What is done to every entry may be done to rows or to columns. -/
theorem columnsOf_map {α β : Type} (g : α → β) (rows : List (List α)) :
    columnsOf (rows.map (List.map g)) = (columnsOf rows).map (List.map g) := by
  cases rows with
  | nil => rfl
  | cons row rest =>
    simp only [columnsOf, List.map_cons, List.foldl_map, List.length_map, List.map_map]
    refine List.map_congr_left fun i _ => ?_
    rw [← List.map_cons, List.filterMap_map, Function.comp_apply, List.map_filterMap]
    exact List.filterMap_congr fun other _ => List.getElem?_map

mutual

/-- The plans that a physical node remembers are changed level by level. -/
theorem PhysicalNode.linkLevels_mapLinks : ∀ node : PhysicalNode,
    (node.mapLinks f).linkLevels = node.linkLevels.map (List.map f)
  | .mk name children link => by
    simp only [PhysicalNode.mapLinks, PhysicalNode.linkLevels, List.map_cons, Option.toList_map,
      PhysicalNode.linkLevelsOfAll_mapLinksOfAll children]

/-- The plans that physical nodes remember are changed level by level. -/
theorem PhysicalNode.linkLevelsOfAll_mapLinksOfAll : ∀ nodes : List PhysicalNode,
    PhysicalNode.linkLevelsOfAll (PhysicalNode.mapLinksOfAll f nodes) =
      (PhysicalNode.linkLevelsOfAll nodes).map (List.map f)
  | [] => rfl
  | node :: rest => by
    simp only [PhysicalNode.mapLinksOfAll, PhysicalNode.linkLevelsOfAll,
      node.linkLevels_mapLinks, PhysicalNode.linkLevelsOfAll_mapLinksOfAll rest, map_overlay]

end

end

namespace Plan

variable (f g h : Plan → Plan) (plan : Plan)

/-- The parts that are entered are changed by the first function. -/
@[simp]
theorem entered_mapParts : (plan.mapParts f g h).entered = plan.entered.map f := by
  cases plan with
  | project items child =>
    rw [mapParts, entered, SelectItem.map_toExpr_mapSubqueries, Expr.subqueriesOfAll_map]
    rfl
  | aggregate grouping items child =>
    rw [mapParts, entered, SelectItem.map_toExpr_mapSubqueries, Expr.subqueriesOfAll_map]
    rfl
  | _ => rfl

/-- The parts that are bypassed are changed by the second function. -/
@[simp]
theorem bypassed_mapParts : (plan.mapParts f g h).bypassed = plan.bypassed.map g := by
  cases plan with
  | aggregate grouping items child => exact Expr.subqueriesOfAll_map g grouping
  | window functions child partition order =>
    rw [mapParts, bypassed, Alias.map_child_mapSubqueries, ← List.map_append, ← List.map_append,
      Expr.subqueriesOfAll_map]
    rfl
  | _ => rfl

/-- The other subqueries are changed by the second function. -/
@[simp]
theorem aside_mapParts : (plan.mapParts f g h).aside = plan.aside.map g := by
  cases plan with
  | expand projections output child =>
    rw [mapParts, aside, ← List.map_flatten, Expr.subqueriesOfAll_map]
    rfl
  | join left right type condition =>
    rw [mapParts, aside, Option.toList_map, Expr.subqueriesOfAll_map]
    rfl
  | merge target source matched notMatched =>
    rw [mapParts, aside, ← List.map_append, MergeAction.flatMap_exprs_mapSubqueries,
      Expr.subqueriesOfAll_map]
    rfl
  | _ => rfl

/-- The plans of a stored result are changed by the third function. -/
@[simp]
theorem stored_mapParts : (plan.mapParts f g h).stored = plan.stored.map h := by
  cases plan with
  | cached output physical table =>
    rw [mapParts, stored, physical.linkLevels_mapLinks, ← List.map_flatten]
    rfl
  | _ => rfl

/-- The queries of a clause are changed by the third function. -/
@[simp]
theorem clause_mapParts : (plan.mapParts f g h).clause = plan.clause.map h := by
  cases plan with
  | withCte definitions body =>
    rw [mapParts, clause, List.map_map, clause, List.map_append, List.map_map]
    rfl
  | _ => rfl

end Plan

/-! ### One change after the other -/

section
variable (f g : Plan → Plan)

theorem Expr.mapSubqueries_comp :
    Expr.mapSubqueries g ∘ Expr.mapSubqueries f = Expr.mapSubqueries (g ∘ f) :=
  funext fun e => e.mapSubqueries_mapSubqueries f g

theorem Alias.mapSubqueries_comp :
    Alias.mapSubqueries g ∘ Alias.mapSubqueries f = Alias.mapSubqueries (g ∘ f) :=
  funext fun a => congrArg (Alias.mk · a.name a.id) (a.child.mapSubqueries_mapSubqueries f g)

/-- Two changes of the subqueries of an entry are one. -/
theorem SelectItem.mapSubqueries_comp :
    SelectItem.mapSubqueries g ∘ SelectItem.mapSubqueries f = SelectItem.mapSubqueries (g ∘ f) :=
  funext fun item => match item with
    | .column _ => rfl
    | .aliased definition =>
      congrArg SelectItem.aliased (congrFun (Alias.mapSubqueries_comp f g) definition)

theorem Assignment.mapSubqueries_comp :
    Assignment.mapSubqueries g ∘ Assignment.mapSubqueries f = Assignment.mapSubqueries (g ∘ f) :=
  funext fun a => congrArg (Assignment.mk a.key) (a.value.mapSubqueries_mapSubqueries f g)

/-- Two changes of the subqueries of an action are one. -/
theorem MergeAction.mapSubqueries_comp : MergeAction.mapSubqueries g ∘ MergeAction.mapSubqueries f =
    MergeAction.mapSubqueries (g ∘ f) := by
  funext action
  cases action <;> simp only [Function.comp_apply, MergeAction.mapSubqueries, List.map_map,
    Option.map_map, Assignment.mapSubqueries_comp, Expr.mapSubqueries_comp]

mutual

/-- Two changes of the plans that a physical node remembers are one. -/
theorem PhysicalNode.mapLinks_mapLinks : ∀ node : PhysicalNode,
    (node.mapLinks f).mapLinks g = node.mapLinks (g ∘ f)
  | .mk name children link => by
    simp only [PhysicalNode.mapLinks, Option.map_map,
      PhysicalNode.mapLinksOfAll_mapLinksOfAll children]

/-- Two changes of the plans that physical nodes remember are one. -/
theorem PhysicalNode.mapLinksOfAll_mapLinksOfAll : ∀ nodes : List PhysicalNode,
    PhysicalNode.mapLinksOfAll g (PhysicalNode.mapLinksOfAll f nodes) =
      PhysicalNode.mapLinksOfAll (g ∘ f) nodes
  | [] => rfl
  | node :: rest => congrArg₂ List.cons node.mapLinks_mapLinks
    (PhysicalNode.mapLinksOfAll_mapLinksOfAll rest)

end

end

theorem CteDefinition.map_comp (f g : Plan → Plan) :
    CteDefinition.map g ∘ CteDefinition.map f = CteDefinition.map (g ∘ f) := rfl

/-- Two changes of the parts of a plan are one. -/
theorem Plan.mapParts_mapParts (f g h f' g' h' : Plan → Plan) (plan : Plan) :
    (plan.mapParts f g h).mapParts f' g' h' = plan.mapParts (f' ∘ f) (g' ∘ g) (h' ∘ h) := by
  cases plan <;> simp only [Plan.mapParts, List.map_map, Option.map_map, List.map_comp_map,
    Expr.mapSubqueries_comp, Alias.mapSubqueries_comp, SelectItem.mapSubqueries_comp,
    MergeAction.mapSubqueries_comp, PhysicalNode.mapLinks_mapLinks, CteDefinition.map_comp,
    Function.comp_apply]
  case cteDefinition definition => rfl

/-- The outline of a plan does not depend on the plans in it. -/
@[simp]
theorem Plan.outline_mapParts (f g h : Plan → Plan) (plan : Plan) :
    (plan.mapParts f g h).outline = plan.outline :=
  plan.mapParts_mapParts f g h _ _ _

/-- What can be told of an outline is the same for all plans with that outline. -/
theorem Plan.eq_of_outline {α : Type} {f : Plan → α} {p q : Plan}
    (hf : ∀ plan, f plan.outline = f plan) (h : p.outline = q.outline) : f p = f q := by
  rw [← hf p, h, hf q]

/-! ### Changes that agree, and no change -/

section
variable {f g f' g' : Plan → Plan}

/-- Changes that agree on the subqueries of expressions change each of these alike. -/
theorem Expr.mapSubqueries_eq_of_mem {es : List Expr}
    (h : ∀ query ∈ Expr.subqueriesOfAll es, f query = f' query) {e : Expr} (he : e ∈ es) :
    e.mapSubqueries f = e.mapSubqueries f' :=
  e.mapSubqueries_congr fun query hquery => h query (Expr.mem_subqueriesOfAll.2 ⟨e, he, hquery⟩)

/-- Functions that change an expression alike change it alike under a name. -/
theorem Alias.mapSubqueries_congr {a : Alias}
    (h : a.child.mapSubqueries f = a.child.mapSubqueries f') :
    a.mapSubqueries f = a.mapSubqueries f' :=
  congrArg (Alias.mk · a.name a.id) h

/-- Functions that agree on the subqueries of a select list change it alike. -/
theorem SelectItem.map_mapSubqueries_congr {items : List SelectItem}
    (h : ∀ query ∈ Expr.subqueriesOfAll (items.map SelectItem.toExpr), f query = f' query) :
    items.map (SelectItem.mapSubqueries f) = items.map (SelectItem.mapSubqueries f') := by
  refine List.map_congr_left fun item hitem => ?_
  rcases item with a | ⟨child, name, id⟩
  · rfl
  · refine congrArg (fun child => SelectItem.aliased (.mk child name id))
      (child.mapSubqueries_congr fun query hquery => ?_)
    exact h query (Expr.mem_subqueriesOfAll.2 ⟨_, List.mem_map_of_mem hitem, hquery⟩)

/-- Functions that change the expressions of an action alike change the action alike. -/
theorem MergeAction.mapSubqueries_congr {action : MergeAction}
    (h : ∀ e ∈ action.exprs, e.mapSubqueries f = e.mapSubqueries f') :
    action.mapSubqueries f = action.mapSubqueries f' := by
  have hassigned : ∀ {assignments : List Assignment},
      (∀ e ∈ assignments.map Assignment.value, e.mapSubqueries f = e.mapSubqueries f') →
      assignments.map (Assignment.mapSubqueries f) =
        assignments.map (Assignment.mapSubqueries f') := fun hmem =>
    List.map_congr_left fun a ha =>
      congrArg (Assignment.mk a.key) (hmem a.value (List.mem_map_of_mem ha))
  have hcondition : ∀ {condition : Option Expr},
      (∀ e ∈ condition.toList, e.mapSubqueries f = e.mapSubqueries f') →
      condition.map (Expr.mapSubqueries f) = condition.map (Expr.mapSubqueries f') := fun hmem =>
    Option.map_congr fun e he => hmem e (Option.mem_toList.2 he)
  cases action with
  | update assignments condition =>
    exact congrArg₂ MergeAction.update
      (hassigned fun e he => h e (List.mem_append_left _ he))
      (hcondition fun e he => h e (List.mem_append_right _ he))
  | insert assignments condition =>
    exact congrArg₂ MergeAction.insert
      (hassigned fun e he => h e (List.mem_append_left _ he))
      (hcondition fun e he => h e (List.mem_append_right _ he))
  | delete condition => exact congrArg MergeAction.delete (hcondition h)

/-- Changes that agree on the parts that they are made to are one change. -/
theorem Plan.mapParts_congr {plan : Plan} (k : Plan → Plan)
    (hentered : ∀ part ∈ plan.entered, f part = f' part)
    (hbypassed : ∀ part ∈ plan.bypassed, g part = g' part)
    (haside : ∀ part ∈ plan.aside, g part = g' part) :
    plan.mapParts f g k = plan.mapParts f' g' k := by
  cases plan with
  | project items child =>
    have hitems := SelectItem.map_mapSubqueries_congr fun query hquery =>
      hentered query (List.mem_cons_of_mem _ hquery)
    rw [mapParts, mapParts, hitems, hentered child List.mem_cons_self]
  | aggregate grouping items child =>
    have hitems := SelectItem.map_mapSubqueries_congr fun query hquery =>
      hentered query (List.mem_cons_of_mem _ hquery)
    have hgrouping : grouping.map (Expr.mapSubqueries g) = grouping.map (Expr.mapSubqueries g') :=
      List.map_congr_left fun e he => Expr.mapSubqueries_eq_of_mem hbypassed he
    rw [mapParts, mapParts, hitems, hgrouping, hentered child List.mem_cons_self]
  | window functions child partition order =>
    -- functions, partition and order stand in one list of parts that are passed by
    have hexprs : ∀ e ∈ functions.map Alias.child ++ (partition ++ order),
        e.mapSubqueries g = e.mapSubqueries g' := fun e he =>
      Expr.mapSubqueries_eq_of_mem hbypassed he
    simp only [List.forall_mem_append, List.forall_mem_map] at hexprs
    obtain ⟨hfunctions, hpartition, horder⟩ := hexprs
    rw [mapParts, mapParts, hentered child List.mem_cons_self,
      List.map_congr_left fun a ha => Alias.mapSubqueries_congr (hfunctions a ha),
      List.map_congr_left hpartition, List.map_congr_left horder]
  | expand projections output child =>
    have hprojections : projections.map (List.map (Expr.mapSubqueries g)) =
        projections.map (List.map (Expr.mapSubqueries g')) :=
      List.map_congr_left fun row hrow => List.map_congr_left fun e he =>
        Expr.mapSubqueries_eq_of_mem haside (List.mem_flatten_of_mem hrow he)
    rw [mapParts, mapParts, hprojections, hentered child List.mem_cons_self]
  | join left right type condition =>
    have hcondition :
        condition.map (Expr.mapSubqueries g) = condition.map (Expr.mapSubqueries g') :=
      Option.map_congr fun e he => Expr.mapSubqueries_eq_of_mem haside (Option.mem_toList.2 he)
    rw [mapParts, mapParts, hcondition, hentered left List.mem_cons_self,
      hentered right (List.mem_cons_of_mem _ List.mem_cons_self)]
  | merge target source matched notMatched =>
    have hactions : ∀ action ∈ matched ++ notMatched,
        action.mapSubqueries g = action.mapSubqueries g' := fun action haction =>
      MergeAction.mapSubqueries_congr fun e he =>
        Expr.mapSubqueries_eq_of_mem haside (List.mem_flatMap.2 ⟨action, haction, he⟩)
    rw [List.forall_mem_append] at hactions
    rw [mapParts, mapParts, List.map_congr_left hactions.1, List.map_congr_left hactions.2,
      hbypassed target List.mem_cons_self,
      hbypassed source (List.mem_cons_of_mem _ List.mem_cons_self)]
  | union branches output => exact congrArg (Plan.union · output) (List.map_congr_left hentered)
  | operator name children output =>
    exact congrArg (Plan.operator name · output) (List.map_congr_left hentered)
  | view | createTable | insertTable | insertDirectory =>
    rw [mapParts, mapParts, hentered _ List.mem_cons_self]
  | cteDefinition definition =>
    exact congrArg (fun child => Plan.cteDefinition (.mk definition.id child))
      (hentered definition.child List.mem_cons_self)
  | commandResult | alterView | createView | saveSource =>
    rw [mapParts, mapParts, hbypassed _ List.mem_cons_self]
  | _ => rfl

end

mutual

theorem PhysicalNode.mapLinks_id : ∀ node : PhysicalNode, node.mapLinks id = node
  | .mk name children link => by
    rw [PhysicalNode.mapLinks, PhysicalNode.mapLinksOfAll_id children, Option.map_id_fun, id]

/-- Plans that stay leave physical nodes as they are. -/
theorem PhysicalNode.mapLinksOfAll_id : ∀ nodes : List PhysicalNode,
    PhysicalNode.mapLinksOfAll id nodes = nodes
  | [] => rfl
  | node :: rest => congrArg₂ List.cons node.mapLinks_id (PhysicalNode.mapLinksOfAll_id rest)

end

theorem Expr.mapSubqueries_id_fun : Expr.mapSubqueries id = id :=
  funext fun e => e.mapSubqueries_id

theorem mapSubqueries_id_alias : Alias.mapSubqueries id = id :=
  funext fun ⟨child, name, number⟩ => congrArg (Alias.mk · name number) child.mapSubqueries_id

/-- Subqueries that stay leave an entry as it is. -/
theorem SelectItem.mapSubqueries_id_fun : SelectItem.mapSubqueries id = id :=
  funext fun item => match item with
    | .column _ => rfl
    | .aliased definition =>
      congrArg SelectItem.aliased (congrFun mapSubqueries_id_alias definition)

theorem Assignment.mapSubqueries_id_fun : Assignment.mapSubqueries id = id :=
  funext fun ⟨key, value⟩ => congrArg (Assignment.mk key) value.mapSubqueries_id

/-- Subqueries that stay leave an action as it is. -/
theorem MergeAction.mapSubqueries_id_fun : MergeAction.mapSubqueries id = id := by
  funext action
  cases action <;> simp only [MergeAction.mapSubqueries, Assignment.mapSubqueries_id_fun,
    Expr.mapSubqueries_id_fun, List.map_id_fun, Option.map_id_fun, id]

/-- Parts that stay leave a plan as it is. -/
theorem Plan.mapParts_id (plan : Plan) : plan.mapParts id id id = plan := by
  cases plan with
  | cteDefinition definition => cases definition; rfl
  | withCte definitions body =>
    exact congrArg (Plan.withCte · body) (List.map_id'' (fun ⟨_, _⟩ => rfl) definitions)
  | _ => simp only [Plan.mapParts, Expr.mapSubqueries_id_fun, mapSubqueries_id_alias,
      SelectItem.mapSubqueries_id_fun, MergeAction.mapSubqueries_id_fun, PhysicalNode.mapLinks_id,
      List.map_id_fun, Option.map_id_fun, id]

end ColumnTrace
