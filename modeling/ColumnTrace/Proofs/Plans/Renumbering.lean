import ColumnTrace.Proofs.Plans.Outline
import Mathlib.Logic.Embedding.Basic

/-!
# Plans under other numbers

A renumbering gives every column another identity and every named query another number, and keeps
different ones apart. `Plan.renumber` changes the numbers everywhere in a plan and nothing else:
what a plan exposes, what an expression refers to, and which plan a stored result goes back to are
the same under the new numbers.
-/

set_option autoImplicit false

namespace ColumnTrace

/-- New identities of columns and new numbers of named queries; different ones stay different. -/
structure Renumbering where
  column : Int ↪ Int
  query : Int ↪ Int

/-- The renumbering of columns that leaves named queries alone. -/
def Renumbering.ofColumns (column : Int ↪ Int) : Renumbering := ⟨column, .refl Int⟩

/-! ## Attributes -/

namespace Attribute

/-- The column under its new identity. -/
def renumber (r : Renumbering) (a : Attribute) : Attribute := { a with id := r.column a.id }

variable (r : Renumbering) (a b : Attribute)

@[simp]
theorem id_renumber : (a.renumber r).id = r.column a.id := rfl

@[simp]
theorem name_renumber : (a.renumber r).name = a.name := rfl

@[simp]
theorem qualifier_renumber : (a.renumber r).qualifier = a.qualifier := rfl

@[simp]
theorem isNamed_renumber : (a.renumber r).isNamed = a.isNamed := rfl

@[simp]
theorem isCountMarker_renumber : (a.renumber r).isCountMarker = a.isCountMarker := rfl

@[simp]
theorem isSubqueryMarked_renumber : (a.renumber r).isSubqueryMarked = a.isSubqueryMarked := rfl

@[simp]
theorem qualifiedName_renumber : (a.renumber r).qualifiedName = a.qualifiedName := rfl

theorem renumber_withName (name : Label) :
    (a.withName name).renumber r = (a.renumber r).withName name := rfl

theorem renumber_withQualifier (qualifier : List String) :
    (a.withQualifier qualifier).renumber r = (a.renumber r).withQualifier qualifier := rfl

theorem renumber_dropLastSegment : a.dropLastSegment.renumber r = (a.renumber r).dropLastSegment :=
  rfl

theorem renumber_markSubquery : a.markSubquery.renumber r = (a.renumber r).markSubquery := rfl

/-- Columns have one new identity if they had one before. -/
theorem id_renumber_inj {a b : Attribute} : (a.renumber r).id = (b.renumber r).id ↔ a.id = b.id :=
  r.column.injective.eq_iff

/-- Different columns stay different. -/
theorem renumber_injective : Function.Injective (Attribute.renumber r) := by
  rintro ⟨id, name, qualifier⟩ ⟨id', name', qualifier'⟩ h
  obtain ⟨hid, hname, hqualifier⟩ := Attribute.mk.inj h
  exact congr (congrArg₂ Attribute.mk (r.column.injective hid) hname) hqualifier

end Attribute

/-! ## Plans -/

mutual

/-- The expression under the new numbers. -/
def Expr.renumber (r : Renumbering) : Expr → Expr
  | .column a => .column (a.renumber r)
  | .literal text => .literal text
  | .call name args => .call name (args.map (Expr.renumber r))
  | .count args distinct => .count (args.map (Expr.renumber r)) distinct
  | .subquery plan => .subquery (plan.renumber r)
  | .windowed function partition order =>
    .windowed (function.renumber r) (partition.map (Expr.renumber r)) (order.map (Expr.renumber r))
  | .aliased definition => .aliased (definition.renumber r)
termination_by x => sizeOf x
decreasing_by
  all_goals first
    | exact Expr.sizeOf_lt_count (by assumption)
    | decreasing_tactic

/-- The row of an expansion under the new numbers. -/
def Expr.renumberRow (r : Renumbering) (row : List Expr) : List Expr := row.map (Expr.renumber r)
termination_by sizeOf row

/-- The expression, if there is one, under the new numbers. -/
def Expr.renumberIfThere (r : Renumbering) : Option Expr → Option Expr
  | none => none
  | some e => some (e.renumber r)
termination_by x => sizeOf x

/-- The alias under the new numbers. -/
def Alias.renumber (r : Renumbering) : Alias → Alias
  | .mk child name id => .mk (child.renumber r) name (r.column id)
termination_by x => sizeOf x

/-- The entry of a select list under the new numbers. -/
def SelectItem.renumber (r : Renumbering) : SelectItem → SelectItem
  | .column a => .column (a.renumber r)
  | .aliased definition => .aliased (definition.renumber r)
termination_by x => sizeOf x

/-- The assignment under the new numbers. -/
def Assignment.renumber (r : Renumbering) : Assignment → Assignment
  | .mk key value => .mk (key.renumber r) (value.renumber r)
termination_by x => sizeOf x

/-- The action under the new numbers. -/
def MergeAction.renumber (r : Renumbering) : MergeAction → MergeAction
  | .update assignments condition =>
    .update (assignments.map (Assignment.renumber r)) (Expr.renumberIfThere r condition)
  | .insert assignments condition =>
    .insert (assignments.map (Assignment.renumber r)) (Expr.renumberIfThere r condition)
  | .delete condition => .delete (Expr.renumberIfThere r condition)
termination_by x => sizeOf x

/-- The physical node under the new numbers of the plans that it and the nodes below remember. -/
def PhysicalNode.renumber (r : Renumbering) : PhysicalNode → PhysicalNode
  | .mk name children link =>
    .mk name (children.map (PhysicalNode.renumber r)) (Plan.renumberIfThere r link)
termination_by x => sizeOf x

/-- The definition of a named query under the new numbers. -/
def CteDefinition.renumber (r : Renumbering) : CteDefinition → CteDefinition
  | .mk id child => .mk (r.query id) (child.renumber r)
termination_by x => sizeOf x

/-- The plan under the new numbers. -/
def Plan.renumber (r : Renumbering) : Plan → Plan
  | .project items child => .project (items.map (SelectItem.renumber r)) (child.renumber r)
  | .aggregate grouping items child =>
    .aggregate (grouping.map (Expr.renumber r)) (items.map (SelectItem.renumber r))
      (child.renumber r)
  | .window functions child partition order =>
    .window (functions.map (Alias.renumber r)) (child.renumber r)
      (partition.map (Expr.renumber r)) (order.map (Expr.renumber r))
  | .expand projections output child =>
    .expand (projections.map (Expr.renumberRow r)) (output.map (Attribute.renumber r))
      (child.renumber r)
  | .join left right type condition =>
    .join (left.renumber r) (right.renumber r) type (Expr.renumberIfThere r condition)
  | .union branches output =>
    .union (branches.map (Plan.renumber r)) (output.map (Attribute.renumber r))
  | .relation output table => .relation (output.map (Attribute.renumber r)) table
  | .localRelation output rows => .localRelation (output.map (Attribute.renumber r)) rows
  | .oneRow => .oneRow
  | .view name output body temporary =>
    .view name (output.map (Attribute.renumber r)) (body.renumber r) temporary
  | .cteDefinition definition => .cteDefinition (definition.renumber r)
  | .cteReference id output => .cteReference (r.query id) (output.map (Attribute.renumber r))
  | .withCte definitions body =>
    .withCte (definitions.map (CteDefinition.renumber r)) (body.renumber r)
  | .cached output physical table =>
    .cached (output.map (Attribute.renumber r)) (physical.renumber r) table
  | .operator name children output =>
    .operator name (children.map (Plan.renumber r)) (output.map (Attribute.renumber r))
  | .commandResult output command =>
    .commandResult (output.map (Attribute.renumber r)) (command.renumber r)
  | .alterView name query => .alterView name (query.renumber r)
  | .createView name query type columns => .createView name (query.renumber r) type columns
  | .createTable name query replace => .createTable name (query.renumber r) replace
  | .insertTable table query mode => .insertTable table (query.renumber r) mode
  | .insertDirectory location query overwrite =>
    .insertDirectory location (query.renumber r) overwrite
  | .saveSource query provider => .saveSource (query.renumber r) provider
  | .merge target source matched notMatched =>
    .merge (target.renumber r) (source.renumber r) (matched.map (MergeAction.renumber r))
      (notMatched.map (MergeAction.renumber r))
termination_by x => sizeOf x

/-- The plan, if there is one, under the new numbers. -/
def Plan.renumberIfThere (r : Renumbering) : Option Plan → Option Plan
  | none => none
  | some plan => some (plan.renumber r)
termination_by x => sizeOf x

end

section
variable (r : Renumbering)

@[simp]
theorem Expr.renumberRow_eq_map (row : List Expr) :
    Expr.renumberRow r row = row.map (Expr.renumber r) := by
  rw [Expr.renumberRow]

@[simp]
theorem Expr.renumberIfThere_eq_map (e : Option Expr) :
    Expr.renumberIfThere r e = e.map (Expr.renumber r) := by
  cases e <;> simp only [Expr.renumberIfThere, Option.map_none, Option.map_some]

@[simp]
theorem Plan.renumberIfThere_eq_map (plan : Option Plan) :
    Plan.renumberIfThere r plan = plan.map (Plan.renumber r) := by
  cases plan <;> simp only [Plan.renumberIfThere, Option.map_none, Option.map_some]

/-! ## What is read off a plan -/

@[simp]
theorem Alias.child_renumber (a : Alias) : (a.renumber r).child = a.child.renumber r := by
  cases a
  rw [Alias.renumber]
  rfl

/-- A named expression makes its column under the new number. -/
@[simp]
theorem Alias.toAttribute_renumber (a : Alias) :
    (a.renumber r).toAttribute = a.toAttribute.renumber r := by
  cases a
  rw [Alias.renumber]
  rfl

/-- An entry makes its column under the new number. -/
@[simp]
theorem SelectItem.toAttribute_renumber (item : SelectItem) :
    (item.renumber r).toAttribute = item.toAttribute.renumber r := by
  cases item with
  | column a =>
    rw [SelectItem.renumber]
    rfl
  | aliased definition =>
    rw [SelectItem.renumber]
    exact definition.toAttribute_renumber r

@[simp]
theorem Assignment.key_renumber (a : Assignment) : (a.renumber r).key = a.key.renumber r := by
  cases a
  rw [Assignment.renumber]
  rfl

/-- An assignment has its value under new numbers. -/
@[simp]
theorem Assignment.value_renumber (a : Assignment) :
    (a.renumber r).value = a.value.renumber r := by
  cases a
  rw [Assignment.renumber]
  rfl

@[simp]
theorem MergeAction.assignments_renumber (action : MergeAction) :
    (action.renumber r).assignments = action.assignments.map (Assignment.renumber r) := by
  cases action <;> rw [MergeAction.renumber] <;> rfl

/-- A named query has its new number. -/
@[simp]
theorem CteDefinition.id_renumber (definition : CteDefinition) :
    (definition.renumber r).id = r.query definition.id := by
  cases definition
  rw [CteDefinition.renumber]
  rfl

/-- A definition has its query under new numbers. -/
@[simp]
theorem CteDefinition.child_renumber (definition : CteDefinition) :
    (definition.renumber r).child = definition.child.renumber r := by
  cases definition
  rw [CteDefinition.renumber]
  rfl

/-- A select list makes its columns under new numbers. -/
theorem SelectItem.map_toAttribute_renumber (items : List SelectItem) :
    (items.map (SelectItem.renumber r)).map SelectItem.toAttribute =
      (items.map SelectItem.toAttribute).map (Attribute.renumber r) := by
  simp only [List.map_map, Function.comp_def, SelectItem.toAttribute_renumber]

/-- Window functions make their columns under new numbers. -/
theorem Alias.map_toAttribute_renumber (functions : List Alias) :
    (functions.map (Alias.renumber r)).map Alias.toAttribute =
      (functions.map Alias.toAttribute).map (Attribute.renumber r) := by
  simp only [List.map_map, Function.comp_def, Alias.toAttribute_renumber]

/-- A plan has its columns under new numbers. -/
@[simp]
theorem Plan.output_renumber :
    ∀ plan : Plan, (plan.renumber r).output = plan.output.map (Attribute.renumber r)
  | .project items _ => by
    simp only [Plan.renumber, Plan.output, SelectItem.map_toAttribute_renumber]
  | .aggregate _ items _ => by
    simp only [Plan.renumber, Plan.output, SelectItem.map_toAttribute_renumber]
  | .window functions child _ _ => by
    simp only [Plan.renumber, Plan.output, child.output_renumber, List.map_append,
      Alias.map_toAttribute_renumber]
  | .join left right type _ => by
    simp only [Plan.renumber, Plan.output, left.output_renumber, right.output_renumber]
    split
    · rw [List.map_append]
    · rfl
  | .cteDefinition (.mk _ child) => by
    simp only [Plan.renumber, CteDefinition.renumber, Plan.output, child.output_renumber]
  | .withCte _ body => by
    simp only [Plan.renumber, Plan.output, body.output_renumber]
  | .expand .. | .union .. | .relation .. | .localRelation .. | .view .. | .cteReference ..
  | .cached .. | .operator .. | .commandResult .. => by simp only [Plan.renumber, Plan.output]
  | .oneRow | .alterView .. | .createView .. | .createTable .. | .insertTable ..
  | .insertDirectory .. | .saveSource .. | .merge .. => by
    simp only [Plan.renumber, Plan.output, List.map_nil]

mutual

/-- An expression has its columns under new numbers. -/
@[simp]
theorem Expr.attributes_renumber :
    ∀ e : Expr, (e.renumber r).attributes = e.attributes.map (Attribute.renumber r)
  | .column _ => by simp only [Expr.renumber, Expr.attributes, List.map_cons, List.map_nil]
  | .literal _ => by simp only [Expr.renumber, Expr.attributes, List.map_nil]
  | .call _ args => by
    simp only [Expr.renumber, Expr.attributes, Expr.attributesOfAll_renumber args]
  | .count args _ => by
    simp only [Expr.renumber, Expr.attributes, Expr.attributesOfAll_renumber args]
  | .subquery _ => by simp only [Expr.renumber, Expr.attributes, List.map_nil]
  | .windowed function partition order => by
    simp only [Expr.renumber, Expr.attributes, function.attributes_renumber, List.map_append,
      Expr.attributesOfAll_renumber partition, Expr.attributesOfAll_renumber order]
  | .aliased (.mk child _ _) => by
    simp only [Expr.renumber, Alias.renumber, Expr.attributes, child.attributes_renumber]

/-- Expressions have their columns under new numbers. -/
theorem Expr.attributesOfAll_renumber : ∀ es : List Expr,
    Expr.attributesOfAll (es.map (Expr.renumber r)) =
      (Expr.attributesOfAll es).map (Attribute.renumber r)
  | [] => rfl
  | e :: rest => by
    simp only [List.map_cons, Expr.attributesOfAll, List.map_append, e.attributes_renumber,
      Expr.attributesOfAll_renumber rest]

end

mutual

/-- Whether an expression counts rows does not depend on numbers. -/
@[simp]
theorem Expr.countsRows_renumber : ∀ e : Expr, (e.renumber r).countsRows = e.countsRows
  | .column _ | .literal _ | .subquery _ => by simp only [Expr.renumber, Expr.countsRows]
  | .call _ args => by
    simp only [Expr.renumber, Expr.countsRows, Expr.anyCountsRows_renumber args]
  | .count args _ => by
    simp only [Expr.renumber, Expr.countsRows, Expr.anyCountsRows_renumber args,
      Expr.attributesOfAll_renumber r args, List.isEmpty_map]
  | .windowed function partition order => by
    simp only [Expr.renumber, Expr.countsRows, function.countsRows_renumber,
      Expr.anyCountsRows_renumber partition, Expr.anyCountsRows_renumber order]
  | .aliased (.mk child _ _) => by
    simp only [Expr.renumber, Alias.renumber, Expr.countsRows, child.countsRows_renumber]

/-- Whether one of several expressions counts rows does not depend on numbers. -/
theorem Expr.anyCountsRows_renumber : ∀ es : List Expr,
    Expr.anyCountsRows (es.map (Expr.renumber r)) = Expr.anyCountsRows es
  | [] => rfl
  | e :: rest => by
    simp only [List.map_cons, Expr.anyCountsRows, e.countsRows_renumber,
      Expr.anyCountsRows_renumber rest]

end

mutual

/-- An expression has its subqueries under new numbers. -/
@[simp]
theorem Expr.subqueries_renumber :
    ∀ e : Expr, (e.renumber r).subqueries = e.subqueries.map (Plan.renumber r)
  | .column _ | .literal _ => by simp only [Expr.renumber, Expr.subqueries, List.map_nil]
  | .call _ args => by
    simp only [Expr.renumber, Expr.subqueries, Expr.subqueriesOfAll_renumber args]
  | .count args _ => by
    simp only [Expr.renumber, Expr.subqueries, Expr.subqueriesOfAll_renumber args]
  | .subquery _ => by simp only [Expr.renumber, Expr.subqueries, List.map_cons, List.map_nil]
  | .windowed function partition order => by
    simp only [Expr.renumber, Expr.subqueries, function.subqueries_renumber, List.map_append,
      Expr.subqueriesOfAll_renumber partition, Expr.subqueriesOfAll_renumber order]
  | .aliased (.mk child _ _) => by
    simp only [Expr.renumber, Alias.renumber, Expr.subqueries, child.subqueries_renumber]

/-- Expressions have their subqueries under new numbers. -/
theorem Expr.subqueriesOfAll_renumber : ∀ es : List Expr,
    Expr.subqueriesOfAll (es.map (Expr.renumber r)) =
      (Expr.subqueriesOfAll es).map (Plan.renumber r)
  | [] => rfl
  | e :: rest => by
    simp only [List.map_cons, Expr.subqueriesOfAll, List.map_append, e.subqueries_renumber,
      Expr.subqueriesOfAll_renumber rest]

end

/-! ## Stored results -/

mutual

/-- A physical node remembers its plans under new numbers. -/
theorem PhysicalNode.linkLevels_renumber : ∀ node : PhysicalNode,
    (node.renumber r).linkLevels = node.linkLevels.map (List.map (Plan.renumber r))
  | .mk name children link => by
    simp only [PhysicalNode.renumber, PhysicalNode.linkLevels, Plan.renumberIfThere_eq_map,
      Option.toList_map, List.map_cons, PhysicalNode.linkLevelsOfAll_renumber children]

/-- Physical nodes remember their plans under new numbers. -/
theorem PhysicalNode.linkLevelsOfAll_renumber : ∀ nodes : List PhysicalNode,
    PhysicalNode.linkLevelsOfAll (nodes.map (PhysicalNode.renumber r)) =
      (PhysicalNode.linkLevelsOfAll nodes).map (List.map (Plan.renumber r))
  | [] => rfl
  | node :: rest => by
    simp only [List.map_cons, PhysicalNode.linkLevelsOfAll, node.linkLevels_renumber,
      PhysicalNode.linkLevelsOfAll_renumber rest, map_overlay]

end

/-- The plan that a stored result goes back to is the same one under the new numbers. -/
theorem PhysicalNode.findLink_renumber (nodes : List PhysicalNode) :
    PhysicalNode.findLink (nodes.map (PhysicalNode.renumber r)) =
      (PhysicalNode.findLink nodes).map (Plan.renumber r) := by
  simp only [PhysicalNode.findLink, PhysicalNode.linkLevelsOfAll_renumber, ← List.map_flatten,
    List.head?_map]

end

end ColumnTrace
