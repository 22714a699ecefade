import ColumnTrace.Levels
import ColumnTrace.Lineage.Inline
import ColumnTrace.Lineage.Map
import ColumnTrace.Plan.Expr
import ColumnTrace.Settings

/-!
# Tracing a plan

`extract` goes down a plan with a request, what the operators above still need, and comes back with
the answer. An empty request asks for all that the plan has.

* Commands trace their query and name each column after their target.
* Select lists, expansions and window functions turn the request into one for their child. An
  expression without columns takes its sources from its subqueries, marked as such.
* A join hands the request to both sides, a semi or anti join to its left side only.
* A union traces each branch on its own and puts the answers together by position.
* Relations qualify what they provide. Views and stored results trace their own plan first.
* Any other operator hands the request on.
-/

set_option autoImplicit false

namespace ColumnTrace

mutual

/-- The plans that a physical node and the nodes below it remember, by levels from the top. -/
def PhysicalNode.linkLevels : PhysicalNode → List (List Plan)
  | .mk _ children link => link.toList :: PhysicalNode.linkLevelsOfAll children

/-- The plans that a row of physical nodes and the nodes below them remember, by levels from the
top, each level from left to right. -/
def PhysicalNode.linkLevelsOfAll : List PhysicalNode → List (List Plan)
  | [] => []
  | node :: rest => overlay node.linkLevels (PhysicalNode.linkLevelsOfAll rest)

end

/-- The plan that the topmost, among those the leftmost, physical node remembers. -/
def PhysicalNode.findLink (nodes : List PhysicalNode) : Option Plan :=
  (PhysicalNode.linkLevelsOfAll nodes).flatten.head?

/-- What a single node and the nodes below it remember begins with the plan that is found. -/
theorem PhysicalNode.findLink_singleton (physical : PhysicalNode) :
    PhysicalNode.findLink [physical] = physical.linkLevels.flatten.head? := by
  rw [findLink, linkLevelsOfAll, linkLevelsOfAll, overlay_nil_right]

/-- The columns of rows of unlike length: as many as the shortest row has. -/
def columnsOf {α : Type} (rows : List (List α)) : List (List α) :=
  match rows with
  | [] => []
  | row :: rest =>
    let width := rest.foldl (fun width other => min width other.length) row.length
    (List.range width).map fun i => rows.filterMap (·[i]?)

namespace Lineage

/-- How the plans below an operator are traced. -/
abbrev Below := Plan → LineageMap → Traced ExtractionError LineageMap

/-- The request is handed to all children, and their answers are merged. -/
def ofChildren (below : Below) (children : List Plan) (request : LineageMap) :
    Traced ExtractionError LineageMap := do
  return .mergeAll (← children.mapM fun child => below child request)

/-- The sources of a named expression: its columns; without any the columns of its subqueries,
marked as such; and a marker of rows where it counts them. -/
def aliasSources (below : Below) (a : Alias) : Traced ExtractionError AttributeSet := do
  let direct := a.child.references
  let sources ←
    if direct.isEmpty then do
      let nested ← a.child.subqueries.mapM fun plan => below plan ∅
      let found := (LineageMap.mergeAll nested).values.flatMap AttributeSet.attrs
      pure (AttributeSet.ofList (found.map Attribute.markSubquery))
    else pure direct
  return if a.child.countsRows then sources.insert (a.toAttribute.withName countName) else sources

/-- An entry of a select list with its sources. -/
def itemSources (below : Below) : SelectItem → Traced ExtractionError (Attribute × AttributeSet)
  | .column a => pure (a, .singleton a)
  | .aliased a => do return (a.toAttribute, ← aliasSources below a)

/-- The columns of a select list with their sources. -/
def ofSelectList (below : Below) (items : List SelectItem) :
    Traced ExtractionError LineageMap := do
  return .ofList (← items.mapM (itemSources below))

/-- The columns of an expansion, each with the references at its place in all projections. -/
def ofProjections (projections : List (List Expr)) (output : List Attribute) : LineageMap :=
  .ofList ((output.zip (columnsOf projections)).map fun pair =>
    (pair.1, .ofList (pair.2.flatMap fun e => e.references.attrs)))

/-- The columns of window functions with their sources. -/
def ofWindowFunctions (functions : List Alias) : LineageMap :=
  .ofList (functions.map fun a => (a.toAttribute, a.child.references))

/-- The request that a window operator has for its child: the columns of its functions give way to
what the functions refer to. -/
def windowRequest (functions : List Alias) (input : List Attribute) (parent : LineageMap) :
    LineageMap :=
  let computed := ofWindowFunctions functions
  if parent.isEmpty then (LineageMap.identity input).insertAll computed.entries
  else parent.mapValues fun key sources =>
    match computed.byId? key.id with
    | some found => found
    | none => .ofList (sources.attrs.flatMap fun a =>
        match computed.byId? a.id with
        | some found => found.attrs
        | none => [a])

/-- The columns of a union: at each place the sources of all branches. -/
def ofBranches (output : List Attribute) (branches : List LineageMap) : LineageMap :=
  match output, branches with
  | [], _ => .mergeAll branches
  | _, [] => ∅
  | _, first :: rest =>
    let columns := rest.foldl (fun columns branch =>
      List.zipWith (fun s t => s ∪ t) columns branch.values) first.values
    .ofList (output.zip columns)

/-- The answer of a plan that stands for one row: a column asked of a subquery loses the subquery's
segment. -/
def ofOneRow (parent : LineageMap) : LineageMap :=
  parent.mapValues fun _ sources =>
    .ofList (sources.attrs.map fun a => if a.isSubqueryMarked then a.dropLastSegment else a)

/-- The columns of a new view under its name: under the names it declares, by position, or under
their own. -/
def ofNewView (view : String) (columns : List Label) (lineage : LineageMap) :
    Traced ExtractionError LineageMap :=
  if columns.isEmpty then pure (lineage.rename fun key => view ++ "." ++ Label.text key.name)
  else if columns.length < lineage.size then
    .fail (.viewColumns view columns.length lineage.size)
  else pure (.ofList ((lineage.entries.zip columns).map fun pair =>
    (pair.1.1.withName (view ++ "." ++ Label.text pair.2), pair.1.2)))

/-- The request of a merge: each column that it assigns, with the references of all values for it.
-/
def ofAssignments (assignments : List Assignment) : LineageMap :=
  assignments.foldl (fun request a =>
    request.insert a.key (request.sourcesOf a.key ∪ a.value.references)) ∅

/-- The columns that a merge writes, each with the sources at its place; a column is shown under its
qualified name. -/
def ofMerge (target source : LineageMap) : Traced ExtractionError LineageMap :=
  let written := target.values.flatMap AttributeSet.attrs
  if written.all Attribute.isNamed then
    pure (.ofList ((written.map fun a => a.withName a.qualifiedName).zip source.values))
  else .fail .namelessColumn

/-- One level of a plan is traced, where the plans under it stand at the depth and `enter` traces a
plan that stands at a depth. -/
def stepAt (settings : Settings) (enter : Nat → Below) (depth : Nat) (plan : Plan)
    (parent : LineageMap) : Traced ExtractionError LineageMap :=
  match plan with
  | .commandResult _ command => enter depth command parent
  | .alterView name query => do
    let lineage ← enter depth query parent
    return lineage.rename fun key => name.qualifiedName ++ "." ++ Label.text key.name
  | .createView name query type columns =>
    if type ≠ .persisted then do
      .note (.debug ("Skipping lineage of " ++ type.label ++ " view " ++ name.qualifiedName))
      return ∅
    else do ofNewView name.qualifiedName columns (← enter depth query parent)
  | .createTable name query _ => do
    let lineage ← enter depth query parent
    let qualifier := name.catalog.toList ++ name.database.toList ++ [name.name]
    return lineage.rename fun key =>
      Text.dotted ((qualifier ++ key.name.toList).filter (· != ""))
  | .insertTable none _ mode => .fail (.insertWithoutTable mode)
  | .insertTable (some table) query _ => do
    let lineage ← enter depth query parent
    return lineage.rename fun key => table.qualifiedName ++ "." ++ Label.text key.name
  | .insertDirectory location query _ =>
    match location with
    | none => .fail .directoryWithoutLocation
    | some "" => .fail .directoryWithoutLocation
    | some location => do
      let lineage ← enter depth query parent
      return lineage.rename fun key => "\x60" ++ location ++ "\x60." ++ Label.text key.name
  | .saveSource query _ => enter depth query parent
  | .merge target source matched notMatched => do
    let request := ofAssignments ((matched ++ notMatched).flatMap MergeAction.assignments)
    let targetLineage ← enter depth target (.identity request.keys)
    let sourceLineage ← enter depth source request
    ofMerge targetLineage sourceLineage
  | .withCte .. => do enter depth (← plan.inline []) parent
  | .project items child => do
    ofChildren (enter depth) [child] (← parent.join (← ofSelectList (enter depth) items))
  | .aggregate _ items child => do
    ofChildren (enter depth) [child] (← parent.join (← ofSelectList (enter depth) items))
  | .expand projections output child => do
    ofChildren (enter depth) [child] (← parent.join (ofProjections projections output))
  | .window functions child _ _ =>
    ofChildren (enter depth) [child] (windowRequest functions child.output parent)
  | .join left right type _ =>
    if type.exposesRight then ofChildren (enter depth) [left, right] parent
    else enter depth left parent
  | .union branches output => do
    parent.join (ofBranches output (← branches.mapM fun branch => enter depth branch ∅))
  | .relation output none => parent.ofRelation output [localQualifier]
  | .relation output (some table) => parent.ofRelation output [table.qualifiedName]
  | .localRelation output _ => parent.ofRelation output [localQualifier]
  | .oneRow => pure (ofOneRow parent)
  | .view name output body temporary =>
    if !temporary && settings.skipPersistedViews then
      parent.ofRelation output [name.qualifiedName]
    else do parent.ofRelationPlan output (← enter depth body ∅)
  | .cached output physical table =>
    match PhysicalNode.findLink [physical] with
    | some logical => do parent.ofRelationPlan output (← enter depth logical ∅)
    | none => parent.ofRelation output (table.toList.filter (· != ""))
  | .cteReference .. => pure ∅
  | .cteDefinition definition => do
    .note (passingThrough plan)
    ofChildren (enter depth) [definition.child] parent
  | .operator _ children _ =>
    if children.isEmpty then pure ∅
    else do
      .note (passingThrough plan)
      ofChildren (enter depth) children parent
where
  /-- The entry for an operator without a rule of its own. -/
  passingThrough (plan : Plan) : LogEntry :=
    .debug ("Passing lineage request through unmodelled operator " ++ plan.nodeName)

/-- Tracing of a plan that stands at a depth, which may go so many levels down. A plan beyond the
limit fails with the depth it stands at. -/
def visit (settings : Settings) : Nat → Nat → Below
  | 0, depth, _, _ => .fail (.tooDeep depth settings.maxPlanDepth)
  | levels + 1, depth, plan, parent =>
    if settings.maxPlanDepth < depth then .fail (.tooDeep depth settings.maxPlanDepth)
    else stepAt settings (visit settings levels) (depth + 1) plan parent

end Lineage

/-- The lineage of a plan, as far as the request asks for it. The levels end no earlier than the
limit does. -/
def Plan.extract (settings : Settings) (plan : Plan) (parent : LineageMap) :
    Traced ExtractionError LineageMap :=
  Lineage.visit settings (settings.maxPlanDepth + 1) 0 plan parent

end ColumnTrace
