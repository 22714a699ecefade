import ColumnTrace.Lineage.Statement
import ColumnTrace.Proofs.Lineage.Levels
import ColumnTrace.Proofs.Lineage.RenumberedMaps

/-!
# Tracing under other numbers

Renumbering goes through every stage of tracing. A plan is written out to the same plan under the
new numbers (`Plan.sends_inline`); each operator turns the new request into the new answer where the
plans below do (`Lineage.sends_step`); by induction on the levels so does the whole plan
(`Lineage.sends_extractWithin`). Numbers of named queries are shown in one error only, so where they
are left alone the errors are the same.
-/

set_option autoImplicit false

namespace ColumnTrace

open Traced

variable (r : Renumbering)

/-! ## Named queries -/

/-- The named queries in scope under the new numbers. -/
def CteScope.renumber (scope : CteScope) : CteScope :=
  scope.map fun entry => (r.query entry.1, entry.2.renumber r)

/-- A number means the same query after both are renumbered. -/
theorem CteScope.lookup_renumber (scope : CteScope) (id : Int) :
    (scope.renumber r).lookup (r.query id) = (scope.lookup id).map (Plan.renumber r) := by
  induction scope with
  | nil => rfl
  | cons entry rest ih =>
    have hid : (r.query id == r.query entry.1) = (id == entry.1) :=
      Bool.eq_iff_iff.2 (by simp only [beq_iff_eq, r.query.injective.eq_iff])
    rw [renumber] at ih
    rw [renumber, List.map_cons, List.lookup_cons, List.lookup_cons, hid]
    cases id == entry.1 with
    | true => rfl
    | false => exact ih

/-- What is put in the place of a reference is renumbered with it. -/
theorem renumber_referenceProjection (output : List Attribute) (body : Plan) :
    (referenceProjection output body).renumber r =
      referenceProjection (output.map (Attribute.renumber r)) (body.renumber r) := by
  simp only [referenceProjection, Plan.renumber, Plan.output_renumber, List.zip_map, List.map_map,
    Function.comp_def, SelectItem.renumber, Alias.renumber, Expr.renumber, Prod.map,
    Attribute.id_renumber, Attribute.name_renumber]

/-- A reference under new numbers is written out as before. -/
theorem sends_resolveReference (scope : CteScope) (id : Int) (output : List Attribute) :
    Sends (ExtractionError.renumber r) (Plan.renumber r) (resolveReference scope id output)
      (resolveReference (scope.renumber r) (r.query id) (output.map (Attribute.renumber r))) := by
  rw [resolveReference, resolveReference, CteScope.lookup_renumber]
  cases scope.lookup id with
  | none => exact sends_note_bind _ _ (sends_pure (by rw [Plan.renumber]))
  | some body =>
    simp only [Option.map_some, Plan.output_renumber, List.length_map]
    split
    · exact sends_fail _
    · exact sends_pure (renumber_referenceProjection r output body)

mutual

/-- A plan is written out to the same plan under the new numbers. -/
theorem Plan.sends_inline : ∀ (scope : CteScope) (plan : Plan),
    Sends (ExtractionError.renumber r) (Plan.renumber r) (plan.inline scope)
      ((plan.renumber r).inline (scope.renumber r))
  | scope, .withCte definitions body => by
    simp only [Plan.renumber, Plan.inline]
    exact (CteDefinition.sends_extend scope definitions).bind fun inner => body.sends_inline inner
  | scope, .cteReference id output => by
    simp only [Plan.renumber, Plan.inline]
    exact sends_resolveReference r scope id output
  | scope, .project items child => by
    simp only [Plan.renumber, Plan.inline]
    refine (child.sends_inline scope).bind fun child => ?_
    refine (SelectItem.sends_inlineAll scope items).bind fun items => ?_
    exact sends_pure (by simp only [Plan.renumber])
  | scope, .aggregate grouping items child => by
    simp only [Plan.renumber, Plan.inline]
    refine (child.sends_inline scope).bind fun child => ?_
    refine (SelectItem.sends_inlineAll scope items).bind fun items => ?_
    exact sends_pure (by simp only [Plan.renumber])
  | scope, .window functions child partition order => by
    simp only [Plan.renumber, Plan.inline]
    exact (child.sends_inline scope).bind fun child => sends_pure (by simp only [Plan.renumber])
  | scope, .expand projections output child => by
    simp only [Plan.renumber, Plan.inline]
    exact (child.sends_inline scope).bind fun child => sends_pure (by simp only [Plan.renumber])
  | scope, .join left right type condition => by
    simp only [Plan.renumber, Plan.inline]
    refine (left.sends_inline scope).bind fun left => ?_
    refine (right.sends_inline scope).bind fun right => ?_
    exact sends_pure (by simp only [Plan.renumber])
  | scope, .union branches output => by
    simp only [Plan.renumber, Plan.inline]
    exact (Plan.sends_inlineAll scope branches).bind fun branches =>
      sends_pure (by simp only [Plan.renumber])
  | scope, .view name output body temporary => by
    simp only [Plan.renumber, Plan.inline]
    exact (body.sends_inline scope).bind fun body => sends_pure (by simp only [Plan.renumber])
  | scope, .cteDefinition (.mk id child) => by
    simp only [Plan.renumber, CteDefinition.renumber, Plan.inline]
    exact (child.sends_inline scope).bind fun child =>
      sends_pure (by simp only [Plan.renumber, CteDefinition.renumber])
  | scope, .operator name children output => by
    simp only [Plan.renumber, Plan.inline]
    exact (Plan.sends_inlineAll scope children).bind fun children =>
      sends_pure (by simp only [Plan.renumber])
  | scope, .createTable name query replace => by
    simp only [Plan.renumber, Plan.inline]
    exact (query.sends_inline scope).bind fun query => sends_pure (by simp only [Plan.renumber])
  | scope, .insertTable table query mode => by
    simp only [Plan.renumber, Plan.inline]
    exact (query.sends_inline scope).bind fun query => sends_pure (by simp only [Plan.renumber])
  | scope, .insertDirectory location query overwrite => by
    simp only [Plan.renumber, Plan.inline]
    exact (query.sends_inline scope).bind fun query => sends_pure (by simp only [Plan.renumber])
  | scope, .merge target source matched notMatched => by
    simp only [Plan.renumber, Plan.inline]
    refine (target.sends_inline scope).bind fun _ => (source.sends_inline scope).bind fun _ => ?_
    exact sends_pure (by simp only [Plan.renumber])
  -- below these nothing is written out
  | scope, .relation .. | scope, .localRelation .. | scope, .oneRow | scope, .cached ..
  | scope, .commandResult .. | scope, .alterView .. | scope, .createView ..
  | scope, .saveSource .. => by
    simp only [Plan.renumber, Plan.inline]
    exact sends_pure (by simp only [Plan.renumber])

/-- Plans under new numbers are written out as before. -/
theorem Plan.sends_inlineAll : ∀ (scope : CteScope) (plans : List Plan),
    Sends (ExtractionError.renumber r) (List.map (Plan.renumber r)) (Plan.inlineAll scope plans)
      (Plan.inlineAll (scope.renumber r) (plans.map (Plan.renumber r)))
  | _, [] => sends_pure rfl
  | scope, plan :: rest =>
    (plan.sends_inline scope).bind fun _ =>
      (Plan.sends_inlineAll scope rest).bind fun _ => sends_pure rfl

/-- Definitions come into scope under the new numbers. -/
theorem CteDefinition.sends_extend : ∀ (scope : CteScope) (definitions : List CteDefinition),
    Sends (ExtractionError.renumber r) (CteScope.renumber r)
      (CteDefinition.extend scope definitions)
      (CteDefinition.extend (scope.renumber r) (definitions.map (CteDefinition.renumber r)))
  | _, [] => sends_pure rfl
  | scope, .mk id child :: rest => by
    simp only [List.map_cons, CteDefinition.renumber, CteDefinition.extend]
    exact (child.sends_inline scope).bind fun body =>
      CteDefinition.sends_extend ((id, body) :: scope) rest

/-- Entries of a select list under new numbers are written out as before. -/
theorem SelectItem.sends_inlineAll : ∀ (scope : CteScope) (items : List SelectItem),
    Sends (ExtractionError.renumber r) (List.map (SelectItem.renumber r))
      (SelectItem.inlineAll scope items)
      (SelectItem.inlineAll (scope.renumber r) (items.map (SelectItem.renumber r)))
  | _, [] => sends_pure rfl
  | scope, .column a :: rest => by
    simp only [List.map_cons, SelectItem.renumber, SelectItem.inlineAll]
    exact (SelectItem.sends_inlineAll scope rest).bind fun _ =>
      sends_pure (by simp only [List.map_cons, SelectItem.renumber])
  | scope, .aliased (.mk child name id) :: rest => by
    simp only [List.map_cons, SelectItem.renumber, Alias.renumber, SelectItem.inlineAll]
    refine (child.sends_inline scope).bind fun _ => ?_
    exact (SelectItem.sends_inlineAll scope rest).bind fun _ =>
      sends_pure (by simp only [List.map_cons, SelectItem.renumber, Alias.renumber])

/-- An expression under new numbers is written out as before. -/
theorem Expr.sends_inline : ∀ (scope : CteScope) (e : Expr),
    Sends (ExtractionError.renumber r) (Expr.renumber r) (e.inline scope)
      ((e.renumber r).inline (scope.renumber r))
  | scope, .column _ | scope, .literal _ => by
    simp only [Expr.renumber, Expr.inline]
    exact sends_pure (by simp only [Expr.renumber])
  | scope, .call name args => by
    simp only [Expr.renumber, Expr.inline]
    exact (Expr.sends_inlineAll scope args).bind fun _ => sends_pure (by simp only [Expr.renumber])
  | scope, .count args distinct => by
    simp only [Expr.renumber, Expr.inline]
    exact (Expr.sends_inlineAll scope args).bind fun _ => sends_pure (by simp only [Expr.renumber])
  | scope, .subquery plan => by
    simp only [Expr.renumber, Expr.inline]
    exact (plan.sends_inline scope).bind fun _ => sends_pure (by simp only [Expr.renumber])
  | scope, .windowed function partition order => by
    simp only [Expr.renumber, Expr.inline]
    refine (function.sends_inline scope).bind fun _ => ?_
    refine (Expr.sends_inlineAll scope partition).bind fun _ => ?_
    exact (Expr.sends_inlineAll scope order).bind fun _ => sends_pure (by simp only [Expr.renumber])
  | scope, .aliased (.mk child name id) => by
    simp only [Expr.renumber, Alias.renumber, Expr.inline]
    exact (child.sends_inline scope).bind fun _ =>
      sends_pure (by simp only [Expr.renumber, Alias.renumber])

/-- Expressions under new numbers are written out as before. -/
theorem Expr.sends_inlineAll : ∀ (scope : CteScope) (es : List Expr),
    Sends (ExtractionError.renumber r) (List.map (Expr.renumber r)) (Expr.inlineAll scope es)
      (Expr.inlineAll (scope.renumber r) (es.map (Expr.renumber r)))
  | _, [] => sends_pure rfl
  | scope, e :: rest =>
    (e.sends_inline scope).bind fun _ =>
      (Expr.sends_inlineAll scope rest).bind fun _ => sends_pure rfl

end

namespace Lineage

open LineageMap

/-! ## Operators -/

/-- The plans below are traced under the new numbers as they are under the old. -/
def RenumbersBelow (below below' : Below) : Prop :=
  ∀ plan request, Renumbers r (below plan request) (below' (plan.renumber r) (request.renumber r))

variable {r} {below below' : Below}

/-- Children under new numbers are traced as before. -/
theorem sends_ofChildren (h : RenumbersBelow r below below') (children : List Plan)
    (request : LineageMap) : Renumbers r (ofChildren below children request)
      (ofChildren below' (children.map (Plan.renumber r)) (request.renumber r)) :=
  (sends_mapM fun child _ => h child request).bind fun maps =>
    sends_pure (renumber_mergeAll r maps)

/-- A named expression under new numbers has its sources under new numbers. -/
theorem sends_aliasSources (h : RenumbersBelow r below below') (a : Alias) :
    Sends (ExtractionError.renumber r) (AttributeSet.renumber r) (aliasSources below a)
      (aliasSources below' (a.renumber r)) := by
  have hcounted : ∀ sources : AttributeSet,
      Sends (ExtractionError.renumber r) (AttributeSet.renumber r)
        (pure (if a.child.countsRows then sources.insert (a.toAttribute.withName countName)
          else sources))
        (pure (if a.child.countsRows then
          (sources.renumber r).insert ((a.toAttribute.renumber r).withName countName)
          else sources.renumber r)) := by
    intro sources
    refine sends_pure ?_
    rw [apply_ite (AttributeSet.renumber r), AttributeSet.renumber_insert,
      Attribute.renumber_withName]
  rw [aliasSources, aliasSources, Alias.child_renumber, Expr.references_renumber,
    AttributeSet.isEmpty_renumber, Expr.subqueries_renumber, Expr.countsRows_renumber,
    Alias.toAttribute_renumber]
  split
  · refine (sends_mapM (g := LineageMap.renumber r) fun plan _ => h plan ∅).bind fun nested => ?_
    refine (sends_pure ?_).bind hcounted
    rw [AttributeSet.renumber_ofList, ← renumber_mergeAll, values_renumber, List.flatMap_map,
      List.map_map, List.map_flatMap, List.map_flatMap]
    simp only [AttributeSet.attrs_renumber, List.map_map, Function.comp_def,
      Attribute.renumber_markSubquery]
  · exact hcounted a.child.references

/-- An entry under new numbers has its sources under new numbers. -/
theorem sends_itemSources (h : RenumbersBelow r below below') (item : SelectItem) :
    Sends (ExtractionError.renumber r) (renumberEntry r) (itemSources below item)
      (itemSources below' (item.renumber r)) := by
  cases item with
  | column a =>
    rw [SelectItem.renumber]
    exact sends_pure rfl
  | aliased a =>
    rw [SelectItem.renumber, itemSources, itemSources, Alias.toAttribute_renumber]
    exact (sends_aliasSources h a).bind fun sources => sends_pure rfl

/-- A select list under new numbers is traced as before. -/
theorem sends_ofSelectList (h : RenumbersBelow r below below') (items : List SelectItem) :
    Renumbers r (ofSelectList below items)
      (ofSelectList below' (items.map (SelectItem.renumber r))) :=
  (sends_mapM fun item _ => sends_itemSources h item).bind fun entries =>
    sends_pure (renumber_ofList r entries)

/-- An expansion under new numbers has the same columns under new numbers. -/
theorem renumber_ofProjections (projections : List (List Expr)) (output : List Attribute) :
    (ofProjections projections output).renumber r =
      ofProjections (projections.map (Expr.renumberRow r)) (output.map (Attribute.renumber r)) := by
  have hrows : projections.map (Expr.renumberRow r) =
      projections.map (List.map (Expr.renumber r)) :=
    List.map_congr_left fun row _ => Expr.renumberRow_eq_map r row
  rw [ofProjections, renumber_ofList, ofProjections, hrows, columnsOf_map, List.zip_map,
    List.map_map, List.map_map]
  refine congrArg OrderedMap.ofList (List.map_congr_left fun pair _ => ?_)
  simp only [Function.comp_apply, renumberEntry, Prod.map, AttributeSet.renumber_ofList,
    List.map_flatMap, List.flatMap_map, Expr.references_renumber, AttributeSet.attrs_renumber]

/-- Window functions under new numbers have the same columns under new numbers. -/
theorem renumber_ofWindowFunctions (functions : List Alias) :
    (ofWindowFunctions functions).renumber r =
      ofWindowFunctions (functions.map (Alias.renumber r)) := by
  rw [ofWindowFunctions, renumber_ofList, ofWindowFunctions, List.map_map, List.map_map]
  refine congrArg OrderedMap.ofList (List.map_congr_left fun a _ => ?_)
  simp only [Function.comp_apply, renumberEntry, Alias.toAttribute_renumber, Alias.child_renumber,
    Expr.references_renumber]

/-- A window under new numbers makes the same request under new numbers. -/
theorem renumber_windowRequest (functions : List Alias) (input : List Attribute)
    (parent : LineageMap) : (windowRequest functions input parent).renumber r =
      windowRequest (functions.map (Alias.renumber r)) (input.map (Attribute.renumber r))
        (parent.renumber r) := by
  simp only [windowRequest, isEmpty_renumber]
  split
  · rw [renumber_insertAll, renumber_identity, ← renumber_ofWindowFunctions, entries_renumber]
  · refine renumber_mapValues r fun key sources => ?_
    simp only [← renumber_ofWindowFunctions, Attribute.id_renumber, byId?_renumber]
    cases (ofWindowFunctions functions).byId? key.id with
    | some found => rfl
    | none =>
      simp only [Option.map_none, AttributeSet.renumber_ofList, List.map_flatMap,
        AttributeSet.attrs_renumber, List.flatMap_map]
      refine congrArg AttributeSet.ofList (congrArg (List.flatMap · sources.attrs) ?_)
      funext a
      rw [Attribute.id_renumber, byId?_renumber]
      cases (ofWindowFunctions functions).byId? a.id <;> rfl

/-- Branches are put side by side under new numbers as before. -/
theorem renumber_ofBranches (output : List Attribute) (branches : List LineageMap) :
    (ofBranches output branches).renumber r =
      ofBranches (output.map (Attribute.renumber r)) (branches.map (LineageMap.renumber r)) := by
  cases output with
  | nil => exact renumber_mergeAll r branches
  | cons a output =>
    cases branches with
    | nil => rfl
    | cons first rest =>
      have hcolumns : ∀ columns : List AttributeSet,
          (rest.foldl (fun columns branch =>
            List.zipWith (fun s t => s ∪ t) columns branch.values) columns).map
              (AttributeSet.renumber r) =
          (rest.map (LineageMap.renumber r)).foldl (fun columns branch =>
            List.zipWith (fun s t => s ∪ t) columns branch.values)
              (columns.map (AttributeSet.renumber r)) := by
        induction rest with
        | nil => exact fun _ => rfl
        | cons branch rest ih =>
          intro columns
          rw [List.foldl_cons, ih, List.map_cons, List.foldl_cons, values_renumber,
            List.zipWith_map, List.map_zipWith]
          simp only [AttributeSet.renumber_union]
      simp only [ofBranches, renumber_ofList, List.map_cons, values_renumber, ← hcolumns]
      rw [← List.map_cons, List.zip_map]
      rfl

/-- A single row answers under new numbers as before. -/
theorem renumber_ofOneRow (parent : LineageMap) :
    (ofOneRow parent).renumber r = ofOneRow (parent.renumber r) := by
  refine renumber_mapValues r fun key sources => ?_
  rw [AttributeSet.renumber_ofList, AttributeSet.attrs_renumber, List.map_map, List.map_map]
  exact congrArg AttributeSet.ofList (List.map_congr_left fun a _ =>
    apply_ite (Attribute.renumber r) _ a.dropLastSegment a)

/-- A new view shows the same names for what has new numbers. -/
theorem sends_ofNewView (view : String) (columns : List Label) (lineage : LineageMap) :
    Renumbers r (ofNewView view columns lineage) (ofNewView view columns (lineage.renumber r)) := by
  rw [ofNewView, ofNewView, size_renumber]
  split
  · exact sends_pure (renumber_rename r (fun _ => rfl) lineage)
  split
  · exact sends_fail _
  · refine sends_pure ?_
    rw [renumber_ofList, entries_renumber, List.zip_map_left, List.map_map, List.map_map]
    rfl

/-- What is assigned is collected under new numbers as before. -/
theorem renumber_ofAssignments (assignments : List Assignment) :
    (ofAssignments assignments).renumber r =
      ofAssignments (assignments.map (Assignment.renumber r)) := by
  have hfold : ∀ request : LineageMap, LineageMap.renumber r (assignments.foldl (fun request a =>
      request.insert a.key (request.sourcesOf a.key ∪ a.value.references)) request) =
      (assignments.map (Assignment.renumber r)).foldl (fun request a =>
        request.insert a.key (request.sourcesOf a.key ∪ a.value.references))
          (request.renumber r) := by
    induction assignments with
    | nil => exact fun _ => rfl
    | cons a rest ih =>
      intro request
      rw [List.foldl_cons, ih, List.map_cons, List.foldl_cons, renumber_insert,
        AttributeSet.renumber_union, Assignment.key_renumber, Assignment.value_renumber,
        sourcesOf_renumber, Expr.references_renumber]
  exact hfold ∅

/-- The sides of a merge are paired under new numbers as before. -/
theorem sends_ofMerge (target source : LineageMap) :
    Renumbers r (ofMerge target source) (ofMerge (target.renumber r) (source.renumber r)) := by
  have hwritten : (target.renumber r).values.flatMap AttributeSet.attrs =
      (target.values.flatMap AttributeSet.attrs).map (Attribute.renumber r) := by
    rw [values_renumber, List.flatMap_map, List.map_flatMap]
    rfl
  have hnamed : ((target.values.flatMap AttributeSet.attrs).map (Attribute.renumber r)).all
      Attribute.isNamed = (target.values.flatMap AttributeSet.attrs).all Attribute.isNamed :=
    List.all_map
  rw [ofMerge, ofMerge, hwritten, hnamed]
  split
  · refine sends_pure ?_
    have hpairs : ∀ (keys : List Attribute) (values : List AttributeSet),
        (keys.zip values).map (renumberEntry r) =
          (keys.map (Attribute.renumber r)).zip (values.map (AttributeSet.renumber r)) :=
      fun _ _ => (List.zip_map ..).symm
    rw [renumber_ofList, values_renumber, hpairs, List.map_map, List.map_map]
    rfl
  · exact sends_fail _

/-! ## Plans -/

/-- One level of a plan is traced under the new numbers as it is under the old, where the plans
below are. -/
theorem sends_step (settings : Settings) (h : RenumbersBelow r below below') (plan : Plan)
    (parent : LineageMap) : Renumbers r (step settings below plan parent)
      (step settings below' (plan.renumber r) (parent.renumber r)) := by
  have hselect : ∀ (items : List SelectItem) (child : Plan),
      Renumbers r
        (ofSelectList below items >>= fun own => parent.join own >>= ofChildren below [child])
        (ofSelectList below' (items.map (SelectItem.renumber r)) >>= fun own =>
          (parent.renumber r).join own >>= ofChildren below' [child.renumber r]) :=
    fun items child => (sends_ofSelectList h items).bind fun own =>
      (sends_join r parent own).bind fun request => sends_ofChildren h [child] request
  have hrename : ∀ (query : Plan) {name : Attribute → Label},
      (∀ a : Attribute, name (a.renumber r) = name a) →
      Renumbers r (below query parent >>= fun lineage => pure (lineage.rename name))
        (below' (query.renumber r) (parent.renumber r) >>= fun lineage =>
          pure (lineage.rename name)) :=
    fun query _ hname => (h query parent).bind fun lineage =>
      sends_pure (renumber_rename r hname lineage)
  cases plan with
  | project items child =>
    rw [Plan.renumber]
    exact hselect items child
  | aggregate grouping items child =>
    rw [Plan.renumber]
    exact hselect items child
  | window functions child partition order =>
    rw [Plan.renumber, step, step, stepAt, stepAt, Plan.output_renumber, ← renumber_windowRequest]
    exact sends_ofChildren h [child] _
  | expand projections output child =>
    rw [Plan.renumber, step, step, stepAt, stepAt, ← renumber_ofProjections]
    exact (sends_join r parent _).bind fun request => sends_ofChildren h [child] request
  | join left right type condition =>
    rw [Plan.renumber, step, step, stepAt, stepAt]
    split
    · exact sends_ofChildren h [left, right] parent
    · exact h left parent
  | union branches output =>
    rw [Plan.renumber, step, step, stepAt, stepAt]
    refine (sends_mapM fun branch _ => h branch ∅).bind fun answers => ?_
    rw [← renumber_ofBranches]
    exact sends_join r parent _
  | relation output table =>
    rw [Plan.renumber]
    cases table <;> exact sends_ofRelation r parent output _
  | localRelation output rows =>
    rw [Plan.renumber]
    exact sends_ofRelation r parent output _
  | oneRow =>
    rw [Plan.renumber]
    exact sends_pure (renumber_ofOneRow parent)
  | view name output body temporary =>
    rw [Plan.renumber, step, step, stepAt, stepAt]
    split
    · exact sends_ofRelation r parent output _
    · exact (h body ∅).bind fun lineage => sends_ofRelationPlan r parent output lineage
  | cteDefinition definition =>
    rw [Plan.renumber, step, step, stepAt, stepAt]
    refine sends_note_bind _ _ ?_
    rw [CteDefinition.child_renumber]
    exact sends_ofChildren h [definition.child] parent
  | cteReference id output =>
    rw [Plan.renumber]
    exact sends_pure rfl
  | withCte definitions body =>
    -- the clause is written out first, and that has the new numbers throughout
    have hinline := Plan.sends_inline r [] (.withCte definitions body)
    rw [Plan.renumber] at hinline ⊢
    exact hinline.bind fun plan => h plan parent
  | cached output physical table =>
    have hlink := PhysicalNode.findLink_renumber r [physical]
    rw [List.map_cons, List.map_nil] at hlink
    rw [Plan.renumber, step, step, stepAt, stepAt, hlink]
    cases PhysicalNode.findLink [physical] with
    | none => exact sends_ofRelation r parent output _
    | some logical =>
      exact (h logical ∅).bind fun lineage => sends_ofRelationPlan r parent output lineage
  | operator name children output =>
    rw [Plan.renumber, step, step, stepAt, stepAt, List.isEmpty_map]
    split
    · exact sends_pure rfl
    · exact sends_note_bind _ _ (sends_ofChildren h children parent)
  | commandResult output command =>
    rw [Plan.renumber]
    exact h command parent
  | alterView name query =>
    rw [Plan.renumber]
    exact hrename query fun _ => rfl
  | createView name query type columns =>
    rw [Plan.renumber, step, step, stepAt, stepAt]
    split
    · exact sends_note_bind _ _ (sends_pure rfl)
    · exact (h query parent).bind fun lineage => sends_ofNewView _ columns lineage
  | createTable name query replace =>
    rw [Plan.renumber]
    exact hrename query fun _ => rfl
  | insertTable table query mode =>
    rw [Plan.renumber]
    cases table with
    | none => exact sends_fail _
    | some table => exact hrename query fun _ => rfl
  | insertDirectory location query overwrite =>
    simp only [Plan.renumber, step, stepAt]
    split
    · exact sends_fail _
    · exact sends_fail _
    · exact hrename query fun _ => rfl
  | saveSource query provider =>
    rw [Plan.renumber]
    exact h query parent
  | merge target source matched notMatched =>
    have hrequest : LineageMap.renumber r
        (ofAssignments ((matched ++ notMatched).flatMap MergeAction.assignments)) =
        ofAssignments ((matched.map (MergeAction.renumber r) ++
          notMatched.map (MergeAction.renumber r)).flatMap MergeAction.assignments) := by
      rw [renumber_ofAssignments, ← List.map_append, List.map_flatMap, List.flatMap_map]
      simp only [MergeAction.assignments_renumber]
    simp only [Plan.renumber, step, stepAt, ← hrequest, keys_renumber, ← renumber_identity]
    refine (h target _).bind fun targetLineage => ?_
    exact (h source _).bind fun sourceLineage => sends_ofMerge targetLineage sourceLineage

/-- A plan is traced under the new numbers as it is under the old, however deep tracing may go. -/
theorem sends_extractWithin (settings : Settings) (levels : Nat) :
    RenumbersBelow r (extractWithin settings levels) (extractWithin settings levels) := by
  induction levels with
  | zero => exact fun _ _ => sends_fail _
  | succ levels ih => exact fun plan parent => sends_step settings ih plan parent

end Lineage

/-- Only the equality of identities matters: under other identities a plan gives the same lineage of
the columns that now have them, or fails with the same error, and its record is the same. -/
theorem Plan.extract_renumber (column : Int ↪ Int) (settings : Settings) (plan : Plan)
    (request : LineageMap) :
    ((plan.renumber (.ofColumns column)).extract settings
        (request.renumber (.ofColumns column))).result =
      (plan.extract settings request).result.map (LineageMap.renumber (.ofColumns column)) ∧
    ((plan.renumber (.ofColumns column)).record settings).result =
      (plan.record settings).result := by
  have hextract : ∀ request : LineageMap,
      ((plan.renumber (.ofColumns column)).extract settings
        (request.renumber (.ofColumns column))).result =
      (plan.extract settings request).result.map (LineageMap.renumber (.ofColumns column)) := by
    intro request
    have hsends : Renumbers (.ofColumns column) _ _ :=
      Lineage.sends_extractWithin settings (settings.maxPlanDepth + 1) plan request
    rw [Renumbers, Sends, ExtractionError.renumber_ofColumns, ← Lineage.extract_eq,
      ← Lineage.extract_eq] at hsends
    refine Eq.trans hsends ?_
    cases (plan.extract settings request).result <;> rfl
  refine ⟨hextract request, ?_⟩
  have hempty := hextract ∅
  rw [LineageMap.renumber_empty] at hempty
  rw [Plan.record, Plan.record, result_bind, result_bind, hempty]
  cases (plan.extract settings ∅).result with
  | ok lineage => exact lineage.record_renumber _
  | error e => rfl

end ColumnTrace
