import ColumnTrace.Planner.Query
import ColumnTrace.Proofs.Planner.RenumberedExpressions

/-!
# Queries under other numbers

The relations of a `FROM` clause, set operations and `WITH` clauses are planned to plans that differ
in their numbers only, where the queries in them are. By induction on the height of trees every tier
plans so (`Tier.renumbers_upTo`), and by induction on how many stored queries may be open so are the
texts of views and stored results (`Planner.renumbersStored_storedQuery`): while a view is expanded
the named queries of the statement are out of scope, and afterwards they are back.
-/

set_option autoImplicit false

namespace ColumnTrace

variable {r : Renumbering}

/-- Stored queries are planned to plans that differ in their numbers only. -/
def RenumbersStored (r : Renumbering) (stored : String → Planner Plan) : Prop :=
  ∀ sql, Planner.Renumbers r (Plan.renumber r) (stored sql) (stored sql)

/-- The relation of a `FROM` clause under the new numbers. -/
def Planned.renumber (r : Renumbering) (planned : Planned) : Planned :=
  ⟨planned.plan.renumber r, planned.source.renumber r⟩

@[simp]
theorem Plan.wrap_renumber (name : String) (plan : Plan) :
    (plan.wrap name).renumber r = (plan.renumber r).wrap name := by
  rw [wrap, wrap, Plan.renumber, Plan.output_renumber, List.map_singleton]

namespace Planner

/-! ## Relations -/

/-- Columns are renamed under new numbers as before. -/
theorem renumbers_renameColumns (names : List Label) (plan : Plan) :
    Renumbers r (Plan.renumber r) (renameColumns names plan)
      (renameColumns names (plan.renumber r)) := by
  rw [renameColumns, renameColumns, Plan.output_renumber, List.length_map]
  split
  · exact renumbers_pure rfl
  split
  · exact renumbers_fail _
  · have hpairs : (plan.output.map (Attribute.renumber r)).zip names =
        (plan.output.zip names).map (Prod.map (Attribute.renumber r) id) :=
      List.zip_map_left ..
    rw [hpairs]
    refine (renumbers_mapM (g := SelectItem.renumber r) fun pair _ => ?_).bind fun items => ?_
    · refine renumbers_freshId.bind fun id => renumbers_pure ?_
      rw [SelectItem.renumber, Alias.renumber, Expr.renumber]
      rfl
    · exact renumbers_pure (by rw [Plan.renumber])

section
variable {stored : String → Planner Plan} (hstored : RenumbersStored r stored)
include hstored

/-- A name is expanded under new numbers as before. -/
theorem renumbers_expandStored (recursive : String → PlanningError) (name sql : String) :
    Renumbers r (Plan.renumber r) (expandStored stored recursive name sql)
      (expandStored stored recursive name sql) := by
  refine renumbers_context.bind fun context => ?_
  have hexpanding : (context.renumber r).expanding = context.expanding := rfl
  rw [hexpanding]
  split
  · exact renumbers_fail_bind _ _ _
  · exact renumbers_within (fun _ => rfl) (hstored sql)

/-- A view is planned under new numbers as before. -/
theorem renumbers_view (name : TableName) (definition : ViewDefinition) :
    Renumbers r (Plan.renumber r) (view stored name definition) (view stored name definition) := by
  refine (renumbers_expandStored hstored _ _ _).bind fun body => ?_
  have hnames : (body.output.map (Attribute.renumber r)).map Attribute.name =
      body.output.map Attribute.name := List.map_map
  simp only [Plan.output_renumber, hnames, List.length_map]
  generalize (if definition.columns.isEmpty then _ else _) = names
  split
  · exact renumbers_fail_bind _ _ _
  · refine (renumbers_freshColumns _).bind fun columns => renumbers_pure ?_
    rw [Plan.renumber]

/-- A stored result is planned under new numbers as before. -/
theorem renumbers_cached (name sql : String) :
    Renumbers r (Plan.renumber r) (cached stored name sql) (cached stored name sql) := by
  refine (renumbers_expandStored hstored _ _ _).bind fun query => ?_
  rw [Plan.output_renumber]
  refine (renumbers_freshLike _).bind fun columns => renumbers_pure ?_
  simp only [Plan.renumber, storedScan, PhysicalNode.renumber, List.map_cons, List.map_nil,
    Plan.renumberIfThere]

/-- A table is read under new numbers as before. -/
theorem renumbers_resolveTable (table : TableName) :
    Renumbers r (Plan.renumber r) (resolveTable stored table) (resolveTable stored table) := by
  have hlookup : ∀ {rest rest' : Option CteDefinition → Planner Plan},
      (∀ definition, Renumbers r (Plan.renumber r) (rest definition)
        (rest' (definition.map (CteDefinition.renumber r)))) →
      Renumbers r (Plan.renumber r)
        (if table.database.isSome then pure none >>= rest
          else findCte? table.qualifiedName >>= rest)
        (if table.database.isSome then pure none >>= rest'
          else findCte? table.qualifiedName >>= rest') := by
    intro rest rest' hrest
    split
    · exact (renumbers_pure (f := Option.map (CteDefinition.renumber r)) rfl).bind hrest
    · exact (renumbers_findCte? _).bind hrest
  refine hlookup fun definition => ?_
  cases definition with
  | some definition =>
    simp only [Option.map_some, CteDefinition.id_renumber, CteDefinition.child_renumber,
      Plan.output_renumber]
    exact (renumbers_freshLike _).bind fun columns => renumbers_pure (by rw [Plan.renumber])
  | none =>
    refine renumbers_catalog.bind fun catalog => ?_
    dsimp only [id]
    split
    · exact renumbers_cached hstored _ _
    · exact renumbers_view hstored _ _
    · exact (renumbers_freshColumns _).bind fun columns => renumbers_pure (by rw [Plan.renumber])

/-- A table is planned under new numbers as before. -/
theorem renumbers_table (node : Sql.Node) :
    Renumbers r (Planned.renumber r) (table stored node) (table stored node) := by
  refine (renumbers_resolveTable hstored _).bind fun plan => renumbers_ofExcept_bind fun names => ?_
  refine (renumbers_renameColumns names plan).bind fun renamed => renumbers_pure ?_
  rw [Planned.renumber, Plan.output_renumber]
  rfl

end

/-- Rows that are written out are planned under new numbers as before. -/
theorem renumbers_values (rows naming : Sql.Node) :
    Renumbers r (Planned.renumber r) (values rows naming) (values rows naming) := by
  refine renumbers_ofExcept_bind fun rows => ?_
  refine (renumbers_mapM_self (g := id) fun row _ => renumbers_ofExcept_self _).bind fun first => ?_
  rw [List.map_id]
  refine renumbers_ofExcept_bind fun given => ?_
  dsimp only
  generalize (if given.isEmpty then _ else _) = names
  split
  · exact renumbers_fail_bind _ _ _
  · refine (renumbers_freshColumns _).bind fun output => ?_
    refine (renumbers_mapM_self (g := id) fun row _ => ?_).bind fun texts => renumbers_pure ?_
    · refine renumbers_ofExcept_bind fun items => ?_
      have htext : ∀ value : Sql.Value, Renumbers r id (ofExcept value.toNode >>= write)
          (ofExcept value.toNode >>= write) := fun value =>
        renumbers_ofExcept_bind fun node => renumbers_write node
      have hrow := renumbers_mapM_self fun value (_ : value ∈ items) => htext value
      rwa [List.map_id_fun] at hrow
    · rw [List.map_id, Planned.renumber, Plan.renumber]
      rfl

/-- An unknown table is planned under new numbers as before. -/
theorem renumbers_inferred (node : Sql.Node) (columns : List Label) :
    Renumbers r (Planned.renumber r) (inferred node columns) (inferred node columns) := by
  refine (renumbers_note _).bind fun _ => (renumbers_freshColumns _).bind fun output => ?_
  refine renumbers_pure ?_
  rw [Planned.renumber, Plan.renumber]
  rfl

/-- Whether a table is unknown does not depend on numbers. -/
theorem renumbers_isUnknownTable (node : Sql.Node) :
    Renumbers r id (isUnknownTable node) (isUnknownTable node) := by
  rw [isUnknownTable]
  split
  · exact renumbers_pure rfl
  · refine (renumbers_findCte? _).bind fun found => ?_
    rw [Option.isSome_map]
    split
    · exact renumbers_pure rfl
    · exact renumbers_catalog.bind fun _ => renumbers_pure rfl

/-! ## Terms that are planned and terms that are not known -/

/-- As many relations are unknown under new numbers. -/
theorem countP_isRight_renumber (found : List (Planned ⊕ Sql.Node)) :
    (found.map (Sum.map (Planned.renumber r) id)).countP Sum.isRight =
      found.countP Sum.isRight := by
  rw [List.countP_map]
  refine List.countP_congr fun entry _ => ?_
  cases entry <;> rfl

/-- Known relations provide the same names under new numbers. -/
theorem providedNames_renumber (found : List (Planned ⊕ Sql.Node)) :
    ((found.map (Sum.map (Planned.renumber r) id)).filterMap Sum.getLeft?).flatMap
        (fun p => p.source.output.map Attribute.name) =
      (found.filterMap Sum.getLeft?).flatMap fun p => p.source.output.map Attribute.name := by
  have hleft : Sum.getLeft? ∘ Sum.map (Planned.renumber r) id =
      fun entry : Planned ⊕ Sql.Node => entry.getLeft?.map (Planned.renumber r) := by
    funext entry
    cases entry <;> rfl
  rw [List.filterMap_map, hleft, ← List.map_filterMap, List.flatMap_map]
  refine congrArg (List.flatMap · _) (funext fun p => ?_)
  show (p.source.output.map (Attribute.renumber r)).map Attribute.name = _
  rw [List.map_map]
  rfl

section
variable {stored : String → Planner Plan} {query : Scope → Sql.Node → Planner Plan}
variable (hstored : RenumbersStored r stored) (hquery : RenumbersQueries r query) (outer : Scope)
include hstored hquery

/-- A relation of a `FROM` clause is planned under new numbers as before. -/
theorem renumbers_source (term : Sql.Node) :
    Renumbers r (Planned.renumber r) (source stored query outer term)
      (source stored query (outer.renumber r) term) := by
  rw [source, source]
  split
  · exact renumbers_table hstored term
  split
  · exact renumbers_values term term
  split
  · refine renumbers_ofExcept_bind fun inner => ?_
    split
    · exact renumbers_values inner term
    · refine (hquery outer inner).bind fun child => renumbers_ofExcept_bind fun names => ?_
      refine (renumbers_renameColumns names child).bind fun renamed => renumbers_pure ?_
      rw [Planned.renumber, Plan.output_renumber, Plan.wrap_renumber]
      rfl
  · exact renumbers_fail _

/-- A relation is known or unknown under new numbers as before. -/
theorem renumbers_knownOrUnknown (term : Sql.Value) :
    Renumbers r (Sum.map (Planned.renumber r) id) (knownOrUnknown stored query outer term)
      (knownOrUnknown stored query (outer.renumber r) term) := by
  refine renumbers_ofExcept_bind fun node =>
    (renumbers_isUnknownTable node).bind fun unknown => ?_
  dsimp only [id]
  split
  · exact renumbers_pure rfl
  · exact (renumbers_source hstored hquery outer node).bind fun planned => renumbers_pure rfl

/-- The relations of a `FROM` clause are planned under new numbers as before. -/
theorem renumbers_relations (select : Sql.Node) (terms : List Sql.Value) :
    Renumbers r (List.map (Planned.renumber r)) (relations stored query outer select terms)
      (relations stored query (outer.renumber r) select terms) := by
  refine (renumbers_mapM_self fun term _ =>
    renumbers_knownOrUnknown hstored hquery outer term).bind fun found => ?_
  refine renumbers_ofExcept_bind fun named => ?_
  dsimp only
  -- what is inferred of a table turns on names and on how many tables are not known
  rw [countP_isRight_renumber, providedNames_renumber]
  refine renumbers_mapM fun entry _ => ?_
  cases entry with
  | inl planned => exact renumbers_pure rfl
  | inr term =>
    refine Renumbers.bind ?_ fun columns => renumbers_inferred term columns
    exact renumbers_context.bind fun _ => renumbers_pure rfl

end

/-- The sources of a `FROM` clause put together, under the new numbers. -/
def renumberSource (r : Renumbering) (source : Plan × Frame) : Plan × Frame :=
  (source.1.renumber r, source.2.renumber r)

/-- A relation is joined under new numbers as before. -/
theorem joinNext_renumber (left : Plan × Frame) (join : Sql.Node × Planned) :
    joinNext (renumberSource r left) (join.1, join.2.renumber r) =
      (joinNext left join).map (renumberSource r) := by
  simp only [joinNext]
  cases join.1.joinType with
  | error e => rfl
  | ok type =>
    cases join.1.usingColumns with
    | error e => rfl
    | ok columns =>
      refine congrArg Except.ok ?_
      simp only [renumberSource, Planned.renumber, Frame.renumber, Plan.renumber,
        Expr.renumberIfThere, List.map_append]
      cases type.exposesRight <;> rfl

/-- Relations are joined under new numbers as before. -/
theorem foldlM_joinNext_renumber (joins : List (Sql.Node × Planned)) (left : Plan × Frame) :
    (joins.map (Prod.map id (Planned.renumber r))).foldlM joinNext (renumberSource r left) =
      (joins.foldlM joinNext left).map (renumberSource r) := by
  induction joins generalizing left with
  | nil => rfl
  | cons join rest ih =>
    have hnext : joinNext (renumberSource r left) (join.map id (Planned.renumber r)) =
        (joinNext left join).map (renumberSource r) := joinNext_renumber left join
    rw [List.map_cons, List.foldlM_cons, List.foldlM_cons, hnext]
    cases joinNext left join with
    | error e => rfl
    | ok source => exact ih source

section
variable {stored : String → Planner Plan} (hstored : RenumbersStored r stored)
include hstored

/-- A `FROM` clause is planned under new numbers as before. -/
theorem renumbers_fromClause {query : Scope → Sql.Node → Planner Plan}
    (hquery : RenumbersQueries r query) (outer : Scope) (select : Sql.Node) :
    Renumbers r (renumberSource r) (fromClause stored query outer select)
      (fromClause stored query (outer.renumber r) select) := by
  refine renumbers_ofExcept_bind fun term => renumbers_ofExcept_bind fun joins => ?_
  split
  · split
    · refine renumbers_pure ?_
      rw [renumberSource, Plan.renumber]
      rfl
    · exact renumbers_fail _
  · refine renumbers_ofExcept_bind fun joins => ?_
    refine (renumbers_relations hstored hquery outer select _).bind fun planned => ?_
    cases planned with
    | nil => exact renumbers_fail _
    | cons first rest =>
      refine renumbers_ofExcept ?_
      have hjoins : joins.zip (rest.map (Planned.renumber r)) =
          (joins.zip rest).map (Prod.map id (Planned.renumber r)) := List.zip_map_right ..
      rw [hjoins, ← foldlM_joinNext_renumber]
      rfl

end

end Planner

/-! ## Queries -/

/-- An operator without a rule of its own is put over a plan under new numbers as before. -/
@[simp]
theorem wrapIf_renumber (node : Sql.Node) (argument name : String) (plan : Plan) :
    (wrapIf node argument name plan).renumber r = wrapIf node argument name (plan.renumber r) := by
  rw [wrapIf, wrapIf]
  split
  · exact Plan.wrap_renumber name plan
  · rfl

/-- The modifiers of a query are put over a plan under new numbers as before. -/
@[simp]
theorem withModifiers_renumber (node : Sql.Node) (plan : Plan) :
    (withModifiers node plan).renumber r = withModifiers node (plan.renumber r) := by
  have hmodifiers : ∀ plan : Plan, withModifiers node plan =
      wrapIf node "limit" "GlobalLimit" (wrapIf node "order" "Sort" plan) := fun _ => rfl
  rw [hmodifiers, hmodifiers, wrapIf_renumber, wrapIf_renumber]

/-- A tier plans queries and expressions to plans and expressions that differ in their numbers only.
-/
structure Tier.Renumbers (r : Renumbering) (tier : Tier) : Prop where
  query : RenumbersQueries r tier.query
  resolve : tier.resolve.Renumbers r

namespace Planner

/-- A simple query is planned under new numbers as before. -/
theorem renumbers_select {stored : String → Planner Plan} (hstored : RenumbersStored r stored)
    {below : Tier} (hbelow : below.Renumbers r) (outer : Scope) (node : Sql.Node) :
    Renumbers r (Plan.renumber r) (select stored below outer node)
      (select stored below (outer.renumber r) node) := by
  refine (renumbers_fromClause hstored hbelow.query outer node).bind fun source => ?_
  obtain ⟨source, frame⟩ := source
  have hsource : wrapIf node "where" "Filter" (source.renumber r) =
      (wrapIf node "where" "Filter" source).renumber r := (wrapIf_renumber ..).symm
  refine renumbers_ofExcept_bind fun grouped => ?_
  dsimp only [renumberSource]
  rw [hsource]
  split
  · refine (hbelow.resolve.aggregate node (frame :: outer) _).bind fun plan =>
      renumbers_pure ?_
    simp only [withModifiers_renumber, wrapIf_renumber]
  · refine (hbelow.resolve.selectList (frame :: outer) node (some [])).bind fun projected =>
      renumbers_pure ?_
    obtain ⟨items, windows⟩ := projected
    have hfunctions : (Windows.renumber r windows).getD [] =
        (windows.getD []).map (Alias.renumber r) := by cases windows <;> rfl
    simp only [Prod.map, hfunctions, List.isEmpty_map, withModifiers_renumber, wrapIf_renumber,
      Plan.renumber]
    split
    · rw [wrapIf_renumber]
    · simp only [Plan.renumber, List.map_nil, wrapIf_renumber]

/-- Two queries are put together under new numbers as before. -/
theorem renumbers_setOperation {below : Tier} (hbelow : below.Renumbers r) (outer : Scope)
    (node : Sql.Node) :
    Renumbers r (Plan.renumber r) (setOperation below outer node)
      (setOperation below (outer.renumber r) node) := by
  have hmodified : ∀ (keepsDuplicates : Bool) (plan : Plan),
      (withModifiers node (if keepsDuplicates then plan else plan.wrap "Distinct")).renumber r =
        withModifiers node (if keepsDuplicates then plan.renumber r
          else (plan.renumber r).wrap "Distinct") := by
    intro keepsDuplicates plan
    rw [withModifiers_renumber]
    cases keepsDuplicates with
    | true => rfl
    | false => exact congrArg (withModifiers node) (Plan.wrap_renumber "Distinct" plan)
  refine renumbers_ofExcept_bind fun leftNode => (hbelow.query outer leftNode).bind fun left => ?_
  refine renumbers_ofExcept_bind fun rightNode =>
    (hbelow.query outer rightNode).bind fun right => ?_
  simp only [Plan.output_renumber, List.length_map]
  split
  · exact renumbers_fail_bind _ _ _
  split
  · refine renumbers_pure ?_
    rw [hmodified, Plan.renumber, Expr.renumberIfThere]
  split
  · refine renumbers_pure ?_
    rw [hmodified, Plan.renumber, Expr.renumberIfThere]
  · refine (renumbers_freshLike _).bind fun columns => renumbers_pure ?_
    rw [hmodified, Plan.renumber]
    rfl

/-- A named query is planned under new numbers as before. -/
theorem renumbers_cteDefinition {query : Scope → Sql.Node → Planner Plan}
    (hquery : RenumbersQueries r query) (cte : Sql.Node) :
    Renumbers r (Prod.map id (CteDefinition.renumber r)) (cteDefinition query cte)
      (cteDefinition query cte) := by
  refine renumbers_ofExcept_bind fun node => (hquery [] node).bind fun child => ?_
  refine renumbers_ofExcept_bind fun names => ?_
  refine (renumbers_renameColumns names child).bind fun renamed => ?_
  refine renumbers_freshCteId.bind fun id => renumbers_pure ?_
  rw [Prod.map, CteDefinition.renumber]
  rfl

section
variable {query : Scope → Sql.Node → Planner Plan} (hquery : RenumbersQueries r query)
variable {build build' : Planner Plan} (hbuild : Renumbers r (Plan.renumber r) build build')
include hquery hbuild

/-- Named queries come into scope under the new numbers, each for those after it. -/
theorem renumbers_withDefinitions (ctes : List Sql.Value) :
    Renumbers r (Prod.map (List.map (CteDefinition.renumber r)) (Plan.renumber r))
      (withDefinitions query build ctes) (withDefinitions query build' ctes) := by
  induction ctes with
  | nil =>
    rw [withDefinitions, withDefinitions]
    exact hbuild.bind fun plan => renumbers_pure rfl
  | cons cte rest ih =>
    rw [withDefinitions, withDefinitions]
    refine renumbers_ofExcept_bind fun node => (renumbers_cteDefinition hquery node).bind
      fun definition => ?_
    obtain ⟨name, definition⟩ := definition
    have hrest : Renumbers r (Prod.map (List.map (CteDefinition.renumber r)) (Plan.renumber r))
        (within (.scope name definition) (withDefinitions query build rest))
        (within (.scope name (definition.renumber r)) (withDefinitions query build' rest)) :=
      renumbers_within (fun _ => rfl) ih
    exact hrest.bind fun found => renumbers_pure rfl

/-- A query under a `WITH` clause is planned under new numbers as before. -/
theorem renumbers_withClause (node : Sql.Node) :
    Renumbers r (Plan.renumber r) (withClause query node build) (withClause query node build') := by
  refine renumbers_ofExcept_bind fun clause => ?_
  cases clause with
  | none => exact hbuild
  | some clause =>
    dsimp only
    split
    · exact renumbers_fail_bind _ _ _
    · refine renumbers_ofExcept_bind fun ctes => ?_
      rw [withScope_eq, withScope_eq]
      refine (renumbers_withDefinitions hquery hbuild ctes).bind fun found => renumbers_pure ?_
      rw [Plan.renumber]
      rfl

end

/-- A query is planned under new numbers as before, if the tier below does so. -/
theorem renumbersQueries_query {stored : String → Planner Plan}
    (hstored : RenumbersStored r stored) {below : Tier} (hbelow : below.Renumbers r) :
    RenumbersQueries r (query stored below) := by
  intro outer node
  rw [query, query]
  split
  · refine renumbers_ofExcept_bind fun inner => (hbelow.query outer inner).bind fun plan => ?_
    exact renumbers_pure (withModifiers_renumber node plan)
  split
  · exact renumbers_fail _
  · refine renumbers_withClause hbelow.query ?_ node
    split
    · exact renumbers_select hstored hbelow outer node
    · exact renumbers_setOperation hbelow outer node

end Planner

/-! ## Tiers and stored queries -/

/-- Every tier plans under new numbers as before. -/
theorem Tier.renumbers_upTo {stored : String → Planner Plan} (hstored : RenumbersStored r stored)
    (height : Nat) : (Tier.upTo stored height).Renumbers r := by
  induction height with
  | zero =>
    exact ⟨fun _ _ => Planner.renumbers_fail _,
      fun _ _ => Projecting.renumbers_lift (Planner.renumbers_fail _)⟩
  | succ height ih =>
    have hquery := Planner.renumbersQueries_query hstored ih
    exact ⟨hquery, Resolver.renumbers_step hquery ih.resolve⟩

/-- Stored queries are planned under new numbers as before. -/
theorem Planner.renumbersStored_storedQuery (open_ : Nat) :
    RenumbersStored r (storedQuery open_) := by
  induction open_ with
  | zero => exact fun sql => renumbers_fail _
  | succ open_ ih =>
    intro sql
    rw [storedQuery]
    refine renumbers_context.bind fun context => renumbers_ofExcept_bind fun node => ?_
    exact renumbers_within (fun _ => rfl) ((Tier.renumbers_upTo ih node.height).query [] node)

end ColumnTrace
