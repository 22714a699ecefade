import ColumnTrace.Planner.Query
import ColumnTrace.Proofs.MapEntries
import ColumnTrace.Proofs.Planner.SoundExpressions

/-!
# Planned queries

A planned query is sound among the rows of the queries around it, and its rows come from select
lists. The relations of a `FROM` clause are put together to a sound plan that gives exactly the
columns of the frame in which the query's names are resolved (`SourceIn`); a `WITH` clause brings
its queries into scope under numbers that no query in scope has (`ensures_withDefinitions`). By
induction on the height of trees every tier plans soundly (`Tier.isSound_upTo`), and by induction on
how many stored queries may be open so do the texts of views and stored results
(`Planner.plansStored_storedQuery`).
-/

set_option autoImplicit false

namespace ColumnTrace

variable {context : Context} {bound : Nat} {ctes : List (Int × Nat)} {outer : List Attribute}

/-- Stored queries are planned soundly, on their own. -/
def PlansStored (stored : String → Planner Plan) : Prop :=
  ∀ context bound sql, (stored sql).Ensures context bound (Plan.QueryIn [] [])

/-- A relation of a `FROM` clause is sound, and its names are resolved against its columns. -/
structure Planned.SoundIn (ctes : List (Int × Nat)) (outer : List Attribute) (p : Planned) :
    Prop where
  plan : p.plan.SoundIn ctes outer
  output : p.source.output = p.plan.output
  adds : p.plan.addsColumns = false

/-- Outside all `WITH` clauses no named query is in scope. -/
theorem Context.arities_eq_nil (h : context.ctes = []) : context.arities = [] := by
  rw [arities, h, List.map_nil]

namespace Context.NumbersBelow

/-- Without named queries in scope their numbers are below any bound. -/
theorem of_ctes (h : context.ctes = []) (bound : Nat) : context.NumbersBelow bound := by
  have harities := arities_eq_nil h
  exact ⟨by simp [harities], by simp [harities]⟩

/-- A named query in scope is found by its number. -/
theorem lookup_arities (hbelow : context.NumbersBelow bound) {name : String}
    {definition : CteDefinition} (h : context.ctes.lookup name = some definition) :
    context.arities.lookup definition.id = some definition.child.output.length := by
  obtain ⟨before, after, hctes, -⟩ := List.lookup_eq_some_iff.1 h
  refine (lookup_eq_some_iff_of_nodup hbelow.nodup).2 ?_
  simp [arities, hctes]

/-- A named query with a number from the bound on comes into scope. -/
theorem define (hbelow : context.NumbersBelow bound) {id : Nat} (hid : bound ≤ id) (name : String)
    (child : Plan) :
    { context with ctes := (name, .mk id child) :: context.ctes }.NumbersBelow (id + 1) := by
  have hfirst : (id : Int) ∉ context.arities.map Prod.fst := fun hmem => by
    have := hbelow.below _ hmem
    omega
  refine ⟨List.nodup_cons.2 ⟨hfirst, hbelow.nodup⟩, fun other hother => ?_⟩
  rcases List.mem_cons.1 hother with rfl | hother
  · show (id : Int) < _
    omega
  · have := hbelow.below other hother
    omega

end Context.NumbersBelow

namespace Plan

/-- A projection that only renames columns is a query over any sound plan. -/
theorem QueryIn.renamed {plan : Plan} (h : plan.SoundIn ctes outer) {items : List SelectItem}
    (hitems : ∀ item ∈ items, ∀ ctes rows, item.toExpr.FitsIn ctes rows plan.output) :
    (Plan.project items plan).QueryIn ctes outer :=
  .project h fun item hitem => (hitems item hitem ctes _).mono (List.subset_append_left _ _)

/-- An operator without a rule of its own leaves a query one, where it is there. -/
theorem QueryIn.wrapIf {plan : Plan} (h : plan.QueryIn ctes outer) (node : Sql.Node)
    (argument name : String) : (wrapIf node argument name plan).QueryIn ctes outer := by
  rw [ColumnTrace.wrapIf]
  split
  · exact h.wrap name
  · exact h

/-- The modifiers of a query leave it one. -/
theorem QueryIn.withModifiers {plan : Plan} (h : plan.QueryIn ctes outer) (node : Sql.Node) :
    (withModifiers node plan).QueryIn ctes outer :=
  (h.wrapIf node "order" "Sort").wrapIf node "limit" "GlobalLimit"

end Plan

namespace Planner

/-! ## Relations -/

/-- Columns that are renamed are the plan itself or a projection over it. -/
theorem ensures_renameColumns {P : Plan → Prop} (names : List Label) {plan : Plan} (hself : P plan)
    (hproject : ∀ items : List SelectItem,
      (∀ item ∈ items, ∀ ctes rows, item.toExpr.FitsIn ctes rows plan.output) →
      P (.project items plan)) :
    (renameColumns names plan).Ensures context bound P := by
  rw [renameColumns]
  split
  · exact ensures_pure hself
  split
  · exact ensures_fail _
  · refine (ensures_mapM_all fun pair hpair => ?_).bind fun items hitems =>
      ensures_pure (hproject items hitems)
    exact ensures_freshId.bind fun id _ => ensures_pure fun ctes rows =>
      .aliased (.column (List.of_mem_zip hpair).1)

section
variable {stored : String → Planner Plan} (hstored : PlansStored stored)
include hstored

/-- A name that is expanded gives a query on its own. -/
theorem ensures_expandStored (recursive : String → PlanningError) (name sql : String) :
    (expandStored stored recursive name sql).Ensures context bound (Plan.QueryIn [] []) := by
  refine ensures_context.bind fun _ _ => ?_
  split
  · exact ensures_fail_bind _ _
  · exact ensures_within (hstored _ bound sql)

/-- A view is sound anywhere. -/
theorem ensures_view (name : TableName) (definition : ViewDefinition) :
    (view stored name definition).Ensures context bound fun plan =>
      plan.SoundIn ctes outer ∧ plan.addsColumns = false := by
  refine (ensures_expandStored hstored _ _ _).bind fun body hbody => ?_
  dsimp only
  generalize (if definition.columns.isEmpty then _ else _) = names
  split
  · exact ensures_fail_bind _ _
  · next hlength =>
    refine (ensures_freshColumns _).bind fun columns hcolumns => ensures_pure ⟨?_, rfl⟩
    refine Plan.soundIn_view name definition.temporary hbody ?_
    rw [← not_not.1 hlength, ← hcolumns.1, List.length_map]

/-- A stored result is sound anywhere. -/
theorem ensures_cached (name sql : String) :
    (cached stored name sql).Ensures context bound fun plan =>
      plan.SoundIn ctes outer ∧ plan.addsColumns = false := by
  refine (ensures_expandStored hstored _ _ _).bind fun query hquery => ?_
  refine (ensures_freshLike _).bind fun columns hcolumns => ensures_pure ⟨?_, rfl⟩
  exact Plan.soundIn_cached (some name) hquery hcolumns.1

/-- What a table name stands for is sound, wherever it stands. -/
theorem ensures_resolveTable (hbelow : context.NumbersBelow bound) (table : TableName) :
    (resolveTable stored table).Ensures context bound fun plan =>
      plan.SoundIn context.arities outer ∧ plan.addsColumns = false := by
  have hlookup : ∀ {rest : Option CteDefinition → Planner Plan} {P : Plan → Prop},
      (∀ definition, (∀ found, definition = some found →
        context.arities.lookup found.id = some found.child.output.length) →
        Ensures context bound P (rest definition)) →
      Ensures context bound P (if table.database.isSome then pure none >>= rest
        else findCte? table.qualifiedName >>= rest) := by
    intro rest P hrest
    split
    · exact hrest none (by simp)
    · refine (ensures_findCte? _).bind fun definition hfound => hrest definition ?_
      rintro found rfl
      exact hbelow.lookup_arities hfound.symm
  refine hlookup fun definition hdefinition => ?_
  cases definition with
  | some definition =>
    refine (ensures_freshLike _).bind fun columns hcolumns => ensures_pure ⟨?_, rfl⟩
    refine Plan.soundIn_cteReference ?_
    rw [hdefinition definition rfl, hcolumns.1]
  | none =>
    refine ensures_catalog.bind fun catalog _ => ?_
    split
    · exact ensures_cached hstored _ _
    · exact ensures_view hstored _ _
    · exact (ensures_freshColumns _).bind fun columns _ =>
        ensures_pure ⟨Plan.soundIn_relation columns _, rfl⟩

/-- A table is sound where it stands. -/
theorem ensures_table (hbelow : context.NumbersBelow bound) (node : Sql.Node) :
    (table stored node).Ensures context bound (Planned.SoundIn context.arities outer) := by
  have htable : (resolveTable stored node.tableName).Ensures context bound fun plan =>
      plan.SoundIn context.arities outer ∧ plan.addsColumns = false :=
    ensures_resolveTable hstored hbelow node.tableName
  refine htable.bind fun plan hplan => ?_
  refine ensures_ofExcept_bind fun names _ => ?_
  refine (ensures_renameColumns (P := fun plan =>
    plan.SoundIn context.arities outer ∧ plan.addsColumns = false) names hplan
      fun items hitems => ⟨(Plan.QueryIn.renamed hplan.1 hitems).sound, rfl⟩).bind
    fun renamed hrenamed => ensures_pure ⟨hrenamed.1, rfl, hrenamed.2⟩

end

/-- Rows that are written out are sound anywhere. -/
theorem ensures_values (rows naming : Sql.Node) :
    (values rows naming).Ensures context bound (Planned.SoundIn ctes outer) := by
  refine ensures_ofExcept_bind fun rows _ => ?_
  refine (ensures_mapM_all (P := fun _ => True) fun row _ =>
    ensures_ofExcept fun _ _ => trivial).bind fun first _ => ?_
  refine ensures_ofExcept_bind fun given _ => ?_
  dsimp only
  generalize (if given.isEmpty then _ else _) = names
  split
  · exact ensures_fail_bind _ _
  · refine (ensures_freshColumns _).bind fun output _ => ?_
    refine (ensures_mapM_all (P := fun _ => True) fun row _ => ?_).bind fun texts _ =>
      ensures_pure ⟨Plan.soundIn_localRelation output texts, rfl, rfl⟩
    refine ensures_ofExcept_bind fun items _ => ?_
    refine (ensures_mapM_all (P := fun _ => True) fun value _ => ?_).mono fun _ _ => trivial
    exact ensures_ofExcept_bind fun node _ => ensures_write node

/-- An unknown table is sound anywhere. -/
theorem ensures_inferred (node : Sql.Node) (columns : List Label) :
    (inferred node columns).Ensures context bound (Planned.SoundIn ctes outer) :=
  (ensures_note _).bind fun _ _ => (ensures_freshColumns _).bind fun output _ =>
    ensures_pure ⟨Plan.soundIn_relation output _, rfl, rfl⟩

/-- Asking whether a table is unknown takes no number back. -/
theorem ensures_isUnknownTable (node : Sql.Node) :
    (isUnknownTable node).Ensures context bound fun _ => True := by
  rw [isUnknownTable]
  split
  · exact ensures_pure trivial
  · refine (ensures_findCte? _).bind fun found _ => ?_
    split
    · exact ensures_pure trivial
    · exact ensures_catalog.bind fun _ _ => ensures_pure trivial

section
variable {stored : String → Planner Plan} {query : Scope → Sql.Node → Planner Plan}
variable (hstored : PlansStored stored) (hquery : PlansQueries query)
variable (hbelow : context.NumbersBelow bound) (scope : Scope)
include hstored hquery hbelow

/-- A relation of a `FROM` clause is sound where it stands. -/
theorem ensures_source (term : Sql.Node) : (source stored query scope term).Ensures context bound
    (Planned.SoundIn context.arities scope.columns) := by
  rw [source]
  split
  · exact ensures_table hstored hbelow term
  split
  · exact ensures_values term term
  split
  · refine ensures_ofExcept_bind fun inner _ => ?_
    split
    · exact ensures_values inner term
    · refine (hquery context bound hbelow scope inner).bind fun child hchild => ?_
      refine ensures_ofExcept_bind fun names _ => ?_
      refine (ensures_renameColumns names hchild fun items hitems =>
        .renamed hchild.sound hitems).bind fun renamed hrenamed =>
          ensures_pure ⟨hrenamed.sound.wrap _, rfl, rfl⟩
  · exact ensures_fail _

/-- The relations of a `FROM` clause are sound where they stand. -/
theorem ensures_relations (select : Sql.Node) (terms : List Sql.Value) :
    (relations stored query scope select terms).Ensures context bound fun planned =>
      ∀ p ∈ planned, p.SoundIn context.arities scope.columns := by
  refine (ensures_mapM_all (P := fun found => ∀ p, found = .inl p →
    p.SoundIn context.arities scope.columns) fun term _ => ?_).bind fun found hfound => ?_
  · refine ensures_ofExcept_bind fun node _ => ?_
    refine (ensures_isUnknownTable node).bind fun unknown _ => ?_
    split
    · exact ensures_pure (by simp)
    · refine (ensures_source hstored hquery hbelow scope node).bind fun planned hplanned =>
        ensures_pure ?_
      rintro _ ⟨⟩
      exact hplanned
  · refine ensures_ofExcept_bind fun named _ => ensures_mapM_all fun entry hentry => ?_
    cases entry with
    | inl planned => exact ensures_pure (hfound _ hentry planned rfl)
    | inr term =>
      refine (ensures_context.bind (Q := fun _ => True) fun _ _ => ensures_pure trivial).bind
        fun columns _ => ?_
      exact ensures_inferred term columns

end

/-- What the relations of a `FROM` clause are put together to: a sound plan that gives exactly the
columns of the frame. -/
structure SourceIn (ctes : List (Int × Nat)) (outer : List Attribute) (source : Plan × Frame) :
    Prop where
  plan : source.1.SoundIn ctes outer
  output : source.1.output = source.2.columns
  adds : source.1.addsColumns = false

/-- A relation that is joined leaves what is put together sound. -/
theorem sourceIn_joinNext {left source : Plan × Frame} {join : Sql.Node × Planned}
    (hleft : SourceIn ctes outer left) (hright : join.2.SoundIn ctes outer)
    (h : joinNext left join = .ok source) : SourceIn ctes outer source := by
  obtain ⟨type, -, h⟩ := exists_of_bind_eq_ok h
  obtain ⟨columns, -, h⟩ := exists_of_bind_eq_ok h
  obtain rfl := Except.ok.inj h
  refine ⟨hleft.plan.join hright.plan type, ?_, rfl⟩
  cases hexposes : type.exposesRight <;>
    simp [Plan.output, Frame.columns, hexposes, hleft.output, hright.output]

/-- Relations that are joined leave what is put together sound. -/
theorem sourceIn_foldlM_joinNext {joins : List (Sql.Node × Planned)} :
    ∀ {left source : Plan × Frame}, SourceIn ctes outer left →
    (∀ join ∈ joins, join.2.SoundIn ctes outer) →
    joins.foldlM joinNext left = .ok source → SourceIn ctes outer source := by
  induction joins with
  | nil =>
    intro left source hleft _ h
    exact Except.ok.inj h ▸ hleft
  | cons join rest ih =>
    intro left source hleft hjoins h
    rw [List.foldlM_cons] at h
    obtain ⟨next, hnext, h⟩ := exists_of_bind_eq_ok h
    refine ih (sourceIn_joinNext hleft (hjoins join List.mem_cons_self) hnext) ?_ h
    exact fun other hother => hjoins other (List.mem_cons_of_mem join hother)

section
variable {stored : String → Planner Plan} {query : Scope → Sql.Node → Planner Plan}
variable (hstored : PlansStored stored)
include hstored

/-- A `FROM` clause is sound, with the columns of its frame. -/
theorem ensures_fromClause (hquery : PlansQueries query) (hbelow : context.NumbersBelow bound)
    (scope : Scope) (select : Sql.Node) : (fromClause stored query scope select).Ensures
      context bound (SourceIn context.arities scope.columns) := by
  refine ensures_ofExcept_bind fun term _ => ensures_ofExcept_bind fun joins _ => ?_
  split
  · split
    · exact ensures_pure ⟨Plan.soundIn_oneRow, rfl, rfl⟩
    · exact ensures_fail _
  · refine ensures_ofExcept_bind fun joins _ => ?_
    refine (ensures_relations hstored hquery hbelow scope select _).bind fun planned hplanned => ?_
    cases planned with
    | nil => exact ensures_fail _
    | cons first rest =>
      have hfirst := hplanned first List.mem_cons_self
      refine ensures_ofExcept fun source hsource => sourceIn_foldlM_joinNext
        ⟨hfirst.plan, ?_, hfirst.adds⟩ (fun join hjoin => ?_) hsource
      · simp [Frame.columns, Frame.ofSources, hfirst.output]
      · exact hplanned join.2 (List.mem_cons_of_mem first (List.of_mem_zip hjoin).2)

end

/-! ## Queries -/

end Planner

/-- A tier plans queries soundly, and its expressions fit where they are resolved. -/
structure Tier.IsSound (tier : Tier) : Prop where
  query : PlansQueries tier.query
  resolve : tier.resolve.Fits

/-- A query outside all `WITH` clauses is planned soundly on its own. -/
theorem Tier.IsSound.query_alone {tier : Tier} (htier : tier.IsSound) (hctes : context.ctes = [])
    (node : Sql.Node) : (tier.query [] node).Ensures context bound (Plan.QueryIn [] []) := by
  have hplan := htier.query context bound (.of_ctes hctes bound) [] node
  rwa [Context.arities_eq_nil hctes] at hplan

namespace Planner

variable {stored : String → Planner Plan} {below : Tier}

/-- A simple query is a query where it stands. -/
theorem ensures_select (hstored : PlansStored stored) (htier : below.IsSound)
    (hbelow : context.NumbersBelow bound) (scope : Scope) (node : Sql.Node) :
    (select stored below scope node).Ensures context bound
      (Plan.QueryIn context.arities scope.columns) := by
  refine (ensures_fromClause hstored htier.query hbelow scope node).bind fun r hr => ?_
  obtain ⟨source, frame⟩ := r
  have hsource : SourceIn context.arities scope.columns
      (wrapIf node "where" "Filter" source, frame) := by
    rw [wrapIf]
    split
    · exact ⟨hr.plan.wrap _, hr.output, rfl⟩
    · exact hr
  dsimp only
  generalize wrapIf node "where" "Filter" source = source at hsource ⊢
  refine ensures_ofExcept_bind fun grouped _ => ?_
  split
  · refine (htier.resolve.aggregate hbelow hsource.output hsource.plan hsource.adds node).bind
      fun plan hplan => ?_
    rw [pure_bind]
    exact ensures_pure (((hplan.wrapIf node _ _).wrapIf node _ _).withModifiers node)
  · have hscope : Scope.columns (frame :: scope) = source.output ++ scope.columns := by
      rw [hsource.output]
      rfl
    refine (htier.resolve.selectList hbelow (frame :: scope) node).run_some.bind
      fun selected hselected => ?_
    obtain ⟨items, windows⟩ := selected
    obtain ⟨hfunctions, hitems⟩ := hselected
    simp only [Alias.FitsScope, Expr.FitsScope, hscope] at hfunctions hitems
    dsimp only
    rw [pure_bind]
    have hplan := Plan.QueryIn.select hsource.plan hsource.adds hfunctions hitems
    exact ensures_pure ((hplan.wrapIf node _ _).withModifiers node)

/-- Two queries put together are a query where they stand. -/
theorem ensures_setOperation (htier : below.IsSound) (hbelow : context.NumbersBelow bound)
    (scope : Scope) (node : Sql.Node) : (setOperation below scope node).Ensures context bound
      (Plan.QueryIn context.arities scope.columns) := by
  refine ensures_ofExcept_bind fun first _ => ?_
  refine (htier.query context bound hbelow scope first).bind fun left hleft => ?_
  refine ensures_ofExcept_bind fun second _ => ?_
  refine (htier.query context bound hbelow scope second).bind fun right hright => ?_
  have hdone : ∀ {plan : Plan} (keeps : Bool), plan.QueryIn context.arities scope.columns →
      (withModifiers node (if keeps then plan else plan.wrap "Distinct")).QueryIn
        context.arities scope.columns := by
    intro plan keeps hplan
    cases keeps with
    | true => exact hplan.withModifiers node
    | false => exact (hplan.wrap _).withModifiers node
  dsimp only
  by_cases hlength : left.output.length = right.output.length
  · rw [if_neg (not_not.2 hlength)]
    by_cases hintersect : node.is "Intersect" = true
    · rw [if_pos hintersect, pure_bind]
      exact ensures_pure (hdone _ (.join rfl hleft hright))
    rw [if_neg hintersect]
    by_cases hexcept : node.is "Except" = true
    · rw [if_pos hexcept, pure_bind]
      exact ensures_pure (hdone _ (.join rfl hleft hright))
    rw [if_neg hexcept]
    refine (ensures_freshLike _).bind fun output houtput => ?_
    rw [pure_bind]
    exact ensures_pure (hdone _ (hleft.union hright houtput.2 houtput.1 (houtput.1.trans hlength)))
  · rw [if_pos hlength]
    exact ensures_fail_bind _ _

/-- The plans of named queries, and of what their clause stands over, are sound at their sites. -/
theorem ensures_withDefinitions {query : Scope → Sql.Node → Planner Plan}
    (hquery : PlansQueries query) {build : Planner Plan} {P : Plan → Prop}
    (hbuild : ∀ context bound, context.NumbersBelow bound → build.Ensures context bound fun plan =>
      plan.SoundIn context.arities outer ∧ P plan) (clauses : List Sql.Value) :
    ∀ {context : Context} {bound : Nat}, context.NumbersBelow bound →
    (withDefinitions query build clauses).Ensures context bound fun r =>
      (∀ b ∈ Site.ofDefinitions context.arities outer r.1 r.2, Site.All Site.IsSound b) ∧
        P r.2 := by
  induction clauses with
  | nil =>
    intro context bound hbelow
    refine (hbuild context bound hbelow).bind fun plan hplan => ensures_pure ⟨?_, hplan.2⟩
    exact fun b hb => List.mem_singleton.1 hb ▸ hplan.1
  | cons clause rest ih =>
    intro context bound hbelow
    rw [withDefinitions]
    refine ensures_ofExcept_bind fun cte _ => ?_
    simp only [cteDefinition, bind_assoc, pure_bind]
    refine ensures_ofExcept_bind fun node _ => ?_
    refine (hquery context bound hbelow [] node).bind fun child hchild => ?_
    refine ensures_ofExcept_bind fun names _ => ?_
    refine (ensures_renameColumns names hchild fun items hitems =>
      .renamed hchild.sound hitems).bind fun renamed hrenamed => ?_
    refine ensures_freshCteId_bind fun id hid => ?_
    refine (ensures_within (ih (hbelow.define hid _ renamed))).bind fun r hr => ensures_pure ?_
    refine ⟨fun b hb => ?_, hr.2⟩
    exact (List.mem_cons.1 hb).elim (fun h => h ▸ hrenamed.sound) (hr.1 b)

/-- A plan under a `WITH` clause is as sound as without it. -/
theorem ensures_withClause {query : Scope → Sql.Node → Planner Plan} (hquery : PlansQueries query)
    {build : Planner Plan} {P : Plan → Prop}
    (hbuild : ∀ context bound, context.NumbersBelow bound → build.Ensures context bound fun plan =>
      plan.SoundIn context.arities outer ∧ P plan)
    (hP : ∀ definitions body, P body → P (.withCte definitions body))
    (hbelow : context.NumbersBelow bound) (node : Sql.Node) :
    (withClause query node build).Ensures context bound fun plan =>
      plan.SoundIn context.arities outer ∧ P plan := by
  refine ensures_ofExcept_bind fun clause _ => ?_
  cases clause with
  | none => exact hbuild context bound hbelow
  | some clause =>
    dsimp only
    split
    · exact ensures_fail_bind _ _
    · refine ensures_ofExcept_bind fun clauses _ => ?_
      rw [withScope_eq]
      refine (ensures_withDefinitions hquery hbuild clauses hbelow).bind fun r hr => ensures_pure ?_
      exact ⟨Plan.soundIn_withCte hr.1, hP _ _ hr.2⟩

/-- Queries are planned soundly, if the tier below does so. -/
theorem plansQueries_query (hstored : PlansStored stored) (htier : below.IsSound) :
    PlansQueries (query stored below) := by
  intro context bound hbelow scope node
  rw [query]
  split
  · refine ensures_ofExcept_bind fun inner _ => ?_
    exact (htier.query context bound hbelow scope inner).bind fun plan hplan =>
      ensures_pure (hplan.withModifiers node)
  split
  · exact ensures_fail _
  · refine (ensures_withClause htier.query (fun context bound hbelow => ?_)
      (fun definitions body h => .withCte definitions h) hbelow node).mono
      fun plan hplan => ⟨hplan.1, hplan.2⟩
    split
    · exact (ensures_select hstored htier hbelow scope node).mono fun _ h => ⟨h.sound, h.isResult⟩
    · exact (ensures_setOperation htier hbelow scope node).mono fun _ h => ⟨h.sound, h.isResult⟩

end Planner

/-- By induction on the height: a tier is sound where the tier below it is. -/
theorem Tier.isSound_upTo {stored : String → Planner Plan} (hstored : PlansStored stored) :
    ∀ height, (Tier.upTo stored height).IsSound
  | 0 => ⟨fun _ _ _ _ _ => Planner.ensures_fail _, fun _ _ _ _ _ => Projecting.ensures_fail _⟩
  | height + 1 =>
    have hbelow := Tier.isSound_upTo hstored height
    have hquery := Planner.plansQueries_query hstored hbelow
    ⟨hquery, Resolver.fits_step hquery hbelow.resolve⟩

/-- By induction on how many stored queries may be open: a stored query is planned on its own tree,
outside the named queries of the statement. -/
theorem Planner.plansStored_storedQuery : ∀ opened, PlansStored (Planner.storedQuery opened)
  | 0, _, _, _ => Planner.ensures_fail _
  | opened + 1, context, bound, sql => by
    have htier := Tier.isSound_upTo (Planner.plansStored_storedQuery opened)
    refine Planner.ensures_context.bind fun _ _ => Planner.ensures_ofExcept_bind fun node _ => ?_
    exact Planner.ensures_within ((htier node.height).query_alone rfl node)

end ColumnTrace
