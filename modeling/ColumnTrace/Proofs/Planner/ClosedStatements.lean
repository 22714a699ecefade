import ColumnTrace.Planner.Statement
import ColumnTrace.Proofs.Planner.SoundQueries

/-!
# Planned statements

The plan of a statement is closed (`planStatement_isClosed`): its operators read what comes from
below or from the rows of the queries around, and what it refers to by number is in scope.
-/

set_option autoImplicit false

namespace ColumnTrace

/-- The columns that an action of a merge assigns are columns of the target, and what it reads is
there. -/
structure MergeAction.FitsIn (target source : List Attribute) (action : MergeAction) : Prop where
  keys : ∀ a ∈ action.assignments, a.key ∈ target
  exprs : ∀ e ∈ action.exprs, e.FitsIn [] (target ++ source) (target ++ source)

/-- An assignment gives a column of the target a value that reads what is there. -/
structure Assignment.FitsIn (target source : List Attribute) (a : Assignment) : Prop where
  key : a.key ∈ target
  value : a.value.FitsIn [] (target ++ source) (target ++ source)

/-- An action fits where each of its assignments does. -/
theorem MergeAction.FitsIn.of_assignments {target source : List Attribute} {action : MergeAction}
    (hexprs : action.exprs = action.assignments.map Assignment.value)
    (h : ∀ a ∈ action.assignments, a.FitsIn target source) : action.FitsIn target source := by
  refine ⟨fun a ha => (h a ha).key, fun e he => ?_⟩
  rw [hexprs] at he
  obtain ⟨a, ha, rfl⟩ := List.mem_map.1 he
  exact (h a ha).value

/-- Only commands and alterations change the query of a view. -/
theorem Sql.Node.alterView?_eq_none {statement : Sql.Node} {kind : String}
    (h : statement.is kind = true) (hcommand : kind ≠ "Command") (halter : kind ≠ "Alter")
    (engine : String) : statement.alterView? engine = .ok none := by
  obtain rfl : statement.kind = kind := beq_iff_eq.1 h
  simp [alterView?, is, hcommand, halter, pure, Except.pure]

namespace Planner

variable {context : Context} {bound : Nat} {stored : String → Planner Plan} {tier : Tier}

/-! ## Merges -/

/-- A column that is assigned is one of the target. -/
theorem ensures_targetColumn (target : Source) (node : Sql.Node) :
    (targetColumn target node).Ensures context bound (· ∈ target.output) := by
  rw [targetColumn]
  split
  · next a ha => exact ensures_pure (List.mem_of_find?_eq_some ha)
  · exact ensures_fail _

/-- The columns that an insertion names are columns of the target. -/
theorem ensures_insertKeys (target : Source) (action : Sql.Node) :
    (insertKeys target action).Ensures context bound fun keys =>
      ∀ key ∈ keys, key ∈ target.output := by
  rw [insertKeys]
  split
  · exact ensures_ofExcept_bind fun nodes _ =>
      ensures_mapM_all fun node _ => ensures_targetColumn target node
  · exact ensures_pure fun _ hkey => hkey

/-- The assignments of all columns fit the two sides. -/
theorem ensures_starAssignments (target source : Source) :
    (starAssignments target source).Ensures context bound fun assignments =>
      ∀ a ∈ assignments, a.FitsIn target.output source.output := by
  rw [starAssignments]
  dsimp only
  split
  · refine ensures_pure fun a ha => ?_
    obtain ⟨key, hkey, ha⟩ := List.mem_filterMap.1 ha
    obtain ⟨s, hs, rfl⟩ := Option.map_eq_some_iff.1 ha
    have hmem : s ∈ source.output := List.mem_reverse.1 (List.mem_of_find?_eq_some hs)
    exact ⟨hkey, .column (List.mem_append_right _ hmem)⟩
  · rw [failMissing]
    split <;> exact ensures_fail _

section
variable {resolve : Resolver} (hresolve : resolve.Fits) (hctes : context.ctes = [])
include hresolve hctes

/-- An expression over sources reads their columns. -/
theorem ensures_plain_of_sources (sources : List Source) (value : Sql.Value) :
    (resolve.plain [.ofSources sources] value).Ensures context bound
      (Expr.FitsIn [] (sources.flatMap Source.output) (sources.flatMap Source.output)) := by
  have hscope : Scope.columns [.ofSources sources] = sources.flatMap Source.output := by
    simp [Scope.columns, Frame.columns, Frame.ofSources]
  simpa only [Context.arities_eq_nil hctes, hscope] using
    hresolve.plain (.of_ctes hctes bound) [.ofSources sources] value

/-- An assignment of an update fits the two sides. -/
theorem ensures_updateAssignment (target source : Source) (entry : Sql.Value) :
    (updateAssignment resolve target source entry).Ensures context bound fun assignments =>
      ∀ a ∈ assignments, a.FitsIn target.output source.output := by
  refine ensures_ofExcept_bind fun node _ => ?_
  split
  · exact ensures_starAssignments target source
  split
  · exact (ensures_write node).bind fun text _ => ensures_fail _
  · refine ensures_ofExcept_bind fun named _ => ?_
    refine (ensures_targetColumn target named).bind fun key hkey => ?_
    refine (ensures_plain_of_sources hresolve hctes _ _).bind fun value hvalue => ensures_pure ?_
    simp only [List.flatMap_cons, List.flatMap_nil, List.append_nil] at hvalue
    exact fun a ha => List.mem_singleton.1 ha ▸ ⟨hkey, hvalue⟩

/-- An insert reads the source only. -/
theorem ensures_insertAssignments (target source : Source) (action : Sql.Node) :
    (insertAssignments resolve target source action).Ensures context bound fun assignments =>
      ∀ a ∈ assignments, a.FitsIn target.output source.output := by
  rw [insertAssignments]
  split
  · exact ensures_starAssignments target source
  refine (ensures_insertKeys target action).bind fun keys hkeys => ?_
  refine ensures_ofExcept_bind fun values _ => ?_
  split
  · exact ensures_fail_bind _ _
  · refine ensures_mapM_all fun pair hpair => ?_
    refine (ensures_plain_of_sources hresolve hctes _ _).bind fun value hvalue => ensures_pure ?_
    have hwider : [source].flatMap Source.output ⊆ target.output ++ source.output := by simp
    exact ⟨hkeys _ (List.of_mem_zip hpair).1, hvalue.widen hwider hwider⟩

/-- An action of a merge fits the two sides. -/
theorem ensures_mergeAction (target source : Source) (clause : Sql.Node) :
    (mergeAction resolve target source clause).Ensures context bound
      (MergeAction.FitsIn target.output source.output) := by
  have hdelete : (MergeAction.delete none).FitsIn target.output source.output :=
    .of_assignments rfl (by simp [MergeAction.assignments])
  rw [mergeAction]
  split
  · exact ensures_pure hdelete
  split
  · refine (ensures_ofExcept_bind fun entries _ => ?_).bind fun assignments hassignments =>
      ensures_pure (.of_assignments (by simp [MergeAction.exprs, MergeAction.assignments])
        hassignments)
    refine (ensures_mapM_all fun entry _ =>
      ensures_updateAssignment hresolve hctes target source entry).bind fun lists hlists =>
        ensures_pure fun a ha => ?_
    obtain ⟨list, hlist, ha⟩ := List.mem_flatten.1 ha
    exact hlists list hlist a ha
  split
  · refine (ensures_insertAssignments hresolve hctes target source _).bind
      fun assignments hassignments => ensures_pure (.of_assignments
        (by simp [MergeAction.exprs, MergeAction.assignments]) hassignments)
  · exact ensures_pure hdelete

end

end Planner

/-- The plan of a merge is closed. -/
theorem Plan.isClosed_merge {target source : Plan} {matched notMatched : List MergeAction}
    (htarget : target.SoundIn [] []) (hsource : source.SoundIn [] [])
    (hactions : ∀ action ∈ matched ++ notMatched,
      action.FitsIn target.output source.output) :
    Site.All Site.IsClosed ⟨[], [], .merge target source matched notMatched⟩ := by
  have hinput : (Plan.merge target source matched notMatched).input =
      target.output ++ source.output := by simp [input, children]
  have hexprs : ∀ e ∈ (Plan.merge target source matched notMatched).exprs,
      e.FitsIn [] (target.output ++ source.output) (target.output ++ source.output) := by
    intro e he
    obtain ⟨action, haction, he⟩ := List.mem_flatMap.1 he
    exact (hactions action haction).exprs e he
  refine .mk ⟨fun a ha => ?_, fun a ha => ?_, by simp [reference?]⟩ fun b hb => ?_
  · obtain ⟨e, he, ha⟩ := Expr.mem_attributesOfAll.1 ha
    simp only [hinput, List.append_nil]
    exact (hexprs e he).reads a ha
  · obtain ⟨assignment, hmem, rfl⟩ := List.mem_map.1 ha
    obtain ⟨action, haction, hmem⟩ := List.mem_flatMap.1 hmem
    exact (hactions action haction).keys assignment hmem
  · refine Site.All.imp (fun _ h => h.closed) (P := Site.IsSound) ?_
    rcases List.mem_append.1 hb with hmem | hmem
    · obtain ⟨child, hchild, rfl⟩ := List.mem_map.1 hmem
      simp only [children, List.mem_cons, List.not_mem_nil, or_false] at hchild
      rcases hchild with rfl | rfl
      · exact htarget
      · exact hsource
    · obtain ⟨query, hquery, rfl⟩ := List.mem_map.1 hmem
      obtain ⟨e, he, hquery⟩ := Expr.mem_subqueriesOfAll.1 hquery
      have hsound := (hexprs e he).subqueries query hquery
      rw [← hinput, ← List.append_nil (Plan.input _)] at hsound
      exact hsound

/-- A command that only looks at queries is closed. -/
theorem Plan.isClosed_command {plan : Plan} (queries : List Plan) (hexprs : plan.exprs = [])
    (hassigned : plan.columnsAssigned = []) (hreference : plan.reference? = none)
    (hbelow : (Site.mk [] [] plan).below = queries.map fun query => ⟨[], [], query⟩)
    (hqueries : ∀ query ∈ queries, query.SoundIn [] []) :
    Site.All Site.IsClosed ⟨[], [], plan⟩ := by
  refine .mk ⟨by simp [hexprs, Expr.attributesOfAll], by simp [hassigned], by simp [hreference]⟩
    fun b hb => ?_
  rw [hbelow] at hb
  obtain ⟨query, hquery, rfl⟩ := List.mem_map.1 hb
  exact (hqueries query hquery).imp fun _ h => h.closed

namespace Planner

variable {context : Context} {bound : Nat} {stored : String → Planner Plan} {tier : Tier}
variable (hstored : PlansStored stored) (htier : tier.IsSound) (hctes : context.ctes = [])

section
include hstored htier hctes

/-- A side of a merge is sound on its own. -/
theorem ensures_mergeTerm (hints : List Label) (node : Sql.Node) :
    (mergeTerm stored tier.query hints node).Ensures context bound (Planned.SoundIn [] []) := by
  refine (ensures_isUnknownTable node).bind fun unknown _ => ?_
  split
  · exact ensures_context.bind fun _ _ => ensures_inferred _ _
  · have hsource := ensures_source hstored htier.query (.of_ctes hctes bound) [] node
    rwa [Context.arities_eq_nil hctes] at hsource

/-- The plan of a merge is closed. -/
theorem ensures_merge (node : Sql.Node) : (merge stored tier node).Ensures context bound fun plan =>
    Site.All Site.IsClosed ⟨[], [], plan⟩ := by
  refine ensures_ofExcept_bind fun clauses _ => ?_
  split
  · rw [pure_bind]
    refine ensures_ofExcept_bind fun sourceValue _ => ensures_ofExcept_bind fun hints _ => ?_
    refine (ensures_mergeTerm hstored htier hctes _ _).bind fun target htarget => ?_
    refine ensures_ofExcept_bind fun sourceNode _ => ?_
    refine (ensures_mergeTerm hstored htier hctes _ _).bind fun source hsource => ?_
    refine (ensures_mapM_all (P := fun entry => entry.2.FitsIn target.plan.output
      source.plan.output) fun clause _ => ?_).bind fun actions hactions =>
        ensures_pure (Plan.isClosed_merge htarget.plan hsource.plan fun action haction => ?_)
    · rw [← htarget.output, ← hsource.output]
      exact (ensures_mergeAction htier.resolve hctes _ _ clause).bind fun action haction =>
        ensures_pure haction
    · rw [List.mem_append, List.mem_map, List.mem_map] at haction
      rcases haction with ⟨entry, hentry, rfl⟩ | ⟨entry, hentry, rfl⟩
      · exact hactions entry (List.mem_filter.1 hentry).1
      · exact hactions entry (List.mem_filter.1 hentry).1
  · exact ensures_fail_bind _ _

end

/-! ## Inserts and creations -/

/-- A query that is given the column names of its target is as sound as before. -/
theorem ensures_align (target : String) (names : List Label) {query : Plan}
    (hquery : query.SoundIn [] []) :
    (align target names query).Ensures context bound (Plan.SoundIn [] []) := by
  rw [align]
  dsimp only
  split
  · exact ensures_fail_bind _ _
  split
  · exact ensures_pure hquery
  · refine (ensures_mapM_all fun pair hpair => ?_).bind fun items hitems =>
      ensures_pure (Plan.QueryIn.renamed hquery hitems).sound
    have hcolumn : pair.1 ∈ query.output := (List.of_mem_zip hpair).1
    split
    · exact ensures_pure fun ctes rows => .column hcolumn
    · exact ensures_freshId.bind fun id _ =>
        ensures_pure fun ctes rows => .aliased (.column hcolumn)

section
include htier hctes

/-- The query of a command stands by itself. -/
theorem ensures_query_of_command {build : Planner Plan} (hbuild : ∀ context bound,
    context.NumbersBelow bound → build.Ensures context bound fun plan =>
      plan.SoundIn context.arities []) (node : Sql.Node) :
    (withClause tier.query node build).Ensures context bound (Plan.SoundIn [] []) := by
  have hquery := ensures_withClause (P := fun _ => True) htier.query
    (fun context bound hbelow => (hbuild context bound hbelow).mono fun _ h => ⟨h, trivial⟩)
    (fun _ _ _ => trivial) (.of_ctes hctes bound) node
  rw [Context.arities_eq_nil hctes] at hquery
  exact hquery.mono fun _ h => h.1

/-- The plan of an insert is closed. -/
theorem ensures_insert (node : Sql.Node) : (insert tier node).Ensures context bound fun plan =>
    Site.All Site.IsClosed ⟨[], [], plan⟩ := by
  rw [insert]
  dsimp only
  split
  · exact ensures_fail_bind _ _
  refine (ensures_query_of_command htier hctes (fun context bound hbelow => ?_) node).bind
    fun query hquery => ?_
  · refine ensures_ofExcept_bind fun rows _ => ?_
    split
    · exact (ensures_values rows rows).bind fun planned hplanned => ensures_pure hplanned.plan
    · exact (htier.query context bound hbelow [] rows).mono fun _ h => h.sound
  · split
    · exact ensures_pure (Plan.isClosed_command [_] rfl rfl rfl rfl (by simpa using hquery))
    · refine ensures_ofExcept_bind fun target _ => ?_
      obtain ⟨target, columns⟩ := target
      cases target with
      | none =>
        exact ensures_pure (Plan.isClosed_command [_] rfl rfl rfl rfl (by simpa using hquery))
      | some table =>
        refine ensures_catalog.bind fun catalog _ => ensures_ofExcept_bind fun mode _ => ?_
        refine (ensures_align _ _ hquery).bind fun aligned haligned => ensures_pure ?_
        exact Plan.isClosed_command [_] rfl rfl rfl rfl (by simpa using haligned)

/-- The plan of a creation is closed. -/
theorem ensures_create (node : Sql.Node) : (create tier node).Ensures context bound fun plan =>
    Site.All Site.IsClosed ⟨[], [], plan⟩ := by
  refine ensures_ofExcept_bind fun kind _ => ?_
  have hunknown : Site.All Site.IsClosed ⟨[], [], .operator ("Create" ++ Text.titled kind) [] []⟩ :=
    Plan.isClosed_command [] rfl rfl rfl rfl (by simp)
  have hplan : ∀ query : Sql.Node, Ensures context bound (Plan.SoundIn [] [])
      (withClause tier.query node (tier.query [] query)) := by
    intro query
    refine ensures_query_of_command htier hctes (fun context bound hbelow => ?_) node
    exact (htier.query context bound hbelow [] query).mono fun _ h => h.sound
  split
  · split
    · refine ensures_ofExcept_bind fun target _ => ?_
      refine (hplan _).bind fun plan hplan => ?_
      refine ensures_ofExcept_bind fun type _ => ensures_pure ?_
      exact Plan.isClosed_command [_] rfl rfl rfl rfl (by simpa using hplan)
    split
    · refine ensures_ofExcept_bind fun target _ => ?_
      refine (hplan _).bind fun plan hplan => ensures_pure ?_
      exact Plan.isClosed_command [_] rfl rfl rfl rfl (by simpa using hplan)
    · exact ensures_pure hunknown
  · exact ensures_pure hunknown

end

end Planner

/-! ## Statements -/

namespace Planner

/-- The plan of a statement is closed. -/
theorem ensures_statement {stored : String → Planner Plan} {tier : Tier} {context : Context}
    (hstored : PlansStored stored) (htier : tier.IsSound) (hctes : context.ctes = [])
    (node : Sql.Node) : (statement stored tier node).Ensures context 0 fun plan =>
      Site.All Site.IsClosed ⟨[], [], plan⟩ := by
  have hplain : ∀ name : String, Site.All Site.IsClosed ⟨[], [], .operator name [] []⟩ :=
    fun name => Plan.isClosed_command [] rfl rfl rfl rfl (by simp)
  refine ensures_context.bind fun _ _ => ensures_ofExcept_bind fun change _ => ?_
  cases change with
  | some change =>
    refine (hstored context _ change.2).bind fun plan hplan => ensures_pure ?_
    exact Plan.isClosed_command [_] rfl rfl rfl rfl (by simpa using hplan.sound)
  | none =>
    dsimp only
    split
    · exact (htier.query_alone hctes node).mono fun plan hplan =>
        hplan.sound.imp fun _ h => h.closed
    split
    · exact ensures_insert htier hctes node
    split
    · exact ensures_create htier hctes node
    split
    · exact ensures_merge hstored htier hctes node
    split
    · exact ensures_pure (hplain _)
    · exact (ensures_note _).bind fun _ _ => ensures_pure (hplain _)

end Planner

/-- The plan of a statement is closed: what its operators read comes from below or, for a scalar
subquery, from the rows of the queries around, and every named query that it refers to is one of a
`WITH` clause around, with as many columns. -/
theorem planStatement_isClosed {s : Surroundings} {statement : Sql.Node} {numbers : Numbers}
    {plan : Plan} (h : (planStatement s statement numbers).result = .ok plan) :
    Site.All Site.IsClosed ⟨[], [], plan⟩ := by
  have hstored := Planner.plansStored_storedQuery (openLimit s.library statement)
  have htier := Tier.isSound_upTo hstored statement.height
  rw [planStatement_eq] at h
  exact (Planner.ensures_statement hstored htier rfl statement numbers (Nat.zero_le _) plan h).1

namespace Sql.Node

/-- A node of a kind, with a name. -/
def ofKind (kind name : String) (args : List (String × Value)) : Node :=
  .mk kind args { (default : Facts) with name := some name }

/-- A name as a statement writes it. -/
def ofName (name : String) : Value :=
  .node (ofKind "Identifier" name [("this", .scalar (.text name))])

/-- A column after the name of its table. -/
def ofColumn (table name : String) : Node :=
  ofKind "Column" name [("this", ofName name), ("table", ofName table)]

/-- An expression under an alias. -/
def ofAlias (e : Node) (name : String) : Node :=
  .mk "Alias" [("this", .node e)] { (default : Facts) with aliasText := some name }

/-- A simple query over one table, behind arguments of its own. -/
def ofSelect (args : List (String × Value)) (entries : List Node) (table : String) : Node :=
  let term := ofKind "Table" table [("this", ofName table)]
  .mk "Select" (args ++ [("expressions", .list (entries.map .node)),
    ("from", .node (.mk "From" [("this", .node term)] default))]) default

/-- `WITH c AS (SELECT t.a FROM t) SELECT (SELECT c.a FROM u) AS m FROM c` -/
def correlated : Node :=
  let named := .mk "CTE" [("this", .node (ofSelect [] [ofColumn "t" "a"] "t"))]
    { (default : Facts) with aliasText := some "c" }
  let inner := .mk "Subquery" [("this", .node (ofSelect [] [ofColumn "c" "a"] "u"))] default
  ofSelect [("with", .node (.mk "With" [("expressions", .list [.node named])] default))]
    [ofAlias inner "m"] "c"

end Sql.Node

/-- The plan of a correlated subquery under a `WITH` clause is closed. -/
theorem planStatement_isClosed_correlated : ∃ plan,
    (planStatement ⟨.empty, [], "spark"⟩ Sql.Node.correlated .start).result = .ok plan ∧
      Site.All Site.IsClosed ⟨[], [], plan⟩ := by
  have hplanned : (planStatement ⟨.empty, [], "spark"⟩ Sql.Node.correlated .start).result.isOk =
      true := by decide +kernel
  cases h : (planStatement ⟨.empty, [], "spark"⟩ Sql.Node.correlated .start).result with
  | ok plan => exact ⟨plan, rfl, planStatement_isClosed h⟩
  | error e =>
    rw [h] at hplanned
    cases hplanned

end ColumnTrace
