import ColumnTrace.Planner.Query
import ColumnTrace.Proofs.Planner.AgreeingQueries
import ColumnTrace.Proofs.Planner.Expansion
import ColumnTrace.Proofs.Planner.PlacedExpressions

/-!
# Queries in two places

The relations of a `FROM` clause, set operations and `WITH` clauses are planned to the same in both
places, where the queries in them are; a stored text is planned on its own tree in either place. By
induction on the height of trees every tier plans so (`Tier.alike_upTo`). So a query that stands in
a larger statement has there the plan that it has alone, if both refer alike to its unknown tables
(`Planner.query_eq_planStatement`).
-/

set_option autoImplicit false

namespace ColumnTrace

variable {places : Places}

namespace Planner

/-- The computation runs with one more named query in scope. -/
theorem Alike.within_scope {α : Type} {x : Planner α} (h : Alike places x) (name : String)
    (definition : CteDefinition) : Alike places (within (.scope name definition) x) :=
  fun context hcatalog => h { context with ctes := (name, definition) :: context.ctes } hcatalog

/-! ## Relations -/

/-- Columns are renamed alike in both places. -/
theorem alike_renameColumns (names : List Label) (plan : Plan) :
    Alike places (renameColumns names plan) := by
  rw [renameColumns]
  split
  · exact alike_pure _
  split
  · exact alike_fail _
  · exact (alike_mapM fun pair _ => alike_freshId.bind fun id => alike_pure _).bind fun items =>
      alike_pure _

/-- A stored text is planned on its own tree. -/
theorem alike_storedQuery (open_ : Nat) (sql : String) :
    Alike places (storedQuery open_ sql) := by
  cases open_ with
  | zero => exact alike_fail _
  | succ open_ =>
    intro context _
    rw [storedQuery, context_bind_apply, context_bind_apply]
    cases (context.library.first sql).mapError PlanningError.unreadable <;> rfl

/-- A table is unknown in both places or in neither. -/
theorem alike_isUnknownTable (node : Sql.Node) : Alike places (isUnknownTable node) := by
  rw [isUnknownTable]
  split
  · exact alike_pure _
  · refine (alike_findCte? _).bind fun found => ?_
    split
    · exact alike_pure _
    · exact alike_catalog.bind fun _ => alike_pure _

/-- The catalog does not know an unknown table. -/
theorem ensures_isUnknownTable_of_catalog (context : Context) (node : Sql.Node) :
    (isUnknownTable node).Ensures context 0 fun unknown => unknown = true →
      node.is "Table" = true ∧ context.catalog.knows node.qualifiedName = false := by
  rw [isUnknownTable]
  split
  · exact ensures_pure fun h => absurd h Bool.false_ne_true
  · next htable =>
    refine (ensures_findCte? _).bind fun found _ => ?_
    split
    · exact ensures_pure fun h => absurd h Bool.false_ne_true
    · refine ensures_catalog.bind fun catalog hcatalog => ensures_pure fun hunknown => ?_
      subst hcatalog
      exact ⟨by simpa using htable, by rwa [Bool.not_eq_true'] at hunknown⟩

section
variable {stored : String → Planner Plan} (hstored : ∀ sql, Alike places (stored sql))
include hstored

/-- A name is expanded to the same in both places. -/
theorem alike_expandStored (recursive : String → PlanningError) (name sql : String) :
    Alike places (expandStored stored recursive name sql) := by
  intro context hcatalog
  rw [expandStored, context_bind_apply, context_bind_apply]
  dsimp only
  split
  · rfl
  · exact hstored sql { context with expanding := name :: context.expanding } hcatalog

/-- A view is planned to the same in both places. -/
theorem alike_view (name : TableName) (definition : ViewDefinition) :
    Alike places (view stored name definition) := by
  refine (alike_expandStored hstored _ _ _).bind fun body => ?_
  dsimp only
  generalize (if definition.columns.isEmpty then _ else _) = names
  split
  · exact alike_fail_bind _ _
  · exact (alike_freshColumns _).bind fun columns => alike_pure _

theorem alike_cached (name sql : String) : Alike places (cached stored name sql) :=
  (alike_expandStored hstored _ _ _).bind fun _ =>
    (alike_freshColumns _).bind fun _ => alike_pure _

/-- A table is read alike in both places. -/
theorem alike_resolveTable (table : TableName) : Alike places (resolveTable stored table) := by
  have hlookup : ∀ {rest : Option CteDefinition → Planner Plan},
      (∀ definition, Alike places (rest definition)) →
      Alike places (if table.database.isSome then pure none >>= rest
        else findCte? table.qualifiedName >>= rest) := by
    intro rest hrest
    split
    · exact (alike_pure _).bind hrest
    · exact (alike_findCte? _).bind hrest
  refine hlookup fun definition => ?_
  cases definition with
  | some definition => exact (alike_freshColumns _).bind fun columns => alike_pure _
  | none =>
    refine alike_catalog.bind fun catalog => ?_
    split
    · exact alike_cached hstored _ _
    · exact alike_view hstored _ _
    · exact (alike_freshColumns _).bind fun columns => alike_pure _

theorem alike_table (node : Sql.Node) : Alike places (table stored node) := by
  refine (alike_resolveTable hstored _).bind fun plan => alike_ofExcept_bind fun names _ => ?_
  exact (alike_renameColumns names plan).bind fun renamed => alike_pure _

end

/-- Rows that are written out are planned to the same in both places. -/
theorem alike_values (rows naming : Sql.Node) : Alike places (values rows naming) := by
  refine alike_ofExcept_bind fun rows _ => ?_
  refine (alike_mapM fun row _ => alike_ofExcept _).bind fun first => ?_
  refine alike_ofExcept_bind fun given _ => ?_
  dsimp only
  generalize (if given.isEmpty then _ else _) = names
  split
  · exact alike_fail_bind _ _
  · refine (alike_freshColumns _).bind fun output => ?_
    refine (alike_mapM fun row _ => alike_ofExcept_bind fun items _ => ?_).bind fun texts =>
      alike_pure _
    exact alike_mapM fun value _ => alike_ofExcept_bind fun node _ => alike_write node

theorem alike_inferred (node : Sql.Node) (columns : List Label) :
    Alike places (inferred node columns) :=
  (alike_note _).bind fun _ => (alike_freshColumns _).bind fun _ => alike_pure _

/-- The columns of a table to which both statements refer alike are inferred to be the same. -/
theorem alike_inferredColumns (select : Sql.Node) (only : Bool) (provided : List Label)
    {term : Sql.Node} (h : places.first.qualifiedReferences term.sourceNames =
      places.second.qualifiedReferences term.sourceNames) :
    Alike places (inferredColumns select only provided term) := by
  intro context _
  rw [inferredColumns, context_bind_apply, context_bind_apply]
  dsimp only
  rw [h]
  rfl

section
variable {stored : String → Planner Plan} {query : Scope → Sql.Node → Planner Plan}
variable (hstored : ∀ sql, Alike places (stored sql)) (hquery : QueriesAlike places query)
variable (outer : Scope)
include hstored hquery

/-- A relation of a `FROM` clause is planned to the same in both places. -/
theorem alike_source {term : Sql.Node} (hterm : places.ReferAlike term) :
    Alike places (source stored query outer term) := by
  rw [source]
  split
  · exact alike_table hstored term
  split
  · exact alike_values term term
  split
  · refine alike_ofExcept_bind fun inner hinner => ?_
    have hinner : places.ReferAlike inner := ((hterm.passes term).arg "this").toNode hinner
    split
    · exact alike_values inner term
    · refine (hquery outer inner hinner).bind fun child => alike_ofExcept_bind fun names _ => ?_
      exact (alike_renameColumns names child).bind fun renamed => alike_pure _
  · exact alike_fail _

/-- The relations of a `FROM` clause are planned to the same in both places. -/
theorem alike_relations (select : Sql.Node) {terms : List Sql.Value}
    (hterms : ∀ term ∈ terms, term.All places.ReferAlike) :
    Alike places (relations stored query outer select terms) := by
  have hknown : ∀ term ∈ terms, Alike places (knownOrUnknown stored query outer term) := by
    intro term hterm
    refine alike_ofExcept_bind fun node hnode => (alike_isUnknownTable node).bind fun unknown => ?_
    split
    · exact alike_pure _
    · exact (alike_source hstored hquery outer ((hterms term hterm).toNode hnode)).bind
        fun planned => alike_pure _
  -- an unknown table that is found is one that both statements refer to alike
  have hunknown : ∀ context : Context, context.catalog = places.catalog → ∀ term ∈ terms,
      (knownOrUnknown stored query outer term).Ensures context 0 fun entry =>
        ∀ node, entry = .inr node → places.first.qualifiedReferences node.sourceNames =
          places.second.qualifiedReferences node.sourceNames := by
    intro context hcatalog term hterm
    refine ensures_ofExcept_bind fun node hnode => ?_
    refine (ensures_isUnknownTable_of_catalog context node).bind fun unknown hunknown => ?_
    split
    · next h =>
      obtain ⟨htable, hknows⟩ := hunknown h
      have hrefer : places.ReferAlike node := (hterms term hterm).toNode hnode
      rw [hcatalog] at hknows
      refine ensures_pure ?_
      rintro _ ⟨⟩
      exact hrefer node (Sql.Node.mem_reachable_self node _) htable hknows
    · refine ensures_bind_of fun numbers _ planned _ =>
        ⟨0, Nat.le_refl 0, Nat.zero_le _, ensures_pure nofun⟩
  refine (alike_mapM hknown).bind_of fun context numbers found hcatalog hfound => ?_
  have hentries := (ensures_mapM_all (hunknown context hcatalog) numbers (Nat.zero_le _) found
    hfound).1
  refine alike_ofExcept_bind fun named _ => alike_mapM fun entry hentry => ?_
  cases entry with
  | inl planned => exact alike_pure _
  | inr term =>
    exact (alike_inferredColumns select _ _ (hentries _ hentry term rfl)).bind fun columns =>
      alike_inferred term columns

/-- A `FROM` clause is planned to the same in both places. -/
theorem alike_fromClause {select : Sql.Node} (hselect : select.Passes places.ReferAlike) :
    Alike places (fromClause stored query outer select) := by
  refine alike_ofExcept_bind fun term hterm => alike_ofExcept_bind fun joins hjoins => ?_
  split
  · split
    · exact alike_pure _
    · exact alike_fail _
  · refine alike_ofExcept_bind fun nodes hnodes => ?_
    have hterms := hselect.relations Places.ReferAlike.passes hterm hjoins hnodes
    refine (alike_relations hstored hquery outer select hterms).bind fun planned => ?_
    cases planned with
    | nil => exact alike_fail _
    | cons first rest => exact alike_ofExcept _

end

end Planner

/-! ## Queries -/

/-- The tier plans queries and expressions that both statements refer to alike to the same in both
places. -/
structure Tier.Alike (places : Places) (tier : Tier) : Prop where
  query : QueriesAlike places tier.query
  resolve : tier.resolve.Alike places

namespace Planner

section
variable {query : Scope → Sql.Node → Planner Plan} (hquery : QueriesAlike places query)
include hquery

/-- Named queries and what stands over them are planned to the same in both places. -/
theorem alike_withDefinitions {build : Planner Plan} (hbuild : Alike places build)
    {ctes : List Sql.Value} (hctes : ∀ cte ∈ ctes, cte.All places.ReferAlike) :
    Alike places (withDefinitions query build ctes) := by
  have hdefinition : ∀ cte : Sql.Node, places.ReferAlike cte →
      Alike places (cteDefinition query cte) := by
    intro cte hcte
    refine alike_ofExcept_bind fun inner hinner => ?_
    have hinner : places.ReferAlike inner := ((hcte.passes cte).arg "this").toNode hinner
    refine (hquery [] inner hinner).bind fun child => alike_ofExcept_bind fun names _ => ?_
    refine (alike_renameColumns names child).bind fun renamed => ?_
    exact Alike.bind (fun _ _ => rfl) fun id => alike_pure _
  induction ctes with
  | nil =>
    rw [withDefinitions]
    exact hbuild.bind fun body => alike_pure _
  | cons cte rest ih =>
    rw [withDefinitions]
    refine alike_ofExcept_bind fun inner hinner => ?_
    refine (hdefinition inner ((hctes cte List.mem_cons_self).toNode hinner)).bind
      fun definition => ?_
    have hrest := ih fun v hv => hctes v (List.mem_cons_of_mem cte hv)
    exact (hrest.within_scope definition.1 definition.2).bind fun body => alike_pure _

/-- A query under a `WITH` clause is planned to the same in both places. -/
theorem alike_withClause {node : Sql.Node} (hnode : node.Passes places.ReferAlike)
    {build : Planner Plan} (hbuild : Alike places build) :
    Alike places (withClause query node build) := by
  refine alike_ofExcept_bind fun clause? hclause => ?_
  cases clause? with
  | none => exact hbuild
  | some clause =>
    have hclause : places.ReferAlike clause := (hnode.firstArg _).nodeIfThere hclause
    dsimp only
    split
    · exact alike_fail_bind _ _
    · refine alike_ofExcept_bind fun ctes hctes => ?_
      rw [withScope_eq]
      exact (alike_withDefinitions hquery hbuild ((hclause.passes clause).items hctes)).bind
        fun body => alike_pure _

end

section
variable {stored : String → Planner Plan} (hstored : ∀ sql, Alike places (stored sql))
variable {below : Tier} (hbelow : below.Alike places) (outer : Scope)
variable {node : Sql.Node} (hnode : node.Passes places.ReferAlike)
include hbelow hnode

/-- Two queries put together are planned to the same in both places. -/
theorem alike_setOperation : Alike places (setOperation below outer node) := by
  refine alike_ofExcept_bind fun leftNode hleft => ?_
  refine (hbelow.query outer leftNode ((hnode.arg "this").toNode hleft)).bind fun left => ?_
  refine alike_ofExcept_bind fun rightNode hright => ?_
  refine (hbelow.query outer rightNode ((hnode.arg "expression").toNode hright)).bind
    fun right => ?_
  dsimp only
  by_cases hlength : left.output.length = right.output.length
  · rw [if_neg (not_not.2 hlength)]
    by_cases hintersect : node.is "Intersect" = true
    · rw [if_pos hintersect, pure_bind]
      exact alike_pure _
    rw [if_neg hintersect]
    by_cases hexcept : node.is "Except" = true
    · rw [if_pos hexcept, pure_bind]
      exact alike_pure _
    rw [if_neg hexcept]
    refine (alike_freshColumns _).bind fun columns => ?_
    rw [pure_bind]
    exact alike_pure _
  · rw [if_pos hlength]
    exact alike_fail_bind _ _

include hstored

/-- A simple query is planned to the same in both places. -/
theorem alike_select : Alike places (select stored below outer node) := by
  refine (alike_fromClause hstored hbelow.query outer hnode).bind fun source => ?_
  refine alike_ofExcept_bind fun grouped _ => ?_
  dsimp only
  split
  · exact (hbelow.resolve.aggregate _ hnode _).bind fun plan => alike_pure _
  · exact (hbelow.resolve.selectList _ hnode (some [])).bind fun projected => alike_pure _

end

/-- A query is planned to the same in both places, if the tier below does so. -/
theorem queriesAlike_query {stored : String → Planner Plan}
    (hstored : ∀ sql, Alike places (stored sql)) {below : Tier} (hbelow : below.Alike places) :
    QueriesAlike places (query stored below) := by
  intro outer node hnode
  have hpasses := hnode.passes node
  rw [query]
  split
  · refine alike_ofExcept_bind fun inner hinner => ?_
    exact (hbelow.query outer inner ((hpasses.arg "this").toNode hinner)).bind fun plan =>
      alike_pure _
  split
  · exact alike_fail _
  · refine alike_withClause hbelow.query hpasses ?_
    split
    · exact alike_select hstored hbelow outer hpasses
    · exact alike_setOperation hbelow outer hpasses

end Planner

/-- Every tier plans to the same in both places. -/
theorem Tier.alike_upTo (open_ height : Nat) :
    (Tier.upTo (Planner.storedQuery open_) height).Alike places := by
  induction height with
  | zero =>
    exact ⟨fun _ _ _ => Planner.alike_fail _,
      fun _ _ _ => Projecting.alike_lift (Planner.alike_fail _)⟩
  | succ height ih =>
    have hquery := Planner.queriesAlike_query (Planner.alike_storedQuery open_) ih
    exact ⟨hquery, Resolver.alike_step hquery ih.resolve⟩

/-- Tiers of different heights plan trees that both reach alike. -/
theorem Tier.agree_upTo {base : Context} {names : List String} {stored : String → Planner Plan}
    (height : Nat) : ∀ {tall taller : Nat}, height ≤ tall → height ≤ taller →
      Tier.Agree base names height (Tier.upTo stored tall) (Tier.upTo stored taller) := by
  induction height with
  | zero => exact fun _ _ => Tier.agree_zero _ _
  | succ height ih =>
    intro tall taller htall htaller
    obtain ⟨tall, rfl⟩ := Nat.exists_eq_add_one_of_ne_zero (show tall ≠ 0 by omega)
    obtain ⟨taller, rfl⟩ := Nat.exists_eq_add_one_of_ne_zero (show taller ≠ 0 by omega)
    exact Tier.agree_through (fun _ _ _ _ => Planner.agrees_refl _) (ih (by omega) (by omega))

/-- A query that stands in a statement has there the plan that it has as a statement of its own, if
both statements refer alike to its unknown tables. -/
theorem Planner.query_eq_planStatement {s : Surroundings} {query statement : Sql.Node}
    (hquery : query.isQueryOrSubquery = true) {height : Nat} (hheight : query.height ≤ height)
    (hopen : openLimit s.library statement = openLimit s.library query)
    (hrefer : Places.ReferAlike ⟨s.catalog, query, statement⟩ query) :
    (Tier.upTo (storedQuery (openLimit s.library statement)) height).query [] query
      (s.context statement) = planStatement s query := by
  have hplaces := (Tier.alike_upTo (openLimit s.library query) query.height).query [] query hrefer
    (s.context query) rfl
  have htiers : Tier.Agree (s.context query) query.tableNames query.height
      (Tier.upTo (storedQuery (openLimit s.library query)) height)
      (Tier.upTo (storedQuery (openLimit s.library query)) query.height) :=
    Tier.agree_upTo query.height hheight (Nat.le_refl _)
  have hheights := htiers.query [] query query.fits_tableNames statement []
  funext numbers
  rw [hopen, planStatement_of_query s hquery]
  exact congrFun (hheights.trans hplaces.symm) numbers

end ColumnTrace
