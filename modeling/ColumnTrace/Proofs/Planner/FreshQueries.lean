import ColumnTrace.Planner.Query
import ColumnTrace.Proofs.Planner.FreshExpressions

/-!
# What queries introduce

Relations, set operations and `WITH` clauses introduce what the queries in them introduce, and the
numbers that are handed out for their columns and named queries. By induction on the height of trees
every tier plans so (`Tier.introduces_upTo`), and by induction on how many stored queries may be
open so are the texts of views and stored results (`Planner.introducesStored_storedQuery`): each
reading of a view plans its text anew.
-/

set_option autoImplicit false

namespace ColumnTrace

/-- Stored queries introduce only what is handed out for them. -/
def IntroducesStored (stored : String → Planner Plan) : Prop :=
  ∀ sql, Planner.Introduces [] Plan.introduced (stored sql)

/-- The identities that a relation of a `FROM` clause introduces. -/
def Planned.introduced (planned : Planned) : List Identity := planned.plan.introduced

namespace Planner

/-! ## Relations -/

/-- Renamed columns are new ones. -/
theorem introduces_renameColumns (names : List Label) (plan : Plan) :
    Introduces plan.introduced Plan.introduced (renameColumns names plan) := by
  rw [renameColumns]
  split
  · exact introduces_pure_of_eq rfl
  split
  · exact introduces_fail _
  · refine (introduces_mapM_of_nil (g := SelectItem.introduced) fun pair _ => ?_).bind
      fun items => introduces_pure fun identity => ?_
    · refine introduces_freshId.bind fun id => introduces_pure_of_eq ?_
      rw [SelectItem.introduced, Alias.introduced, Expr.introduced]
      rfl
    · rw [Plan.introduced]
      simp only [List.count_append]
      omega

section
variable {stored : String → Planner Plan} (hstored : IntroducesStored stored)
include hstored

/-- A name that is expanded introduces only what is handed out for it. -/
theorem introduces_expandStored (recursive : String → PlanningError) (name sql : String) :
    Introduces [] Plan.introduced (expandStored stored recursive name sql) := by
  refine advances_context.bind fun context => ?_
  split
  · exact introduces_fail_bind _ _
  · exact introduces_within (hstored sql)

/-- A view introduces only what is handed out for it. -/
theorem introduces_view (name : TableName) (definition : ViewDefinition) :
    Introduces [] Plan.introduced (view stored name definition) := by
  refine (introduces_expandStored hstored _ _ _).bind fun body => ?_
  dsimp only
  generalize (if definition.columns.isEmpty then _ else _) = names
  split
  · exact introduces_fail_bind _ _
  · refine (introduces_freshColumns _).bind fun columns => introduces_pure fun identity => ?_
    rw [Plan.introduced]
    simp only [List.count_append]
    omega

/-- A stored result introduces only what is handed out for it. -/
theorem introduces_cached (name sql : String) :
    Introduces [] Plan.introduced (cached stored name sql) := by
  refine (introduces_expandStored hstored _ _ _).bind fun query => ?_
  refine (introduces_freshLike _).bind fun columns => introduces_pure fun identity => ?_
  simp only [Plan.introduced, storedScan, PhysicalNode.introduced, Plan.introducedIfThere,
    List.flatMap_cons, List.flatMap_nil, List.nil_append, List.append_nil, List.count_append]
  omega

/-- What a table name stands for gets new columns, whatever it is. -/
theorem introduces_resolveTable (table : TableName) :
    Introduces [] Plan.introduced (resolveTable stored table) := by
  have hlookup : ∀ {rest : Option CteDefinition → Planner Plan},
      (∀ definition, Introduces [] Plan.introduced (rest definition)) →
      Introduces [] Plan.introduced
        (if table.database.isSome then pure none >>= rest
          else findCte? table.qualifiedName >>= rest) := by
    intro rest hrest
    split
    · exact hrest none
    · exact (advances_findCte? _).bind hrest
  refine hlookup fun definition => ?_
  cases definition with
  | some definition =>
    refine (introduces_freshLike _).bind fun columns => introduces_pure_of_eq ?_
    rw [Plan.introduced, List.append_nil]
  | none =>
    refine advances_catalog.bind fun catalog => ?_
    split
    · exact introduces_cached hstored _ _
    · exact introduces_view hstored _ _
    · refine (introduces_freshColumns _).bind fun columns => introduces_pure_of_eq ?_
      rw [Plan.introduced, List.append_nil]

/-- A table introduces only what is handed out for it. -/
theorem introduces_table (node : Sql.Node) :
    Introduces [] Planned.introduced (table stored node) := by
  refine (introduces_resolveTable hstored _).bind fun plan =>
    introduces_ofExcept_bind fun names => ?_
  refine (introduces_renameColumns names plan).bindWith fun renamed => introduces_pure_of_eq ?_
  rw [Planned.introduced, List.append_nil]

end

/-- Rows that are written out introduce only what is handed out for them. -/
theorem introduces_values (rows naming : Sql.Node) :
    Introduces [] Planned.introduced (values rows naming) := by
  refine introduces_ofExcept_bind fun rows => ?_
  refine (advances_mapM fun row _ => advances_ofExcept _).bind fun first => ?_
  refine introduces_ofExcept_bind fun given => ?_
  dsimp only
  generalize (if given.isEmpty then _ else _) = names
  split
  · exact introduces_fail_bind _ _
  · refine (introduces_freshColumns _).bind fun output => ?_
    refine Advances.bind (advances_mapM fun row _ => ?_) fun texts => introduces_pure_of_eq ?_
    · refine introduces_ofExcept_bind fun items => advances_mapM fun value _ => ?_
      exact introduces_ofExcept_bind fun node => advances_write node
    · rw [Planned.introduced, Plan.introduced, List.append_nil]

/-- An unknown table introduces only what is handed out for it. -/
theorem introduces_inferred (node : Sql.Node) (columns : List Label) :
    Introduces [] Planned.introduced (inferred node columns) := by
  refine (advances_note _).bind fun _ => (introduces_freshColumns _).bind fun output => ?_
  refine introduces_pure_of_eq ?_
  rw [Planned.introduced, Plan.introduced, List.append_nil]

/-- Asking whether a table is unknown introduces nothing. -/
theorem advances_isUnknownTable (node : Sql.Node) : Advances (isUnknownTable node) := by
  rw [isUnknownTable]
  split
  · exact introduces_pure_of_eq rfl
  · refine (advances_findCte? _).bind fun found => ?_
    split
    · exact introduces_pure_of_eq rfl
    · exact advances_catalog.bind fun _ => introduces_pure_of_eq rfl

section
variable {stored : String → Planner Plan} {query : Scope → Sql.Node → Planner Plan}
variable (hstored : IntroducesStored stored) (hquery : IntroducesQueries query) (outer : Scope)
include hstored hquery

/-- A relation of a `FROM` clause introduces only what is handed out for it. -/
theorem introduces_source (term : Sql.Node) :
    Introduces [] Planned.introduced (source stored query outer term) := by
  rw [source]
  split
  · exact introduces_table hstored term
  split
  · exact introduces_values term term
  split
  · refine introduces_ofExcept_bind fun inner => ?_
    split
    · exact introduces_values inner term
    · refine (hquery outer inner).bind fun child => introduces_ofExcept_bind fun names => ?_
      refine (introduces_renameColumns names child).bindWith fun renamed => introduces_pure_of_eq ?_
      rw [Planned.introduced, Plan.introduced_wrap, List.append_nil]
  · exact introduces_fail _

/-- The known relations are planned first; those that are inferred later get numbers of their own.
-/
theorem introduces_relations (select : Sql.Node) (terms : List Sql.Value) :
    Introduces [] (List.flatMap Planned.introduced)
      (relations stored query outer select terms) := by
  have hknown : ∀ term, Introduces [] (Sum.elim Planned.introduced fun _ => [])
      (knownOrUnknown stored query outer term) := by
    intro term
    refine introduces_ofExcept_bind fun node =>
      (advances_isUnknownTable node).bind fun unknown => ?_
    split
    · exact introduces_pure_of_eq rfl
    · exact (introduces_source hstored hquery outer node).bind fun planned =>
        introduces_pure_of_eq (List.append_nil _).symm
  have hcolumns : ∀ (only : Bool) (provided : List Label) (term : Sql.Node),
      Advances (inferredColumns select only provided term) := fun _ _ _ =>
    advances_context.bind fun _ => introduces_pure_of_eq rfl
  refine (introduces_mapM_of_nil fun term _ => hknown term).bind fun found => ?_
  refine introduces_ofExcept_bind fun named => ?_
  dsimp only
  rw [List.append_nil]
  refine introduces_mapM fun entry _ => ?_
  cases entry with
  | inl planned => exact introduces_pure_of_eq rfl
  | inr term => exact (hcolumns _ _ term).bind fun columns => introduces_inferred term columns

end

/-- A join introduces what its sides do. -/
theorem introduced_joinNext {left joined : Plan × Frame} {join : Sql.Node × Planned}
    (h : joinNext left join = .ok joined) :
    joined.1.introduced = left.1.introduced ++ join.2.introduced := by
  simp only [joinNext] at h
  cases htype : join.1.joinType with
  | error e =>
    rw [htype] at h
    cases h
  | ok type =>
    cases hcolumns : join.1.usingColumns with
    | error e =>
      rw [htype, hcolumns] at h
      cases h
    | ok columns =>
      rw [htype, hcolumns] at h
      obtain rfl := Except.ok.inj h
      simp only [Plan.introduced, Expr.introducedIfThere, List.append_nil, Planned.introduced]

/-- Relations that are joined one after another introduce no more than each of them does. -/
theorem count_foldlM_joinNext (identity : Identity) : ∀ (joins : List Sql.Node)
    (rest : List Planned) {left joined : Plan × Frame},
    (joins.zip rest).foldlM joinNext left = .ok joined →
    joined.1.introduced.count identity ≤
      left.1.introduced.count identity + (rest.flatMap Planned.introduced).count identity
  | [], _, _, _, h => by
    obtain rfl := Except.ok.inj h
    exact Nat.le_add_right _ _
  | _ :: _, [], _, _, h => by
    obtain rfl := Except.ok.inj h
    exact Nat.le_add_right _ _
  | join :: joins, planned :: rest, left, joined, h => by
    rw [List.zip_cons_cons, List.foldlM_cons] at h
    cases hnext : joinNext left (join, planned) with
    | error e =>
      rw [hnext] at h
      cases h
    | ok next =>
      rw [hnext] at h
      have hrest := count_foldlM_joinNext identity joins rest h
      rw [introduced_joinNext hnext] at hrest
      simp only [List.flatMap_cons, List.count_append] at hrest ⊢
      omega

section
variable {stored : String → Planner Plan} (hstored : IntroducesStored stored)
include hstored

/-- A `FROM` clause introduces only what is handed out for it. -/
theorem introduces_fromClause {query : Scope → Sql.Node → Planner Plan}
    (hquery : IntroducesQueries query) (outer : Scope) (select : Sql.Node) :
    Introduces [] (fun source => source.1.introduced)
      (fromClause stored query outer select) := by
  refine introduces_ofExcept_bind fun term => introduces_ofExcept_bind fun joins => ?_
  split
  · split
    · exact introduces_pure_of_eq (by rw [Plan.introduced])
    · exact introduces_fail _
  · refine introduces_ofExcept_bind fun joins => ?_
    refine (introduces_relations hstored hquery outer select _).bind fun planned => ?_
    cases planned with
    | nil => exact introduces_fail _
    | cons first rest =>
      refine introduces_ofExcept fun source hsource identity => ?_
      have hcount := count_foldlM_joinNext identity joins rest hsource
      simp only [List.flatMap_cons, List.count_append, Planned.introduced] at hcount ⊢
      omega

end

end Planner

/-! ## Queries -/

/-- An operator without a rule of its own introduces nothing, where it is there. -/
@[simp]
theorem introduced_wrapIf (node : Sql.Node) (argument name : String) (plan : Plan) :
    (wrapIf node argument name plan).introduced = plan.introduced := by
  rw [wrapIf]
  split
  · exact Plan.introduced_wrap name plan
  · rfl

/-- The modifiers of a query introduce nothing. -/
@[simp]
theorem introduced_withModifiers (node : Sql.Node) (plan : Plan) :
    (withModifiers node plan).introduced = plan.introduced := by
  have hmodifiers : withModifiers node plan =
      wrapIf node "limit" "GlobalLimit" (wrapIf node "order" "Sort" plan) := rfl
  rw [hmodifiers, introduced_wrapIf, introduced_wrapIf]

/-- A tier introduces only what is handed out for its queries and expressions. -/
structure Tier.Introduces (tier : Tier) : Prop where
  query : IntroducesQueries tier.query
  resolve : tier.resolve.Introduces

namespace Planner

/-- A simple query introduces only what is handed out for it. -/
theorem introduces_select {stored : String → Planner Plan} (hstored : IntroducesStored stored)
    {below : Tier} (hbelow : below.Introduces) (outer : Scope) (node : Sql.Node) :
    Introduces [] Plan.introduced (select stored below outer node) := by
  refine (introduces_fromClause hstored hbelow.query outer node).bind fun source => ?_
  obtain ⟨source, frame⟩ := source
  have hsource : (wrapIf node "where" "Filter" source).introduced = source.introduced :=
    introduced_wrapIf ..
  refine introduces_ofExcept_bind fun grouped => ?_
  dsimp only
  rw [← hsource]
  generalize wrapIf node "where" "Filter" source = source
  split
  · refine (hbelow.resolve.aggregate node (frame :: outer) source).bindWith fun plan =>
      introduces_pure_of_eq ?_
    simp only [introduced_withModifiers, introduced_wrapIf, List.append_nil]
  · refine (hbelow.resolve.selectList (frame :: outer) node (some [])).bind fun projected =>
      introduces_pure fun identity => ?_
    obtain ⟨items, windows⟩ := projected
    simp only [introduced_withModifiers, introduced_wrapIf, Plan.introduced, Windows.introduced]
    split
    · simp only [List.count_append]
      omega
    · simp only [Plan.introduced, List.flatMap_nil, List.append_nil, List.count_append]
      omega

/-- Two queries put together introduce only what is handed out for them. -/
theorem introduces_setOperation {below : Tier} (hbelow : below.Introduces) (outer : Scope)
    (node : Sql.Node) : Introduces [] Plan.introduced (setOperation below outer node) := by
  have hmodified : ∀ (keepsDuplicates : Bool) (plan : Plan),
      (withModifiers node (if keepsDuplicates then plan else plan.wrap "Distinct")).introduced =
        plan.introduced := by
    intro keepsDuplicates plan
    rw [introduced_withModifiers]
    split
    · rfl
    · exact Plan.introduced_wrap "Distinct" plan
  refine introduces_ofExcept_bind fun leftNode => (hbelow.query outer leftNode).bind fun left => ?_
  refine introduces_ofExcept_bind fun rightNode =>
    (hbelow.query outer rightNode).bind fun right => ?_
  dsimp only
  split
  · exact introduces_fail_bind _ _
  split
  · refine introduces_pure fun identity => ?_
    rw [hmodified, Plan.introduced, Expr.introducedIfThere]
    simp only [List.count_append]
    omega
  split
  · refine introduces_pure fun identity => ?_
    rw [hmodified, Plan.introduced, Expr.introducedIfThere]
    simp only [List.count_append]
    omega
  · refine (introduces_freshLike _).bind fun columns => introduces_pure fun identity => ?_
    rw [hmodified, Plan.introduced]
    simp only [List.flatMap_cons, List.flatMap_nil, List.append_nil, List.count_append]
    omega

/-- A named query gets a number of its own. -/
theorem introduces_cteDefinition {query : Scope → Sql.Node → Planner Plan}
    (hquery : IntroducesQueries query) (cte : Sql.Node) :
    Introduces [] (fun definition => definition.2.introduced) (cteDefinition query cte) := by
  refine introduces_ofExcept_bind fun node => (hquery [] node).bind fun child => ?_
  refine introduces_ofExcept_bind fun names => ?_
  refine (introduces_renameColumns names child).bindWith fun renamed => ?_
  refine introduces_freshCteId.bind fun number => introduces_pure_of_eq ?_
  rw [CteDefinition.introduced, List.append_nil]
  rfl

section
variable {query : Scope → Sql.Node → Planner Plan} (hquery : IntroducesQueries query)
variable {build : Planner Plan} (hbuild : Introduces [] Plan.introduced build)
include hquery hbuild

/-- References to a named query introduce columns of their own; the query itself stands in the
clause once. -/
theorem introduces_withDefinitions (ctes : List Sql.Value) :
    Introduces [] (fun clause => clause.1.flatMap CteDefinition.introduced ++ clause.2.introduced)
      (withDefinitions query build ctes) := by
  induction ctes with
  | nil =>
    rw [withDefinitions]
    exact hbuild.bind fun plan => introduces_pure_of_eq (List.append_nil _).symm
  | cons cte rest ih =>
    rw [withDefinitions]
    refine introduces_ofExcept_bind fun node => (introduces_cteDefinition hquery node).bind
      fun definition => ?_
    refine (introduces_within ih).bind fun clause => introduces_pure fun identity => ?_
    simp only [List.flatMap_cons, List.count_append]
    omega

/-- A query under a `WITH` clause introduces only what is handed out for it. -/
theorem introduces_withClause (node : Sql.Node) :
    Introduces [] Plan.introduced (withClause query node build) := by
  refine introduces_ofExcept_bind fun clause => ?_
  cases clause with
  | none => exact hbuild
  | some clause =>
    dsimp only
    split
    · exact introduces_fail_bind _ _
    · refine introduces_ofExcept_bind fun ctes => ?_
      rw [withScope_eq]
      refine (introduces_withDefinitions hquery hbuild ctes).bind fun clause =>
        introduces_pure_of_eq ?_
      rw [Plan.introduced, List.append_nil]

end

/-- A query introduces only what is handed out for it, if the tier below does. -/
theorem introducesQueries_query {stored : String → Planner Plan} (hstored : IntroducesStored stored)
    {below : Tier} (hbelow : below.Introduces) : IntroducesQueries (query stored below) := by
  intro outer node
  rw [query]
  split
  · refine introduces_ofExcept_bind fun inner => (hbelow.query outer inner).bind fun plan => ?_
    exact introduces_pure_of_eq (by rw [introduced_withModifiers, List.append_nil])
  split
  · exact introduces_fail _
  · refine introduces_withClause hbelow.query ?_ node
    split
    · exact introduces_select hstored hbelow outer node
    · exact introduces_setOperation hbelow outer node

end Planner

/-! ## Tiers and stored queries -/

/-- Every tier introduces only what is handed out. -/
theorem Tier.introduces_upTo {stored : String → Planner Plan} (hstored : IntroducesStored stored)
    (height : Nat) : (Tier.upTo stored height).Introduces := by
  induction height with
  | zero =>
    exact ⟨fun _ _ => Planner.introduces_fail _,
      fun _ _ => Projecting.introduces_lift (Planner.introduces_fail _)⟩
  | succ height ih =>
    have hquery := Planner.introducesQueries_query hstored ih
    exact ⟨hquery, Resolver.introduces_step hquery ih.resolve⟩

/-- Stored queries introduce only what is handed out for them. -/
theorem Planner.introducesStored_storedQuery (open_ : Nat) :
    IntroducesStored (storedQuery open_) := by
  induction open_ with
  | zero => exact fun sql => introduces_fail _
  | succ open_ ih =>
    intro sql
    rw [storedQuery]
    refine advances_context.bind fun context => introduces_ofExcept_bind fun node => ?_
    exact introduces_within ((Tier.introduces_upTo ih node.height).query [] node)

end ColumnTrace
