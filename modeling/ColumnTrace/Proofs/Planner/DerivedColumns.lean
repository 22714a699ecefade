import ColumnTrace.Proofs.Planner.Expansion
import ColumnTrace.Proofs.Planner.PlacedQueries
import ColumnTrace.Proofs.Planner.ScalarExpressions

/-!
# Columns of a derived table

A query may stand under an alias in the `FROM` clause of another one, which selects one of its
columns. The query has there the plan that it has as a statement of its own
(`planStatement_ofDerived`). The column is referred to by its name in the form in which names are
compared, so it is found where its own name has that form (`planStatement_ofDerived_iff`); the text
by which an expression without an alias is named need not have it.
-/

set_option autoImplicit false

namespace ColumnTrace

namespace Sql.Node

/-- The query under an alias, as a relation. -/
def derived (query : Node) (source : String) : Node :=
  .mk "Subquery" [("this", .node query),
    ("alias", .node (ofKind "TableAlias" source [("this", ofName source)]))]
    { (default : Facts) with aliasText := some source }

/-- `SELECT source.name FROM (query) AS source` -/
def ofDerived (query : Node) (name source : String) : Node :=
  .mk "Select" [("expressions", .list [.node (ofColumn source name)]),
    ("from", .node (.mk "From" [("this", .node (derived query source))] default))] default

variable {query : Node} {name source : String}

/-- The nodes of the query over a derived table are its own and those of the query below. -/
theorem preorder_ofDerived : (ofDerived query name source).preorder =
    ofDerived query name source :: ((ofColumn source name).preorder ++
      (.mk "From" [("this", .node (derived query source))] default) :: derived query source ::
        (query.preorder ++ (ofKind "TableAlias" source [("this", ofName source)]).preorder)) := by
  simp [preorder, ofDerived, derived, reachable, reachableArgs, reachableItems]

/-- The query over a derived table names the tables of the query below. -/
theorem tableCount_ofDerived : (ofDerived query name source).tableCount = query.tableCount := by
  rw [tableCount, preorder_ofDerived]
  have hcolumn : (ofColumn source name).preorder.countP (·.is "Table") = 0 := rfl
  have hnaming : (ofKind "TableAlias" source [("this", ofName source)]).preorder.countP
    (·.is "Table") = 0 := rfl
  have hselect : (ofDerived query name source).is "Table" = false := rfl
  have hderived : (derived query source).is "Table" = false := rfl
  have hfrom : (Node.mk "From" [("this", .node (derived query source))] default).is "Table" =
    false := rfl
  simp [List.countP_append, hcolumn, hnaming, hselect, hderived, hfrom, tableCount]

/-- The column is qualified by the alias. -/
theorem qualifier?_ofColumn (hsource : normalize source = source) (hne : source ≠ "") :
    (ofColumn source name).qualifier? = some source := by
  have hparts : (["catalog", "db", "table"].map (ofColumn source name).textOf).filter (· != "") =
      [source] := by
    have htexts : ["catalog", "db", "table"].map (ofColumn source name).textOf =
        ["", "", source] := rfl
    rw [htexts]
    simp [hne]
  rw [qualifier?, hparts]
  simp [hsource, Text.dotted_singleton, hne]

/-- But for the column that it selects, the statement refers to what its query refers to. -/
theorem qualifiedReferences_ofDerived (hsource : normalize source = source) (hne : source ≠ "")
    {names : List String} (hnames : source ∉ names) :
    (ofDerived query name source).qualifiedReferences names = query.qualifiedReferences names := by
  have hcolumn : (ofColumn source name).qualifier?.any names.contains = false := by
    rw [qualifier?_ofColumn hsource hne]
    simpa using hnames
  have hnone : ∀ c ∈ (ofColumn source name).preorder,
      (c.is "Column" && c.qualifier?.any names.contains && !c.isStarColumn) = false := by
    intro c hc
    have hnodes : (ofColumn source name).preorder = [ofColumn source name,
      ofKind "Identifier" name [("this", .scalar (.text name))],
      ofKind "Identifier" source [("this", .scalar (.text source))]] := rfl
    rw [hnodes] at hc
    simp only [List.mem_cons, List.not_mem_nil, or_false] at hc
    rcases hc with rfl | rfl | rfl
    · rw [hcolumn, Bool.and_false, Bool.false_and]
    · rfl
    · rfl
  have hnaming : (ofKind "TableAlias" source [("this", ofName source)]).preorder.filter
      (fun c => c.is "Column" && c.qualifier?.any names.contains && !c.isStarColumn) = [] := rfl
  rw [qualifiedReferences, qualifiedReferences, preorder_ofDerived]
  rw [List.filter_cons_of_neg (by exact Bool.false_ne_true), List.filter_append,
    List.filter_eq_nil_iff.2 fun c hc => by rw [hnone c hc]; exact Bool.false_ne_true,
    List.nil_append, List.filter_cons_of_neg (by exact Bool.false_ne_true),
    List.filter_cons_of_neg (by exact Bool.false_ne_true), List.filter_append, hnaming,
    List.append_nil]

/-- The query below is lower. -/
theorem height_lt_ofDerived : query.height < (ofDerived query name source).height := by
  have hquery : query ∈ (derived query source).children := List.mem_cons_self
  have hderived : derived query source ∈
    (Node.mk "From" [("this", .node (derived query source))] default).children := List.mem_cons_self
  have hfrom : Node.mk "From" [("this", .node (derived query source))] default ∈
    (ofDerived query name source).children := List.mem_cons_of_mem _ List.mem_cons_self
  exact ((height_lt_of_mem_children hquery).trans (height_lt_of_mem_children hderived)).trans
    (height_lt_of_mem_children hfrom)

end Sql.Node

open Sql.Node

namespace Planner

variable {stored : String → Planner Plan} {query : Sql.Node} {name source : String}

/-- The source of a derived table. -/
def derivedSource (source : String) (plan : Plan) : Source := ⟨source, [source], plan.output, false⟩

/-- A derived table is planned as its query, under the alias. -/
theorem source_derived (hquery : query.isQueryOrSubquery = true)
    (hsource : normalize source = source) (hne : source ≠ "")
    (plans : Scope → Sql.Node → Planner Plan) (outer : Scope) :
    Planner.source stored plans outer (derived query source) = (do
      let plan ← plans outer query
      return ⟨plan.wrap "SubqueryAlias", derivedSource source plan⟩) := by
  have hvalues : query.is "Values" = false := by
    simp only [isQueryOrSubquery, isQuery, is, Bool.or_eq_true, beq_iff_eq] at hquery
    rcases hquery with (((h | h) | h) | h) | h <;> simp [is, h]
  have hthis : ((derived query source).arg "this").toNode = .ok query := rfl
  have hcolumns : (derived query source).aliasColumns = .ok [] := rfl
  have halias : (((derived query source).alias?.filter (· != "")).getD
      "__auto_generated_subquery_name") = source := by
    have hread : (derived query source).alias? = if source = "" then none
      else some (normalize source) := rfl
    rw [hread, if_neg hne, hsource]
    simp [Option.filter, hne]
  have hkinds : (derived query source).is "Table" = false ∧
      (derived query source).is "Values" = false ∧
      (derived query source).is "Subquery" = true := ⟨rfl, rfl, rfl⟩
  simp only [Planner.source, hkinds, hthis, hcolumns, halias, ofExcept, pure_bind, hvalues,
    if_neg Bool.false_ne_true, if_true, renameColumns, List.isEmpty_nil, derivedSource]

/-- The `FROM` clause has the derived table as its only source. -/
theorem fromClause_ofDerived (hquery : query.isQueryOrSubquery = true)
    (hsource : normalize source = source) (hne : source ≠ "")
    (plans : Scope → Sql.Node → Planner Plan) (outer : Scope) :
    fromClause stored plans outer (ofDerived query name source) = (do
      let plan ← plans outer query
      return (plan.wrap "SubqueryAlias", .ofSources [derivedSource source plan])) := by
  have hknown : knownOrUnknown stored plans outer (.node (derived query source)) = (do
      let plan ← plans outer query
      return .inl ⟨plan.wrap "SubqueryAlias", derivedSource source plan⟩) := by
    have hread : knownOrUnknown stored plans outer (.node (derived query source)) = (do
        return .inl (← Planner.source stored plans outer (derived query source))) := rfl
    rw [hread, source_derived hquery hsource hne, bind_assoc]
    simp only [pure_bind]
  have hterm : (ofDerived query name source).fromTerm = .ok (.node (derived query source)) := rfl
  have hjoins : (ofDerived query name source).joins = .ok [] := rfl
  have hnodes : ([] : List Sql.Value).mapM Sql.Value.toNode = .ok [] := rfl
  have hnamed : (ofDerived query name source).namedProjections = .ok [] := rfl
  have hthere : (Sql.Value.node (derived query source)).isThere = true := rfl
  simp only [fromClause, hterm, hjoins, hnodes, hthere, ofExcept, pure_bind, List.map_nil,
    Bool.not_true, if_neg Bool.false_ne_true, relations, List.mapM_cons, List.mapM_nil, hknown,
    bind_assoc, hnamed]
  rfl

/-- The query over a derived table is a projection to the column that is found in it. -/
theorem query_ofDerived (hquery : query.isQueryOrSubquery = true)
    (hsource : normalize source = source) (hne : source ≠ "") (height : Nat) :
    Planner.query stored (Tier.upTo stored (height + 1)) [] (ofDerived query name source) = (do
      let plan ← (Tier.upTo stored (height + 1)).query [] query
      let a ← ofExcept (Scope.column [.ofSources [derivedSource source plan]]
        (ofColumn source name))
      return .project [.column a] (plan.wrap "SubqueryAlias")) := by
  -- no named queries go before the query
  have hselect : Planner.query stored (Tier.upTo stored (height + 1)) []
      (ofDerived query name source) =
        select stored (Tier.upTo stored (height + 1)) [] (ofDerived query name source) := by
    have hkinds : (ofDerived query name source).is "Subquery" = false ∧
        (ofDerived query name source).isQuery = true ∧
        (ofDerived query name source).is "Select" = true := ⟨rfl, rfl, rfl⟩
    have hwith : (ofDerived query name source).withClause.nodeIfThere = .ok none := rfl
    simp only [Planner.query, hkinds, withClause, hwith, ofExcept, pure_bind, Bool.not_true,
      if_neg Bool.false_ne_true, if_true]
  rw [hselect, select, fromClause_ofDerived hquery hsource hne, bind_assoc]
  refine congrArg (_ >>= ·) (funext fun plan => ?_)
  rw [pure_bind]
  have haggregate : (ofDerived query name source).isAggregate = .ok false := rfl
  have hkind : (ofColumn source name).is "Column" = true := rfl
  have hstar : (ofColumn source name).is "Star" = false := rfl
  have hstarColumn : (ofColumn source name).isStarColumn = false := rfl
  have halias : (ofColumn source name).is "Alias" = false := rfl
  have hresolve : (Tier.upTo stored (height + 1)).resolve [.ofSources [derivedSource source plan]]
      (ofColumn source name) = (do
        return .column (← (ofExcept (Scope.column [.ofSources [derivedSource source plan]]
          (ofColumn source name)) : Planner Attribute))) := by
    rw [Tier.resolve_upTo_succ, Resolver.step_of_column hkind hstarColumn]
  have hlist : (Tier.upTo stored (height + 1)).resolve.selectList
      [.ofSources [derivedSource source plan]] (ofDerived query name source) = (do
        return (← [Sql.Value.node (ofColumn source name)].mapM
          ((Tier.upTo stored (height + 1)).resolve.selectItems
            [.ofSources [derivedSource source plan]])).flatten) := by
    have hentries : (ofDerived query name source).projections =
        .ok [.node (ofColumn source name)] := rfl
    rw [Resolver.selectList, hentries, Projecting.ofExcept_ok_bind]
  simp only [haggregate, ofExcept, pure_bind, if_neg Bool.false_ne_true, hlist, List.mapM_cons,
    List.mapM_nil, Resolver.selectItems_of_unnamed hstar hstarColumn halias, hresolve]
  cases Scope.column [.ofSources [derivedSource source plan]] (ofColumn source name) with
  | error e => rfl
  | ok a => rfl

end Planner

/-- The statement around a derived table has the plan that the query has as a statement of its own,
and a column of it, or it fails as the query does. -/
theorem planStatement_ofDerived {s : Surroundings} {query : Sql.Node} {name source : String}
    (hquery : query.isQueryOrSubquery = true) (hsource : normalize source = source)
    (hne : source ≠ "")
    (hfree : ∀ table ∈ query.preorder, table.is "Table" = true →
      s.catalog.knows table.qualifiedName = false → source ∉ table.sourceNames)
    (numbers : Numbers) :
    (planStatement s (ofDerived query name source) numbers).result = (do
      let plan ← (planStatement s query numbers).result
      let a ← Scope.column [.ofSources [Planner.derivedSource source plan]] (ofColumn source name)
      return .project [.column a] (plan.wrap "SubqueryAlias")) := by
  have hlower : query.height < (ofDerived query name source).height := height_lt_ofDerived
  have hpos : query.height ≠ 0 := by
    obtain ⟨kind, args, facts⟩ := query
    rw [Sql.Node.height]
    omega
  obtain ⟨height, hheight⟩ : ∃ height, (ofDerived query name source).height = height + 1 + 1 :=
    ⟨(ofDerived query name source).height - 2, by omega⟩
  have hopen : openLimit s.library (ofDerived query name source) = openLimit s.library query := by
    rw [openLimit, openLimit, tableCount_ofDerived]
  have hrefer : Places.ReferAlike ⟨s.catalog, query, ofDerived query name source⟩ query :=
    fun table htable hkind hunknown => (qualifiedReferences_ofDerived hsource hne
      (hfree table htable hkind hunknown)).symm
  have hfits : query.height ≤ height + 1 := by omega
  have hplaced := Planner.query_eq_planStatement hquery hfits hopen hrefer
  have hstep : (Tier.upTo (Planner.storedQuery (openLimit s.library (ofDerived query name source)))
      (height + 1 + 1)).query [] (ofDerived query name source) = _ :=
    Planner.query_ofDerived hquery hsource hne height
  rw [planStatement_of_query s rfl, hheight, hstep, Planner.result_bind, hplaced]
  refine congrArg (_ >>= ·) (funext fun plan => ?_)
  rw [Planner.result_bind, Planner.result_ofExcept]
  rfl

/-! ## Finding a column by its name -/

/-- The first column of the name by which it is referred to is found. -/
theorem column_derived_of_find {name source : String} {plan : Plan} {a : Attribute}
    (hsource : normalize source = source) (hne : source ≠ "")
    (h : plan.output.find? (·.name == some (normalize name)) = some a) :
    Scope.column [.ofSources [Planner.derivedSource source plan]] (ofColumn source name) =
      .ok a := by
  have hname : (ofColumn source name).normalName = some (normalize name) := rfl
  have hfind : Scope.find (some source) (some (normalize name))
      [.ofSources [Planner.derivedSource source plan]] = .ok (some a) := by
    have hframe : Frame.find (.ofSources [Planner.derivedSource source plan]) (some source)
        (some (normalize name)) = .ok (some a) := by
      simp [Frame.find, Frame.source?, Frame.ofSources, Planner.derivedSource, h]
    rw [Scope.find, hframe]
    rfl
  rw [Scope.column, qualifier?_ofColumn hsource hne, hname, hfind]
  rfl

/-- A column of a query, known by its place, whose name in the form in which names are compared no
other column has: under an alias that names no unknown table of the query, it is what the statement
around the derived table selects by its name if and only if the name has that form already. -/
theorem planStatement_ofDerived_iff {s : Surroundings} {query : Sql.Node} {name source : String}
    {numbers : Numbers} {plan : Plan} {place : Nat} {a : Attribute}
    (hquery : query.isQueryOrSubquery = true) (hsource : normalize source = source)
    (hne : source ≠ "")
    (hfree : ∀ table ∈ query.preorder, table.is "Table" = true →
      s.catalog.knows table.qualifiedName = false → source ∉ table.sourceNames)
    (hplan : (planStatement s query numbers).result = .ok plan)
    (ha : plan.output[place]? = some a) (hname : a.name = some name)
    (hother : ∀ (other : Nat) (b : Attribute), plan.output[other]? = some b → other ≠ place →
      b.name.normal ≠ a.name.normal) :
    (planStatement s (ofDerived query name source) numbers).result =
      .ok (.project [.column a] (plan.wrap "SubqueryAlias")) ↔ normalize name = name := by
  have hgiven : ∀ f : Plan → Except PlanningError Plan, (Except.ok plan >>= f) = f plan :=
    fun _ => rfl
  rw [planStatement_ofDerived hquery hsource hne hfree, hplan, hgiven]
  constructor
  · intro h
    obtain ⟨b, hcolumn, h⟩ := exists_of_bind_eq_ok h
    obtain rfl : b = a := by simpa using Except.ok.inj h
    rcases Scope.name_of_column hcolumn with hnormal | ⟨qualifier, hqualifier, hnamed⟩
    · have hread : (ofColumn source name).normalName = some (normalize name) := rfl
      rw [hread, hname] at hnormal
      exact (Option.some.inj hnormal).symm
    · rw [qualifier?_ofColumn hsource hne] at hqualifier
      rw [← Option.some.inj hqualifier, hname] at hnamed
      rw [Option.some.inj hnamed, hsource]
  · intro hnormal
    -- no other column has the name, so that the look-up cannot stop before this one
    have hfirst : plan.output.find? (·.name == some (normalize name)) = some a := by
      rw [hnormal]
      cases hfind : plan.output.find? (·.name == some name) with
      | none =>
        have hmiss := List.find?_eq_none.1 hfind a (List.mem_of_getElem? ha)
        simp [hname] at hmiss
      | some b =>
        have hb : b.name = some name := by simpa using List.find?_some hfind
        obtain ⟨other, hat⟩ := List.getElem?_of_mem (List.mem_of_find?_eq_some hfind)
        by_cases hplace : other = place
        · rw [← hplace, hat] at ha
          exact ha
        · exact absurd (by rw [hb, hname]) (hother other b hat hplace)
    rw [column_derived_of_find hsource hne hfirst]
    rfl

/-! ## A column without an alias -/

/-- `SELECT SUM(a)` without an alias, over `t`. -/
def Sql.Node.ofSum : Sql.Node :=
  let sum : Sql.Node := .mk "Sum" [("this", .node (ofColumn "t" "a"))]
    { (default : Facts) with sql := some "SUM(a)", aggregate := true }
  .ofSelect [] [sum] "t"

/-- A catalog with a table `t(a)`. -/
def Surroundings.ofOne : Surroundings :=
  { catalog := Catalog.empty.registerTable (some "t") [some "a"], library := [], engine := "spark" }

/-- `SELECT s.a FROM (SELECT t.a FROM t) AS s` -/
theorem planStatement_ofDerived_column :
    let query := Sql.Node.ofSelect [] [.ofColumn "t" "a"] "t"
    ∃ plan a, (planStatement .ofOne query .start).result = .ok plan ∧ plan.output = [a] ∧
      (planStatement .ofOne (.ofDerived query "a" "s") .start).result =
        .ok (.project [.column a] (plan.wrap "SubqueryAlias")) := by
  intro query
  let a : Attribute := ⟨1, some "a", []⟩
  let plan : Plan := .project [.column a] (.relation [a] (some ⟨"t", none, none⟩))
  have hplan : (planStatement .ofOne query .start).result = .ok plan := rfl
  have hat : plan.output[0]? = some a := rfl
  have hother : ∀ (other : Nat) (b : Attribute), plan.output[other]? = some b → other ≠ 0 →
      b.name.normal ≠ a.name.normal := by
    intro other b hb hplace
    cases other with
    | zero => exact absurd rfl hplace
    | succ other => cases hb
  exact ⟨plan, a, hplan, rfl, (planStatement_ofDerived_iff rfl (by decide) (by decide) (by decide)
    hplan hat rfl hother).2 (by decide)⟩

/-- `SELECT s.SUM(a) FROM (SELECT SUM(t.a) FROM t) AS s`, where no column has the name in the form
in which it is compared. -/
theorem planStatement_ofDerived_sum :
    ∃ plan a, (planStatement .ofOne .ofSum .start).result = .ok plan ∧ plan.output = [a] ∧
      a.name = some "SUM(a)" ∧
      (planStatement .ofOne (.ofDerived .ofSum "SUM(a)" "s") .start).result =
        .error (.unresolvedColumn (some "s") (some "sum(a)")) := by
  refine ⟨_, _, rfl, rfl, rfl, rfl⟩

end ColumnTrace
