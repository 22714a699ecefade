import ColumnTrace.Proofs.FittingTrees
import ColumnTrace.Proofs.Planner.CatalogObjects
import ColumnTrace.Proofs.Planner.ClosedStatements
import ColumnTrace.Session

/-!
# What a read finds after a creation

A statement that creates an object writes it into one of the three maps of the catalog and leaves
the others as they are. So a read right after the statement finds the new object if and only if no
older object of the name is looked up before it, and else it finds that older one
(`Session.found_after_creation_iff`).
-/

set_option autoImplicit false

namespace ColumnTrace

/-! ## Statements that create an object -/

namespace Sql.Node

/-- The statement creates the name: `CREATE TABLE name AS query`, `CREATE TABLE name (columns)`,
`CREATE VIEW name AS query` or `CACHE TABLE name AS query`. -/
inductive IsCreation (statement : Sql.Node) (name : TableName) : Prop
  | tableAs {table query : Sql.Node} {columns : List Label}
      (hcreate : statement.is "Create" = true) (hkind : statement.createKind = .ok "TABLE")
      (hquery : statement.expression?.filter isQueryOrSubquery = some query)
      (htarget : statement.createTarget = .ok (table, columns)) (hname : table.tableName = name)
  | tableOf {table : Sql.Node} {columns defined : List Label}
      (hcreate : statement.is "Create" = true) (hkind : statement.createKind = .ok "TABLE")
      (hquery : statement.expression?.filter isQueryOrSubquery = none)
      (hdefined : statement.columnDefinitions = .ok defined) (hne : defined ≠ [])
      (htarget : statement.createTarget = .ok (table, columns)) (hname : table.tableName = name)
  | view {table query : Sql.Node} {columns : List Label}
      (hcreate : statement.is "Create" = true) (hkind : statement.createKind = .ok "VIEW")
      (hquery : statement.expression?.filter isQueryOrSubquery = some query)
      (htarget : statement.createTarget = .ok (table, columns)) (hname : table.tableName = name)
  | cache {table query : Sql.Node} (hcache : statement.is "Cache" = true)
      (htable : statement.this?.filter (·.is "Table") = some table)
      (hquery : (statement.arg "expression").nodeIfThere = .ok (some query))
      (hname : table.tableName = name)

end Sql.Node

namespace Planner

variable {stored : String → Planner Plan} {tier : Tier} {node query table : Sql.Node}
variable {columns : List Label} {context : Context} {numbers : Numbers} {plan : Plan}

/-- A creation is planned as one. -/
theorem statement_of_create (h : node.is "Create" = true) :
    statement stored tier node context numbers = create tier node context numbers := by
  have hkind := h
  rw [Sql.Node.is, beq_iff_eq] at hkind
  rw [statement, context_bind_apply,
    Sql.Node.alterView?_eq_none h (by decide) (by decide)]
  simp [ofExcept, Sql.Node.isQueryOrSubquery, Sql.Node.isQuery, Sql.Node.is, hkind]

/-- The plan of a `CACHE TABLE` has no data flow. -/
theorem statement_of_cache (h : node.is "Cache" = true) :
    statement stored tier node context numbers =
      ⟨numbers, [], .ok (.operator "CacheTableAsSelect" [] [])⟩ := by
  have hkind := h
  rw [Sql.Node.is, beq_iff_eq] at hkind
  rw [statement, context_bind_apply,
    Sql.Node.alterView?_eq_none h (by decide) (by decide)]
  simp [ofExcept, Sql.Node.isQueryOrSubquery, Sql.Node.isQuery, Sql.Node.is, hkind, pure_apply]

/-- A table with a query is planned as the creation of a table. -/
theorem exists_createTable_of_create (hkind : node.createKind = .ok "TABLE")
    (hquery : node.expression?.filter Sql.Node.isQueryOrSubquery = some query)
    (htarget : node.createTarget = .ok (table, columns))
    (h : (create tier node context numbers).result = .ok plan) :
    ∃ inner, plan = .createTable table.tableName inner node.isReplace := by
  have hview : ¬ "TABLE" = "VIEW" := by decide
  simp only [create, hkind, hquery, htarget, ofExcept, pure_bind, if_neg hview, if_true] at h
  obtain ⟨inner, -, h⟩ := result_bind_eq_ok.1 h
  exact ⟨inner, (Except.ok.inj h).symm⟩

/-- A view with a query is planned as the creation of a view. -/
theorem exists_createView_of_create (hkind : node.createKind = .ok "VIEW")
    (hquery : node.expression?.filter Sql.Node.isQueryOrSubquery = some query)
    (htarget : node.createTarget = .ok (table, columns))
    (h : (create tier node context numbers).result = .ok plan) :
    ∃ inner type, plan = .createView table.tableName inner type columns := by
  simp only [create, hkind, hquery, htarget, ofExcept, pure_bind, if_true] at h
  obtain ⟨inner, -, h⟩ := result_bind_eq_ok.1 h
  obtain ⟨type, -, h⟩ := result_bind_eq_ok.1 h
  exact ⟨inner, type, (Except.ok.inj h).symm⟩

/-- A creation without a query has no data flow. -/
theorem eq_operator_of_create {kind : String} (hkind : node.createKind = .ok kind)
    (hquery : node.expression?.filter Sql.Node.isQueryOrSubquery = none)
    (h : (create tier node context numbers).result = .ok plan) :
    plan = .operator ("Create" ++ Text.titled kind) [] [] := by
  simp only [create, hkind, hquery, ofExcept, pure_bind] at h
  exact (Except.ok.inj h).symm

end Planner

namespace Session

variable {s : Session} {statement : Sql.Node} {plan : Plan} {name : TableName}
variable {object : CatalogObject} {lineage : StatementLineage}

/-- What a statement with this plan creates under the name: a table with the columns of its query or
the columns that are defined one by one, a view of its query's text, or the stored result of its
query's text. -/
inductive Creates (s : Session) (statement : Sql.Node) (plan : Plan) (name : TableName) :
    CatalogObject → Prop
  | tableAs {query : Plan} {replace : Bool} (hplan : plan = .createTable name query replace) :
      Creates s statement plan name (.table (query.output.map fun a => a.name.normal))
  | tableOf {columns : List Label} (hcreate : statement.is "Create" = true)
      (hquery : statement.expression?.filter Sql.Node.isQueryOrSubquery = none)
      (hcolumns : statement.columnDefinitions = .ok columns) :
      Creates s statement plan name (.table (columns.map Label.normal))
  | view {query : Plan} {type : ViewType} {columns : List Label} {text : Sql.Node} {sql : String}
      (hplan : plan = .createView name query type columns)
      (htext : statement.arg "expression" = .node text) (hsql : text.write s.engine = .ok sql) :
      Creates s statement plan name
        (.view ⟨sql, columns.map Label.normal, type ≠ .persisted⟩)
  | cache {text : Sql.Node} {sql : String} (hcache : statement.is "Cache" = true)
      (htext : statement.arg "expression" = .node text) (hsql : text.write s.engine = .ok sql) :
      Creates s statement plan name (.cache sql)

/-- A statement that is planned and executed to its end is applied to the catalog. -/
theorem applied_of_execute
    (hplan : (runStatement s.surroundings statement s.planner).result = .ok plan)
    (hdone : (s.execute statement).result = .ok lineage) :
    s.applied statement plan = .ok (s.execute statement).session.catalog := by
  unfold execute at hdone ⊢
  dsimp only at hdone ⊢
  cases hwrite : statement.write s.engine with
  | error e =>
    rw [hwrite] at hdone
    cases hdone
  | ok sql =>
    have hplanned : (runStatement (surroundings ⟨s.catalog, s.library, s.engine, s.settings,
        s.planner, s.nextId + 1⟩) statement s.planner).result = .ok plan := hplan
    have hsame : ∀ planner nextId, applied ⟨s.catalog, s.library, s.engine, s.settings, planner,
        nextId⟩ statement plan = s.applied statement plan := fun _ _ => rfl
    simp only [hwrite, hplanned, hsame] at hdone ⊢
    cases happlied : s.applied statement plan with
    | error e =>
      rw [happlied] at hdone
      cases hdone
    | ok after => rfl

/-- A table whose columns are defined one by one is registered with them. -/
theorem applied_columns {kind : String} {table : Sql.Node} {columns defined : List Label}
    (hcreate : statement.is "Create" = true) (hkind : statement.createKind = .ok "TABLE")
    (hdefined : statement.columnDefinitions = .ok defined) (hne : defined ≠ [])
    (htarget : statement.createTarget = .ok (table, columns)) :
    s.applied statement (.operator kind [] []) =
      .ok (s.catalog.registerTable table.qualifiedName defined) := by
  have hfilled : defined.isEmpty = false := List.isEmpty_eq_false_iff.2 hne
  simp [applied, hcreate, hkind, hdefined, htarget, hfilled, bind, Except.bind, pure, Except.pure]

/-- A view is put into the catalog with the text of its query. -/
theorem applied_view {after : Catalog} {query : Plan} {type : ViewType} {columns : List Label}
    (h : s.applied statement (.createView name query type columns) = .ok after) :
    ∃ text sql, statement.arg "expression" = .node text ∧ text.write s.engine = .ok sql ∧
      after = s.catalog.put name.qualifiedName
        (.view ⟨sql, columns.map Label.normal, type ≠ .persisted⟩) := by
  obtain ⟨text, htext, h⟩ := exists_of_bind_eq_ok h
  obtain ⟨sql, hsql, h⟩ := exists_of_bind_eq_ok h
  refine ⟨text, sql, ?_, hsql, ?_⟩
  · cases harg : statement.arg "expression" with
    | node found =>
      rw [harg] at htext
      exact congrArg Sql.Value.node (Except.ok.inj htext)
    | _ =>
      rw [harg] at htext
      cases htext
  · rw [← Catalog.registerView_eq_put]
    exact (Except.ok.inj h).symm

/-- A stored result is put into the catalog with the text of its query. -/
theorem applied_cache {after : Catalog} {kind : String} {table text : Sql.Node}
    (hcache : statement.is "Cache" = true)
    (htable : statement.this?.filter (·.is "Table") = some table)
    (htext : statement.arg "expression" = .node text)
    (h : s.applied statement (.operator kind [] []) = .ok after) :
    ∃ sql, text.write s.engine = .ok sql ∧
      after = s.catalog.put table.qualifiedName (.cache sql) := by
  have hcreate : statement.is "Create" = false := by
    rw [Sql.Node.is, beq_iff_eq] at hcache
    rw [Sql.Node.is, hcache]
    rfl
  have hthere : (Sql.Value.node text).nodeIfThere = .ok (some text) := rfl
  simp only [applied, hcreate, hcache, Bool.false_eq_true, if_false, if_true,
    Sql.Node.cacheTarget, htable, htext] at h
  obtain ⟨target, htarget, h⟩ := exists_of_bind_eq_ok h
  obtain rfl := Except.ok.inj htarget
  dsimp only at h
  rw [hthere] at h
  obtain ⟨found, hfound, h⟩ := exists_of_bind_eq_ok h
  obtain rfl := Except.ok.inj hfound
  obtain ⟨sql, hsql, h⟩ := exists_of_bind_eq_ok h
  refine ⟨sql, hsql, ?_⟩
  rw [← Catalog.registerCache_eq_put]
  exact (Except.ok.inj h).symm

/-- A creation that is planned and executed to its end puts an object under its name. -/
theorem exists_object_of_isCreation
    (hplan : (runStatement s.surroundings statement s.planner).result = .ok plan)
    (hdone : (s.execute statement).result = .ok lineage)
    (hcreation : statement.IsCreation name) :
    ∃ object, s.Creates statement plan name object ∧
      (s.execute statement).session.catalog = s.catalog.put name.qualifiedName object := by
  have happlied := applied_of_execute hplan hdone
  rw [runStatement_eq, Surroundings.planner, Outcome.leaving] at hplan
  cases hcreation with
  | tableAs hcreate hkind hquery htarget hname =>
    rw [Planner.statement_of_create hcreate] at hplan
    obtain ⟨inner, rfl⟩ := Planner.exists_createTable_of_create hkind hquery htarget hplan
    subst hname
    refine ⟨_, .tableAs rfl, ?_⟩
    rw [← Except.ok.inj happlied, Catalog.registerTable_eq_put, List.map_map]
    rfl
  | tableOf hcreate hkind hquery hdefined hne htarget hname =>
    rw [Planner.statement_of_create hcreate] at hplan
    obtain rfl := Planner.eq_operator_of_create hkind hquery hplan
    subst hname
    refine ⟨_, .tableOf hcreate hquery hdefined, ?_⟩
    rw [applied_columns hcreate hkind hdefined hne htarget] at happlied
    exact (Except.ok.inj happlied).symm
  | view hcreate hkind hquery htarget hname =>
    rw [Planner.statement_of_create hcreate] at hplan
    obtain ⟨inner, type, rfl⟩ := Planner.exists_createView_of_create hkind hquery htarget hplan
    subst hname
    obtain ⟨text, sql, htext, hsql, hafter⟩ := applied_view happlied
    exact ⟨_, .view rfl htext hsql, hafter⟩
  | cache hcache htable hquery hname =>
    rw [Planner.statement_of_cache hcache] at hplan
    obtain rfl := Except.ok.inj hplan
    subst hname
    have htext := Sql.Value.eq_node_of_nodeIfThere hquery
    obtain ⟨sql, hsql, hafter⟩ := applied_cache hcache htable htext happlied
    exact ⟨_, .cache hcache htext hsql, hafter⟩

/-- After a creation that is planned and executed to its end, its name stands for the object that it
creates if and only if nothing of the name is looked up before the object; else the name stands for
what it stood for. The name is known, under whatever spelling, and a read of it gives what it stands
for, unless a named query of the name is in reach. -/
theorem found_after_creation_iff
    (hplan : (runStatement s.surroundings statement s.planner).result = .ok plan)
    (hdone : (s.execute statement).result = .ok lineage)
    (hcreation : statement.IsCreation name) :
    let after := (s.execute statement).session.catalog
    ∃ object, s.Creates statement plan name object ∧
      (after.found name.qualifiedName = object ↔
        s.catalog.hides name.qualifiedName object = false) ∧
      (s.catalog.hides name.qualifiedName object = true →
        after.found name.qualifiedName = s.catalog.found name.qualifiedName) ∧
      (∀ other, Label.normal other = Label.normal name.qualifiedName →
        after.knows other = true) ∧
      ∀ (stored : String → Planner Plan) (table : TableName) (context : Context)
        (numbers : Numbers),
        Label.normal table.qualifiedName = Label.normal name.qualifiedName →
        context.catalog = after →
        (table.database.isSome = true ∨ context.ctes.lookup table.qualifiedName = none) →
        Planner.resolveTable stored table context numbers =
            (after.found name.qualifiedName).read stored table context numbers ∧
          ∀ read, (Planner.resolveTable stored table context numbers).result = .ok read →
            (after.found name.qualifiedName).Shows stored table context numbers read := by
  intro after
  obtain ⟨object, hcreates, hafter⟩ := exists_object_of_isCreation hplan hdone hcreation
  have hafter : after = s.catalog.put name.qualifiedName object := hafter
  refine ⟨object, hcreates, ?_, ?_, ?_, ?_⟩
  · rw [hafter]
    exact Catalog.found_put_eq_iff
  · intro hhides
    rw [hafter, Catalog.found_put, if_pos hhides]
  · intro other hother
    rw [hafter]
    exact Catalog.knows_put hother
  · intro stored table context numbers hname hcatalog hctes
    have hread := @Planner.resolveTable_eq_read stored table context numbers hctes
    rw [hcatalog, Catalog.found_congr hname] at hread
    refine ⟨hread, fun read hok => ?_⟩
    rw [hread] at hok
    exact CatalogObject.shows_of_read hok

end Session

/-! ## A table under the name of a stored result -/

namespace Session

/-- `CREATE TABLE n (b)` -/
def creation : Sql.Node :=
  let table := Sql.Node.ofKind "Table" "n" [("this", Sql.Node.ofName "n")]
  let column := Sql.Node.ofKind "ColumnDef" "b" [("this", Sql.Node.ofName "b")]
  .mk "Create" [("this", .node (.mk "Schema" [("this", .node table),
      ("expressions", .list [.node column])] default)), ("kind", .scalar (.text "TABLE"))]
    { (default : Sql.Facts) with sql := some "CREATE TABLE n (b)" }

/-- A session with a table `t(a)` and what the catalog has beside it. -/
def withTable (more : Catalog → Catalog) : Session :=
  let query := Sql.Node.ofSelect [] [.ofColumn "t" "a"] "t"
  start (more (Catalog.empty.registerTable (some "t") [some "a"]))
    [("query", .ok [some query])] "spark" ⟨false, 512, Nat.succ_pos 511⟩

/-- `CREATE TABLE n (b)` creates `n`. -/
theorem isCreation_creation : creation.IsCreation ⟨"n", none, none⟩ :=
  .tableOf rfl rfl rfl rfl (List.cons_ne_nil _ _) rfl rfl

/-- A table is found where its name stood for nothing before. -/
theorem found_after_creation_withTable : ∃ plan lineage object,
    let s := withTable id
    (runStatement s.surroundings creation s.planner).result = .ok plan ∧
      (s.execute creation).result = .ok lineage ∧
      s.Creates creation plan ⟨"n", none, none⟩ object ∧
      (s.execute creation).session.catalog.found (some "n") = object := by
  have hdone : ∃ lineage, ((withTable id).execute creation).result = .ok lineage := ⟨_, rfl⟩
  obtain ⟨lineage, hdone⟩ := hdone
  obtain ⟨object, hcreates, hfound, -, -, -⟩ :=
    found_after_creation_iff rfl hdone isCreation_creation
  refine ⟨_, lineage, object, rfl, hdone, hcreates, hfound.2 ?_⟩
  cases object <;> rfl

/-- After `CACHE TABLE n AS query` and `CREATE TABLE n (b)`, `SELECT n.a FROM n` reads the stored
result still. -/
theorem cached_after_creation_withTable :
    let s := withTable fun c => c.registerCache (some "n") "query"
    let after := (s.execute creation).session
    let read := Sql.Node.ofSelect [] [.ofColumn "n" "a"] "n"
    creation.IsCreation ⟨"n", none, none⟩ ∧
      (∃ plan lineage, (runStatement s.surroundings creation s.planner).result = .ok plan ∧
        (s.execute creation).result = .ok lineage) ∧
      after.catalog.columns (some "n") = [some "b"] ∧
      ∃ items output physical,
        (runStatement after.surroundings read after.planner).result =
          .ok (.project items (.cached output physical (some "n"))) :=
  ⟨isCreation_creation, ⟨_, _, rfl, rfl⟩, rfl, _, _, _, rfl⟩

end Session

end ColumnTrace
