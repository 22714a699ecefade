import ColumnTrace.Proofs.Planner.CatalogObjects
import ColumnTrace.Proofs.Planner.ClosedStatements
import ColumnTrace.Proofs.Planner.ExpansionDepth

/-!
# Views and stored results are expanded to an end

Planning a statement comes to an end within a depth that the trees give, and never expands a name
inside its own expansion. A table that is read while it is being expanded, and that is still a view
or a stored result, fails as a recursive one (`Planner.exists_recursive_of_expanding`), and so does
the planning whose run comes to it, through whatever queries and texts
(`Planner.Runs.result_eq_error`). `planStatement_expansion` says all of this.
-/

set_option autoImplicit false

namespace ColumnTrace

/-! ## Parts of a run -/

namespace Planner

variable {α β : Type} {y : Planner β} {inner context : Context} {later numbers : Numbers}

/-- A run of a computation comes to another computation, in a context and with numbers that it has
handed out by then. -/
inductive Runs (y : Planner β) (inner : Context) (later : Numbers) :
    {α : Type} → Planner α → Context → Numbers → Prop
  | here : Runs y inner later y inner later
  | first {α γ : Type} {x : Planner α} {f : α → Planner γ} {context : Context} {numbers : Numbers}
      (h : Runs y inner later x context numbers) : Runs y inner later (x >>= f) context numbers
  | next {α γ : Type} {x : Planner α} {f : α → Planner γ} {a : α} {context : Context}
      {numbers : Numbers} (ha : (x context numbers).result = .ok a)
      (h : Runs y inner later (f a) context (x context numbers).numbers) :
      Runs y inner later (x >>= f) context numbers
  | within {α : Type} {x : Planner α} {b : Bracket} {context : Context} {numbers : Numbers}
      (h : Runs y inner later x (b.change context) numbers) :
      Runs y inner later (within b x) context numbers

/-- A run that comes to a computation comes to what that one comes to. -/
theorem Runs.trans {δ : Type} {z : Planner δ} {deeper : Context} {last : Numbers} {x : Planner α}
    (hx : Runs y inner later x context numbers) (hy : Runs z deeper last y inner later) :
    Runs z deeper last x context numbers := by
  induction hx with
  | here => exact hy
  | first h ih => exact .first ih
  | next ha h ih => exact .next ha ih
  | within h ih => exact .within ih

/-- A run that comes to a failure fails with it. -/
theorem Runs.result_eq_error {x : Planner α} {e : PlanningError}
    (h : Runs y inner later x context numbers) (he : (y inner later).result = .error e) :
    (x context numbers).result = .error e := by
  induction h with
  | here => exact he
  | first h ih => rw [bind_apply, ih]
  | next ha h ih => rw [bind_apply, ha]; exact ih
  | within h ih => exact ih

/-! ## Tables that are read -/

section
variable {stored : String → Planner Plan} {table : TableName} {sql : String}
variable (hctes : table.database.isSome = true ∨ context.ctes.lookup table.qualifiedName = none)
include hctes

/-- Reading a view or a stored result out of the reach of a named query begins with the expansion of
its text. -/
theorem exists_runs_expandStored (stored : String → Planner Plan) (numbers : Numbers)
    (hfound : (context.catalog.found table.qualifiedName).sql? = some sql) :
    ∃ recursive : String → PlanningError, (∀ name, (recursive name).kind = .analysis) ∧
      Runs (expandStored stored recursive table.qualifiedName sql) context numbers
        (resolveTable stored table) context numbers := by
  have hread : ∀ rest : Option CteDefinition → Planner Plan, ∀ x : Planner Plan,
      Runs x context numbers (rest none) context numbers → Runs x context numbers
        (if table.database.isSome then pure none >>= rest
          else findCte? table.qualifiedName >>= rest) context numbers := by
    intro rest x h
    by_cases hdatabase : table.database.isSome = true
    · rw [if_pos hdatabase, pure_bind]
      exact h
    · rw [if_neg hdatabase]
      exact .next (congrArg Except.ok (hctes.resolve_left hdatabase)) h
  unfold Catalog.found at hfound
  cases hcached : context.catalog.cachedQuery? table.qualifiedName with
  | some found =>
    rw [hcached] at hfound
    obtain rfl := Option.some.inj hfound
    refine ⟨.recursiveCache, fun _ => rfl, hread _ _ (.next rfl ?_)⟩
    simp only [hcached]
    exact .first .here
  | none =>
    cases hview : context.catalog.view? table.qualifiedName with
    | some definition =>
      rw [hcached, hview] at hfound
      obtain rfl := Option.some.inj hfound
      refine ⟨.recursiveView, fun _ => rfl, hread _ _ (.next rfl ?_)⟩
      simp only [hcached, hview]
      exact .first .here
    | none =>
      rw [hcached, hview] at hfound
      cases hfound

/-- A table that is read while it is being expanded, and that is a view or a stored result out of
the reach of a named query, fails as a recursive one. -/
theorem exists_recursive_of_expanding (numbers : Numbers)
    (hfound : (context.catalog.found table.qualifiedName).sql? = some sql)
    (hexpanding : table.qualifiedName ∈ context.expanding) :
    ∃ e, e.kind = .analysis ∧
      (resolveTable stored table context numbers).result = .error e := by
  obtain ⟨recursive, hkind, hruns⟩ := exists_runs_expandStored hctes stored numbers hfound
  refine ⟨recursive table.qualifiedName, hkind _, hruns.result_eq_error ?_⟩
  have hcontains : context.expanding.contains table.qualifiedName = true :=
    List.contains_iff_mem.2 hexpanding
  rw [expandStored, context_bind_apply, if_pos hcontains]
  rfl

/-- A run comes to the text of a view or a stored result that is not being expanded yet. -/
theorem runs_stored_of_resolveTable
    (hfound : (context.catalog.found table.qualifiedName).sql? = some sql)
    (hnew : table.qualifiedName ∉ context.expanding) :
    Runs (stored sql) { context with expanding := table.qualifiedName :: context.expanding }
      numbers (resolveTable stored table) context numbers := by
  obtain ⟨recursive, -, hruns⟩ := exists_runs_expandStored hctes stored numbers hfound
  apply hruns.trans
  have hcontains : ¬ context.expanding.contains table.qualifiedName = true := fun h =>
    hnew (List.contains_iff_mem.1 h)
  apply Runs.next rfl
  simp only [if_neg hcontains]
  exact .within .here

end

end Planner

/-! ## Runs of queries and texts -/

/-- The node is a simple query without a `WITH` clause that reads one table. -/
structure Sql.Node.ReadsTable (node term : Sql.Node) : Prop where
  select : node.is "Select" = true
  noWith : node.withClause.nodeIfThere = .ok none
  fromTerm : node.fromTerm = .ok (.node term)
  isTable : term.is "Table" = true
  joins : node.joins = .ok []

namespace Planner

variable {context : Context} {numbers : Numbers}

section
variable {stored : String → Planner Plan} {node term : Sql.Node}

/-- A run comes to the statement of a text. -/
theorem runs_onText {sql : String} {x : Sql.Node → Planner Plan}
    (hfirst : context.library.first sql = .ok node) :
    Runs (x node) { context with root := node, ctes := [] } numbers (onText sql x) context
      numbers := by
  apply Runs.next rfl
  simp only [hfirst]
  exact .next rfl (.within .here)

/-- A table that the catalog knows is not unknown. -/
theorem isUnknownTable_of_knows (h : context.catalog.knows term.qualifiedName = true) :
    isUnknownTable term context numbers = ⟨numbers, [], .ok false⟩ := by
  unfold isUnknownTable
  split
  · rfl
  · dsimp only
    rw [findCte?_bind_apply]
    split
    · rfl
    · rw [catalog_bind_apply]
      show (⟨numbers, [], .ok (!context.catalog.knows term.qualifiedName)⟩ : Outcome Bool) = _
      rw [h]
      rfl

/-- A simple query without a `WITH` clause is planned as one. -/
theorem query_of_readsTable {below : Tier} {outer : Scope} (hreads : node.ReadsTable term) :
    query stored below outer node = select stored below outer node := by
  have hkind : node.kind = "Select" := beq_iff_eq.1 hreads.select
  simp [query, Sql.Node.isQuery, Sql.Node.is, hkind, withClause, hreads.noWith, ofExcept]

/-- A run of a query comes to the table that it reads, where the table is known. -/
theorem runs_resolveTable_of_query {below : Tier} {outer : Scope} (hreads : node.ReadsTable term)
    (hknown : context.catalog.knows term.qualifiedName = true) :
    Runs (resolveTable stored term.tableName) context numbers (query stored below outer node)
      context numbers := by
  have hsource : Runs (resolveTable stored term.tableName) context numbers
      (knownOrUnknown stored below.query outer (.node term)) context numbers := by
    have htable : source stored below.query outer term = table stored term := by
      rw [source, if_pos hreads.isTable]
    have hknown : isUnknownTable term context numbers = ⟨numbers, [], .ok false⟩ :=
      isUnknownTable_of_knows hknown
    apply Runs.next rfl
    apply Runs.next (congrArg Outcome.result hknown)
    simp only [hknown, Bool.false_eq_true, if_false, htable]
    exact .first (.first .here)
  have hfrom : Runs (resolveTable stored term.tableName) context numbers
      (fromClause stored below.query outer node) context numbers := by
    have hthere : (Sql.Value.node term).isThere = true := rfl
    have hnodes : ([] : List Sql.Value).mapM Sql.Value.toNode = .ok [] := rfl
    simp only [fromClause, hreads.fromTerm, hreads.joins, ofExcept, pure_bind, hthere,
      Bool.not_true, Bool.false_eq_true, if_false, hnodes, List.map_nil, relations,
      List.mapM_cons]
    exact .first (.first (.first hsource))
  rw [query_of_readsTable hreads]
  exact .first hfrom

/-- A tree is planned through some tier below its height. -/
theorem exists_query_upTo (stored : String → Planner Plan) (node : Sql.Node) :
    ∃ below, (Tier.upTo stored node.height).query = query stored below := by
  obtain ⟨kind, args, facts⟩ := node
  exact ⟨Tier.upTo stored (Sql.Node.argsHeight args), by rw [Sql.Node.height]; rfl⟩

/-- A run of a stored text comes to the table that its query reads. -/
theorem runs_resolveTable_of_storedQuery (context : Context) {sql : String} {open_ : Nat}
    (hfirst : context.library.first sql = .ok node) (hreads : node.ReadsTable term)
    (hknown : context.catalog.knows term.qualifiedName = true) :
    Runs (resolveTable (storedQuery open_) term.tableName)
      { context with root := node, ctes := [] } numbers (storedQuery (open_ + 1) sql) context
      numbers := by
  obtain ⟨below, hbelow⟩ := exists_query_upTo (storedQuery open_) node
  rw [storedQuery_succ]
  refine (runs_onText hfirst).trans ?_
  rw [hbelow]
  exact runs_resolveTable_of_query hreads hknown

/-- A run that reads a view or a stored result comes to the table that its query reads, one level
deeper, where the table is not being expanded yet. -/
theorem runs_resolveTable_of_resolveTable (context : Context) {table : TableName} {sql : String}
    {open_ : Nat}
    (hctes : table.database.isSome = true ∨ context.ctes.lookup table.qualifiedName = none)
    (hfound : (context.catalog.found table.qualifiedName).sql? = some sql)
    (hnew : table.qualifiedName ∉ context.expanding)
    (hfirst : context.library.first sql = .ok node) (hreads : node.ReadsTable term)
    (hknown : context.catalog.knows term.qualifiedName = true) :
    Runs (resolveTable (storedQuery open_) term.tableName)
      { context with
        root := node, ctes := [], expanding := table.qualifiedName :: context.expanding }
      numbers (resolveTable (storedQuery (open_ + 1)) table) context numbers :=
  have htext := runs_resolveTable_of_storedQuery
    { context with expanding := table.qualifiedName :: context.expanding } hfirst hreads hknown
  (runs_stored_of_resolveTable hctes hfound hnew).trans htext

/-- A run of a statement that is a query comes to the table that it reads. -/
theorem runs_resolveTable_of_statement (hreads : node.ReadsTable term)
    (hknown : context.catalog.knows term.qualifiedName = true) :
    Runs (resolveTable stored term.tableName) context numbers
      (statement stored (Tier.upTo stored node.height) node) context numbers := by
  have halter : ∀ engine, node.alterView? engine = .ok none :=
    Sql.Node.alterView?_eq_none hreads.select (by decide) (by decide)
  obtain ⟨below, hbelow⟩ := exists_query_upTo stored node
  apply Runs.next rfl
  simp only [halter, ofExcept, pure_bind, Sql.Node.isQueryOrSubquery, Sql.Node.isQuery,
    hreads.select, Bool.true_or, if_true, hbelow]
  exact runs_resolveTable_of_query hreads hknown

end

end Planner

/-! ## Statements -/

/-- A statement that is a query is planned as a query in what is known around it. -/
theorem planStatement_of_query (s : Surroundings) {statement : Sql.Node}
    (hquery : statement.isQueryOrSubquery = true) (numbers : Numbers) :
    planStatement s statement numbers =
      (Tier.upTo (Planner.storedQuery (openLimit s.library statement)) statement.height).query []
        statement (s.context statement) numbers := by
  have halter : statement.alterView? s.engine = .ok none := by
    simp only [Sql.Node.isQueryOrSubquery, Sql.Node.isQuery, Bool.or_eq_true] at hquery
    rcases hquery with (((h | h) | h) | h) | h
    all_goals exact Sql.Node.alterView?_eq_none h (by decide) (by decide) s.engine
  rw [planStatement_eq, Surroundings.planner, Planner.statement, Planner.context_bind_apply]
  simp only [Surroundings.context, halter, hquery, Planner.ofExcept, pure_bind, if_true]

/-- Planning ends within a depth that the trees give: as many levels of the recursion give the plan
of a statement, whatever stands below them. No name is expanded inside its own expansion: the plan
is the same, whatever the planning of a text gives where names that are being expanded repeat. And
where the planning reads a table that is being expanded, out of the reach of a named query, and that
still is a view or a stored result, it fails with an analysis error. -/
theorem planStatement_expansion (s : Surroundings) (statement : Sql.Node) (numbers : Numbers) :
    (∀ (p : Planning) (k : Nat), depthLimit s.library statement ≤ k →
      (p.levels k).plan s statement numbers = planStatement s statement numbers) ∧
    (∀ P : Nat → Planning, (∀ k, (P k).Unfolds (P (k + 1))) →
      ∀ k, depthLimit s.library statement ≤ k →
        (P k).plan s statement numbers = planStatement s statement numbers) ∧
    ∀ (stored : String → Planner Plan) (table : TableName) (context : Context) (later : Numbers),
      Planner.Runs (Planner.resolveTable stored table) context later (s.planner statement)
        (s.context statement) numbers →
      (table.database.isSome = true ∨ context.ctes.lookup table.qualifiedName = none) →
      ((context.catalog.cachedQuery? table.qualifiedName).isSome = true ∨
        (context.catalog.view? table.qualifiedName).isSome = true) →
      table.qualifiedName ∈ context.expanding →
      ∃ e, e.kind = .analysis ∧ (planStatement s statement numbers).result = .error e := by
  refine ⟨?_, ?_, ?_⟩
  · intro p k hk
    exact congrFun (Planning.plan_eq_planStatement p.unfolds_levels s statement hk) numbers
  · intro P hP k hk
    exact congrFun (Planning.plan_eq_planStatement hP s statement hk) numbers
  · intro stored table context later hruns hctes hthere hexpanding
    obtain ⟨sql, hsql⟩ := Option.isSome_iff_exists.1 (Catalog.isSome_sql?_found.2 hthere)
    obtain ⟨e, hkind, hfails⟩ :=
      Planner.exists_recursive_of_expanding hctes later hsql hexpanding
    rw [planStatement_eq]
    exact ⟨e, hkind, hruns.result_eq_error hfails⟩

/-! ## A view and a stored result that read each other -/

/-- A view `v` of `SELECT c.a FROM c` and the stored result `c` of `SELECT v.a FROM v`. -/
def Surroundings.ofCycle : Surroundings :=
  { catalog := (Catalog.empty.registerView (some "v") "of v" [] false).registerCache (some "c")
      "of c"
    library := [("of v", .ok [some (.ofSelect [] [.ofColumn "c" "a"] "c")]),
      ("of c", .ok [some (.ofSelect [] [.ofColumn "v" "a"] "v")])]
    engine := "spark" }

/-- A table of a name. -/
def Sql.Node.ofTable (name : String) : Sql.Node := ofKind "Table" name [("this", ofName name)]

/-- The simple query over a table reads it. -/
theorem Sql.Node.readsTable_ofSelect (entries : List Sql.Node) (table : String) :
    (ofSelect [] entries table).ReadsTable (ofTable table) :=
  ⟨rfl, rfl, rfl, rfl, rfl⟩

/-- The view and the stored result that read each other come to a read inside the expansion of the
view, and the statement fails there. -/
theorem planStatement_expansion_ofCycle :
    let statement := Sql.Node.ofSelect [] [.ofColumn "v" "a"] "v"
    (∀ p : Planning, (p.levels 100).plan .ofCycle statement .start =
      planStatement .ofCycle statement .start) ∧
    ∃ e, e.kind = .analysis ∧ (planStatement .ofCycle statement .start).result = .error e := by
  intro statement
  let v : TableName := (Sql.Node.ofTable "v").tableName
  let c : TableName := (Sql.Node.ofTable "c").tableName
  let first : Context := Surroundings.ofCycle.context statement
  let second : Context := { first with
    root := .ofSelect [] [.ofColumn "c" "a"] "c", expanding := [v.qualifiedName] }
  let third : Context := { first with
    root := statement, expanding := [c.qualifiedName, v.qualifiedName] }
  have hopen : openLimit Surroundings.ofCycle.library statement = 4 := by decide +kernel
  have hknown : ∀ name ∈ ["v", "c"],
      first.catalog.knows (Sql.Node.ofTable name).qualifiedName = true := by decide +kernel
  have hfirst : Planner.Runs (Planner.resolveTable (Planner.storedQuery 4) v) first .start
      (Surroundings.ofCycle.planner statement) first .start := by
    rw [Surroundings.planner, hopen]
    exact Planner.runs_resolveTable_of_statement (Sql.Node.readsTable_ofSelect _ "v")
      (hknown "v" (by decide))
  have hsecond : Planner.Runs (Planner.resolveTable (Planner.storedQuery 3) c) second .start
      (Planner.resolveTable (Planner.storedQuery 4) v) first .start := by
    have hfound : (first.catalog.found v.qualifiedName).sql? = some "of v" := by decide +kernel
    exact Planner.runs_resolveTable_of_resolveTable first (.inr rfl) hfound List.not_mem_nil rfl
      (Sql.Node.readsTable_ofSelect _ "c") (hknown "c" (by decide))
  have hthird : Planner.Runs (Planner.resolveTable (Planner.storedQuery 2) v) third .start
      (Planner.resolveTable (Planner.storedQuery 3) c) second .start := by
    have hfound : (second.catalog.found c.qualifiedName).sql? = some "of c" := by decide +kernel
    have hnew : c.qualifiedName ∉ second.expanding := by decide +kernel
    exact Planner.runs_resolveTable_of_resolveTable second (.inr rfl) hfound hnew rfl
      (Sql.Node.readsTable_ofSelect _ "v") (hknown "v" (by decide))
  obtain ⟨hdepth, -, hrecursive⟩ := planStatement_expansion .ofCycle statement .start
  refine ⟨fun p => hdepth p 100 (by decide +kernel), ?_⟩
  exact hrecursive (Planner.storedQuery 2) v third .start
    (hfirst.trans (hsecond.trans hthird)) (.inr rfl) (.inr (by decide +kernel))
    (List.mem_cons_of_mem _ List.mem_cons_self)

end ColumnTrace
