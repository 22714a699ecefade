import ColumnTrace.Proofs.Planner.Ensures
import ColumnTrace.Proofs.Planner.SoundPlans

/-!
# Planned expressions

An expression reads columns that are in scope where it is resolved, and those of the window
functions that were taken out of it; its subqueries are sound among the rows of that scope
(`Resolver.fits_step`). So are select lists and grouping terms, and a grouped query is sound over a
sound source (`Resolver.Fits.aggregate`).
-/

set_option autoImplicit false

namespace ColumnTrace

/-- The columns of the relations of a query. -/
def Frame.columns (frame : Frame) : List Attribute := frame.sources.flatMap Source.output

/-- The columns of all relations that a query sees. -/
def Scope.columns (scope : Scope) : List Attribute := scope.flatMap Frame.columns

/-- The named queries in scope by number, each with the number of its columns. -/
def Context.arities (context : Context) : List (Int × Nat) :=
  context.ctes.map fun entry => (entry.2.id, entry.2.child.output.length)

/-- The named queries in scope have different numbers, all of them below the bound. -/
structure Context.NumbersBelow (context : Context) (bound : Nat) : Prop where
  nodup : (context.arities.map Prod.fst).Nodup
  below : ∀ id ∈ context.arities.map Prod.fst, id < bound

/-! ## Columns in scope -/

/-- A source that is found by its name is one of the frame. -/
theorem Frame.source?_mem {frame : Frame} {name : String} {source : Source}
    (h : frame.source? name = some source) : source ∈ frame.sources :=
  List.mem_of_find?_eq_some h

/-- A column that is found in a frame is one of its columns. -/
theorem Frame.find_mem {frame : Frame} {qualifier : Option String} {name : Label} {a : Attribute}
    (h : frame.find qualifier name = .ok (some a)) : a ∈ frame.columns := by
  cases qualifier with
  | some qualifier =>
    obtain ⟨source, hsource, ha⟩ := Option.bind_eq_some_iff.1 (Except.ok.inj h)
    exact List.mem_flatMap.2
      ⟨source, Frame.source?_mem hsource, List.mem_of_find?_eq_some ha⟩
  | none =>
    simp only [Frame.find] at h
    split at h
    · cases h
    · exact (List.mem_filter.1 (List.mem_of_mem_head? (Except.ok.inj h))).1

/-- A column that is found in a scope is one of its columns. -/
theorem Scope.find_mem {qualifier : Option String} {name : Label} {a : Attribute} :
    ∀ {scope : Scope}, scope.find qualifier name = .ok (some a) → a ∈ scope.columns
  | [], h => by cases h
  | frame :: outer, h => by
    obtain ⟨found, hframe, h⟩ := exists_of_bind_eq_ok h
    cases found with
    | some b =>
      obtain rfl := Option.some.inj (Except.ok.inj h)
      exact List.mem_append_left _ (Frame.find_mem hframe)
    | none => exact List.mem_append_right _ (Scope.find_mem h)

/-- A column refers to one that is in scope. -/
theorem Scope.column_mem {scope : Scope} {node : Sql.Node} {a : Attribute}
    (h : scope.column node = .ok a) : a ∈ scope.columns := by
  simp only [Scope.column] at h
  obtain ⟨direct, hdirect, h⟩ := exists_of_bind_eq_ok h
  split at h
  · split at h
    · cases h
    · obtain ⟨found, hfind, h⟩ := exists_of_bind_eq_ok h
      cases found with
      | some b => exact Except.ok.inj h ▸ Scope.find_mem hfind
      | none => cases h
  · obtain ⟨found, hfind, h⟩ := exists_of_bind_eq_ok h
    cases found with
    | some b => exact Except.ok.inj h ▸ Scope.find_mem (hdirect.trans hfind)
    | none => cases h

/-- A column that is found in a frame has the name. -/
theorem Frame.name_of_find {frame : Frame} {qualifier : Option String} {name : Label}
    {a : Attribute} (h : frame.find qualifier name = .ok (some a)) : a.name = name := by
  cases qualifier with
  | some qualifier =>
    obtain ⟨source, -, ha⟩ := Option.bind_eq_some_iff.1 (Except.ok.inj h)
    simpa using List.find?_some ha
  | none =>
    simp only [Frame.find] at h
    split at h
    · cases h
    · simpa using (List.mem_filter.1 (List.mem_of_mem_head? (Except.ok.inj h))).2

/-- A column that is found in a scope has the name. -/
theorem Scope.name_of_find {qualifier : Option String} {name : Label} {a : Attribute} :
    ∀ {scope : Scope}, scope.find qualifier name = .ok (some a) → a.name = name
  | [], h => by cases h
  | frame :: outer, h => by
    obtain ⟨found, hframe, h⟩ := exists_of_bind_eq_ok h
    cases found with
    | some b =>
      obtain rfl := Option.some.inj (Except.ok.inj h)
      exact Frame.name_of_find hframe
    | none => exact Scope.name_of_find h

/-- A column has the name by which it is referred to, or its qualifier is the column. -/
theorem Scope.name_of_column {scope : Scope} {node : Sql.Node} {a : Attribute}
    (h : scope.column node = .ok a) :
    a.name = node.normalName ∨ ∃ qualifier, node.qualifier? = some qualifier ∧
      a.name = some qualifier := by
  simp only [Scope.column] at h
  obtain ⟨direct, hdirect, h⟩ := exists_of_bind_eq_ok h
  split at h
  · next qualifier hqualifier =>
    split at h
    · cases h
    · obtain ⟨found, hfind, h⟩ := exists_of_bind_eq_ok h
      cases found with
      | some b => exact Or.inr ⟨qualifier, hqualifier, Except.ok.inj h ▸ Scope.name_of_find hfind⟩
      | none => cases h
  · obtain ⟨found, hfind, h⟩ := exists_of_bind_eq_ok h
    cases found with
    | some b => exact Or.inl (Except.ok.inj h ▸ Scope.name_of_find (hdirect.trans hfind))
    | none => cases h

/-- A star stands for columns that are in scope. -/
theorem Scope.expandStar_subset {scope : Scope} {qualifier : Option String}
    {columns : List Attribute} (h : scope.expandStar qualifier = .ok columns) :
    columns ⊆ scope.columns := by
  have houtput : ∀ {sources : List Source}, sources ⊆ (scope.headD ⟨[], []⟩).sources →
      sources.flatMap Source.output ⊆ scope.columns := by
    intro sources hsources a ha
    obtain ⟨source, hsource, ha⟩ := List.mem_flatMap.1 ha
    cases scope with
    | nil => cases hsources hsource
    | cons frame outer =>
      exact List.mem_append_left _ (List.mem_flatMap.2 ⟨source, hsources hsource, ha⟩)
  cases qualifier with
  | none =>
    simp only [Scope.expandStar, pure_bind] at h
    split at h
    · cases h
    · exact Except.ok.inj h ▸ houtput (List.Subset.refl _)
  | some name =>
    simp only [Scope.expandStar] at h
    split at h
    · next source hsource =>
      simp only [pure_bind] at h
      split at h
      · cases h
      · exact Except.ok.inj h ▸
          houtput (List.cons_subset.2 ⟨Frame.source?_mem hsource, List.nil_subset _⟩)
    · cases h

/-! ## Expressions -/

/-- The expression of a scope: beside the columns in scope it may read those of the window functions
that were taken out. -/
def Expr.FitsScope (context : Context) (scope : Scope) (taken : List Alias) (e : Expr) : Prop :=
  e.FitsIn context.arities scope.columns (scope.columns ++ taken.map Alias.toAttribute)

/-- The window function reads the columns in scope. -/
def Alias.FitsScope (context : Context) (scope : Scope) (function : Alias) : Prop :=
  function.child.FitsIn context.arities scope.columns scope.columns

/-- Scalar subqueries and derived tables are planned soundly. -/
def PlansQueries (query : Scope → Sql.Node → Planner Plan) : Prop :=
  ∀ context bound, context.NumbersBelow bound → ∀ scope node,
    (query scope node).Ensures context bound (Plan.QueryIn context.arities scope.columns)

namespace Resolver

/-- Expressions fit into the scope that they are resolved in. -/
def Fits (resolve : Resolver) : Prop :=
  ∀ context bound, context.NumbersBelow bound → ∀ scope node,
    Projecting.Ensures context bound (Alias.FitsScope context scope) (Expr.FitsScope context scope)
      (resolve scope node)

variable {resolve : Resolver} {context : Context} {bound : Nat}

section
variable (hresolve : resolve.Fits) (hbelow : context.NumbersBelow bound) (scope : Scope)
include hresolve hbelow

/-- An expression fits, beside the window functions that were taken out. -/
theorem Fits.value (value : Sql.Value) :
    Projecting.Ensures context bound (Alias.FitsScope context scope) (Expr.FitsScope context scope)
      (resolve.value scope value) :=
  (Projecting.ensures_lift (Planner.ensures_ofExcept fun _ _ => trivial)).bind fun node =>
    (hresolve context bound hbelow scope node).mono fun _ _ h _ => h

/-- An expression without window functions fits. -/
theorem Fits.plain (value : Sql.Value) : (resolve.plain scope value).Ensures context bound
    (Expr.FitsIn context.arities scope.columns scope.columns) := by
  refine (hresolve.value hbelow scope value).run_none.bind fun r hr => Planner.ensures_pure ?_
  simpa [Expr.FitsScope] using hr

/-- A window function fits. -/
theorem Fits.windowAlias (node : Sql.Node) (before : Nat) :
    (resolve.windowAlias scope node before).Ensures context bound
      (Alias.FitsScope context scope) := by
  refine (hresolve.plain hbelow scope _).bind fun function hfunction => ?_
  refine Planner.ensures_ofExcept_bind fun terms _ => ?_
  refine (Planner.ensures_mapM_all fun term _ => hresolve.plain hbelow scope term).bind
    fun partition hpartition => ?_
  refine Planner.ensures_ofExcept_bind fun keys _ => ?_
  refine (Planner.ensures_mapM_all fun key _ => hresolve.plain hbelow scope key).bind
    fun order horder => ?_
  refine Planner.ensures_freshId.bind fun id _ => Planner.ensures_pure ?_
  exact .windowed hfunction hpartition horder

/-- A window function is taken out, and its column stands among those that may be read. -/
theorem Fits.window (node : Sql.Node) :
    Projecting.Ensures context bound (Alias.FitsScope context scope)
      (fun taken a => a ∈ taken.map Alias.toAttribute) (resolve.window scope node) := by
  intro windows
  cases windows with
  | none => exact Planner.ensures_fail _
  | some taken =>
    refine (hresolve.windowAlias hbelow scope node taken.length).bind fun function hfunction => ?_
    refine Planner.ensures_pure
      ⟨⟨fun hall f hf => ?_, fun f hf => ?_, fun h => ?_⟩, fun more hmore => ?_⟩
    · rcases List.mem_append.1 hf with hf | hf
      · exact hall f hf
      · exact List.mem_singleton.1 hf ▸ hfunction
    · exact List.mem_append_left _ hf
    · cases h
    · exact List.mem_map_of_mem (hmore (List.mem_append_right _ (List.mem_singleton_self _)))

/-- A count of rows fits. -/
theorem Fits.count (node : Sql.Node) :
    Projecting.Ensures context bound (Alias.FitsScope context scope) (Expr.FitsScope context scope)
      (resolve.count scope node) := by
  refine (Projecting.ensures_lift (Planner.ensures_ofExcept fun _ _ => trivial)).bind fun arg => ?_
  cases arg with
  | none => exact Projecting.ensures_pure fun taken _ => .count (by simp)
  | some arg =>
    simp only
    split
    · refine (Projecting.ensures_lift (Planner.ensures_ofExcept fun _ _ => trivial)).bind
        fun counted => ?_
      refine (Projecting.ensures_mapM fun value _ => hresolve.value hbelow scope value).bind
        fun args => ?_
      exact Projecting.ensures_pure fun taken hargs _ _ => .count hargs
    · split
      · exact Projecting.ensures_pure fun taken _ => .count (by simp)
      · refine (hresolve context bound hbelow scope arg).bind fun e => ?_
        exact Projecting.ensures_pure fun taken he _ =>
          .count fun _ h => List.mem_singleton.1 h ▸ he

end

/-- One level of an expression fits where its parts do. -/
theorem fits_step {query : Scope → Sql.Node → Planner Plan} (hquery : PlansQueries query)
    (hresolve : resolve.Fits) : (Resolver.step query resolve).Fits := by
  intro context bound hbelow scope node
  have hliteral : Projecting.Ensures context bound (Alias.FitsScope context scope)
      (Expr.FitsScope context scope)
      ((liftM (Planner.write node) : Projecting String) >>= fun text => pure (.literal text)) :=
    (Projecting.ensures_lift (Planner.ensures_write node)).bind fun text =>
      Projecting.ensures_pure fun _ _ => .literal text
  rw [Resolver.step]
  split
  · split
    · refine Projecting.Ensures.mono (Projecting.ensures_lift (R := fun _ => False) ?_)
        fun _ _ h => h.elim
      exact (Planner.ensures_write node).bind fun text _ => Planner.ensures_fail _
    · refine (Projecting.ensures_lift (Planner.ensures_ofExcept fun _ h =>
        Scope.column_mem h)).bind fun a => ?_
      exact Projecting.ensures_pure fun taken ha => .column (List.mem_append_left _ ha)
  split
  · exact hliteral
  split
  · refine (Projecting.ensures_lift (hquery context bound hbelow scope node)).bind fun plan => ?_
    exact Projecting.ensures_pure fun taken hplan => .subquery hplan.sound
  split
  · refine (hresolve.window hbelow scope node).bind fun a => ?_
    exact Projecting.ensures_pure fun taken ha => .column (List.mem_append_right _ ha)
  split
  · exact hresolve.count hbelow scope node
  split
  · exact hresolve.value hbelow scope _
  split
  · exact hliteral
  · refine (Projecting.ensures_mapM fun child _ =>
      hresolve context bound hbelow scope child).bind fun args => ?_
    exact Projecting.ensures_pure fun taken hargs => .call hargs

/-! ## Select lists -/

section
variable (hresolve : resolve.Fits) (hbelow : context.NumbersBelow bound) (scope : Scope)
include hresolve hbelow

/-- Entries of a select list fit, whether they stand for one column or for many. -/
theorem Fits.selectItems (entry : Sql.Value) :
    Projecting.Ensures context bound (Alias.FitsScope context scope)
      (fun taken items => ∀ item ∈ items, item.toExpr.FitsScope context scope taken)
      (resolve.selectItems scope entry) := by
  refine (Projecting.ensures_lift (Planner.ensures_ofExcept fun _ _ => trivial)).bind fun node => ?_
  split
  · refine (Projecting.ensures_lift (Planner.ensures_ofExcept fun _ h =>
      Scope.expandStar_subset h)).bind fun columns => ?_
    refine Projecting.ensures_pure fun taken hcolumns _ item hitem => ?_
    obtain ⟨a, ha, rfl⟩ := List.mem_map.1 hitem
    exact .column (List.mem_append_left _ (hcolumns ha))
  split
  · refine (hresolve.value hbelow scope _).bind fun e => ?_
    refine (Projecting.ensures_lift Planner.ensures_freshId).bind fun id => ?_
    refine Projecting.ensures_pure fun taken _ he _ item hitem => ?_
    obtain rfl := List.mem_singleton.1 hitem
    exact .aliased he
  · refine (hresolve context bound hbelow scope node).bind fun e => ?_
    split
    · refine Projecting.ensures_pure fun taken he _ item hitem => ?_
      obtain rfl := List.mem_singleton.1 hitem
      exact he
    · refine (Projecting.ensures_lift (Planner.ensures_write node)).bind fun name => ?_
      refine (Projecting.ensures_lift Planner.ensures_freshId).bind fun id => ?_
      refine Projecting.ensures_pure fun taken _ _ he _ item hitem => ?_
      obtain rfl := List.mem_singleton.1 hitem
      exact .aliased he

/-- The entries of a select list fit. -/
theorem Fits.selectList (select : Sql.Node) :
    Projecting.Ensures context bound (Alias.FitsScope context scope)
      (fun taken items => ∀ item ∈ items, item.toExpr.FitsScope context scope taken)
      (resolve.selectList scope select) := by
  refine (Projecting.ensures_lift (Planner.ensures_ofExcept fun _ _ => trivial)).bind
    fun entries => ?_
  refine (Projecting.ensures_mapM fun entry _ => hresolve.selectItems hbelow scope entry).bind
    fun lists => ?_
  refine Projecting.ensures_pure fun taken hlists _ item hitem => ?_
  obtain ⟨items, hitems, hitem⟩ := List.mem_flatten.1 hitem
  exact hlists items hitems item hitem

/-- The entries of a select list without window functions fit. -/
theorem Fits.plainSelectList (select : Sql.Node) :
    (resolve.plainSelectList scope select).Ensures context bound fun items =>
      ∀ item ∈ items, item.toExpr.FitsIn context.arities scope.columns scope.columns := by
  refine (hresolve.selectList hbelow scope select).run_none.bind fun r hr =>
    Planner.ensures_pure fun item hitem => ?_
  simpa [Expr.FitsScope] using hr item hitem

/-! ## Groups -/

omit hresolve hbelow in
/-- A column that is read from an expression is the expression. -/
theorem column_mem_of_mapM_asColumn? {es : List Expr} {columns : List Attribute}
    (h : es.mapM Expr.asColumn? = some columns) {c : Attribute} (hc : c ∈ columns) :
    Expr.column c ∈ es := by
  induction es generalizing columns with
  | nil =>
    obtain rfl := Option.some.inj h
    cases hc
  | cons e rest ih =>
    rw [List.mapM_cons] at h
    obtain ⟨a, ha, h⟩ := Option.bind_eq_some_iff.1 h
    obtain ⟨others, hothers, h⟩ := Option.bind_eq_some_iff.1 h
    obtain rfl := Option.some.inj h
    rcases List.mem_cons.1 hc with rfl | hc
    · cases e <;> cases ha
      exact List.mem_cons_self
    · exact List.mem_cons_of_mem e (ih hothers hc)

/-- The entry at a position fits. -/
theorem Fits.entryAt (select : Sql.Node) (position : Int) :
    (resolve.entryAt select scope position).Ensures context bound
      (Expr.FitsIn context.arities scope.columns scope.columns) := by
  refine Planner.ensures_ofExcept_bind fun entries _ => ?_
  split
  · dsimp only
    split
    · exact Planner.ensures_fail _
    · exact hresolve.plain hbelow scope _
  · exact Planner.ensures_fail _

/-- A term of a `GROUP BY` clause fits. -/
theorem Fits.groupingTerm (select : Sql.Node) (term : Sql.Value) :
    (resolve.groupingTerm select scope term).Ensures context bound
      (Expr.FitsIn context.arities scope.columns scope.columns) := by
  rw [Resolver.groupingTerm]
  split
  · exact hresolve.plain hbelow scope term
  split
  · exact (Planner.ensures_require _).bind fun position _ =>
      hresolve.entryAt hbelow scope select position
  split
  · refine Planner.ensures_ofExcept_bind fun found _ => ?_
    split
    · exact hresolve.plain hbelow scope term
    · refine Planner.ensures_ofExcept_bind fun named _ => ?_
      split
      · exact hresolve.plain hbelow scope _
      · exact hresolve.plain hbelow scope term
  · exact hresolve.plain hbelow scope term

/-- The members of a grouping set are columns in scope. -/
theorem Fits.groupingMembers (select : Sql.Node) (terms : List Sql.Value) :
    (resolve.groupingMembers select scope terms).Ensures context bound fun members =>
      ∀ c ∈ members.attrs, c ∈ scope.columns := by
  refine (Planner.ensures_mapM_all fun term _ =>
    hresolve.groupingTerm hbelow scope select term).bind fun members hmembers => ?_
  split
  · next columns hcolumns =>
    refine Planner.ensures_pure fun c hc => ?_
    have hmember := column_mem_of_mapM_asColumn? hcolumns (AttributeSet.mem_of_mem_ofList hc)
    exact (hmembers _ hmember).reads c (List.mem_singleton_self c)
  · exact Planner.ensures_fail _

end

/-- A grouped query over its source is sound. -/
theorem Fits.aggregate (hresolve : resolve.Fits) (hbelow : context.NumbersBelow bound)
    {frame : Frame} {outer : Scope} {child : Plan} (houtput : child.output = frame.columns)
    (hchild : child.SoundIn context.arities outer.columns) (hadds : child.addsColumns = false)
    (select : Sql.Node) :
    (resolve.aggregate select (frame :: outer) child).Ensures context bound
      (Plan.QueryIn context.arities outer.columns) := by
  have hscope : Scope.columns (frame :: outer) = child.output ++ outer.columns := by
    rw [houtput]
    rfl
  rw [Resolver.aggregate]
  refine Planner.ensures_ofExcept_bind fun windows _ => ?_
  split
  · exact Planner.ensures_fail_bind _ _
  refine Planner.ensures_ofExcept_bind fun sets _ => ?_
  cases sets with
  | none =>
    refine Planner.ensures_ofExcept_bind fun terms _ => ?_
    refine (Planner.ensures_mapM_all fun term _ =>
      hresolve.groupingTerm hbelow (frame :: outer) select term).bind fun grouping hgrouping => ?_
    refine (hresolve.plainSelectList hbelow (frame :: outer) select).bind fun items hitems =>
      Planner.ensures_pure ?_
    rw [hscope] at hgrouping hitems
    refine .aggregate hchild ?_ ?_
    · rwa [Plan.blockInput_aggregate grouping items hadds]
    · rwa [Plan.blockInput_aggregate grouping items hadds]
  | some sets =>
    refine (Planner.ensures_mapM_all fun set _ =>
      hresolve.groupingMembers hbelow (frame :: outer) select set).bind fun members hmembers => ?_
    refine (Planner.ensures_freshLike _).bind fun copies _ => ?_
    refine (Planner.ensures_freshColumn _).bind fun number _ => ?_
    refine (hresolve.plainSelectList hbelow (frame :: outer) select).bind fun items hitems =>
      Planner.ensures_pure ?_
    rw [hscope] at hmembers hitems
    exact .groupedBySets hchild hmembers hitems copies number

end Resolver

end ColumnTrace
