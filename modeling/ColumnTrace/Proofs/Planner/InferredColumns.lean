import ColumnTrace.Proofs.FirstAppearances
import ColumnTrace.Proofs.Planner.Expansion
import ColumnTrace.Proofs.Planner.ScalarExpressions

/-!
# Columns of an unknown table

A query over one table that the catalog does not know gets the columns that it refers to: those that
the table's name qualifies anywhere, and its own columns without qualifiers, but for the names that
its select list gives as aliases. So a column that an alias hides is missing, although the alias
names nothing within the select list. `planStatement_overUnknown_iff` says that a query of scalar
expressions is planned exactly where no column is hidden.
-/

set_option autoImplicit false

namespace ColumnTrace

open Sql.Node

namespace Sql.Node

/-- The columns that are inferred for the one table of a query. -/
def inferredNames (select term : Node) (entries : List Node) : List Label :=
  (select.qualifiedReferences term.sourceNames ++
    select.ownUnqualified.filter (!(aliasNames entries).contains ·)).eraseDups

/-- No alias has the name of the column, or the query refers to it by the name of its table too. -/
def IsVisible (select term : Node) (entries : List Node) (column : Node) : Prop :=
  column.normalName ∈ aliasNames entries →
    column.normalName ∈ select.qualifiedReferences term.sourceNames

instance (select term : Node) (entries : List Node) (column : Node) :
    Decidable (IsVisible select term entries column) :=
  inferInstanceAs (Decidable (_ → _))

/-- A query's own column without a qualifier is inferred exactly where it is visible. -/
theorem mem_inferredNames_iff {select term column : Node} {entries : List Node}
    (hown : column.normalName ∈ select.ownUnqualified) :
    column.normalName ∈ inferredNames select term entries ↔
      IsVisible select term entries column := by
  rw [inferredNames, List.mem_eraseDups, List.mem_append, List.mem_filter, IsVisible]
  simp only [Bool.not_eq_true', List.contains_eq_mem, decide_eq_false_iff_not]
  by_cases halias : column.normalName ∈ aliasNames entries
  · simp [halias]
  · simp [halias, hown]

/-- The columns of a scalar expression below a query are the query's own. -/
theorem IsScalar.mem_ownUnqualified {select n c : Node} (h : n.IsScalar)
    (hbelow : n ∈ select.children ∨ ∃ child ∈ select.children, child.is "Select" = false ∧
      n ∈ child.children) (hc : c ∈ n.columns) : c.normalName ∈ select.ownUnqualified := by
  obtain ⟨hstar, hunqualified, -, hreached⟩ := h.of_mem_columns c hc
  have hown : c ∈ select.ownNodes := by
    rw [ownNodes, List.mem_flatMap]
    rcases hbelow with hchild | ⟨child, hchild, hkind, hn⟩
    · exact ⟨n, hchild, hreached⟩
    · exact ⟨child, hchild, (mem_reachable_iff hkind).2 (Or.inr ⟨n, hn, hreached⟩)⟩
  refine List.mem_map_of_mem (List.mem_filter.2 ⟨hown, ?_⟩)
  simp [(mem_columns.1 hc).2, hunqualified, hstar]

/-- The query groups its rows by scalar terms, without grouping sets, or it has no such clause. -/
inductive GroupsPlainly (select : Node) : Option (List Node) → Prop
  | ungrouped (hnone : (select.arg "group").isGiven = false) : GroupsPlainly select none
  | grouped {group : Node} {terms : List Node} (hgroup : select.arg "group" = .node group)
      (hterms : group.expressions = .ok (terms.map .node))
      (hkind : group.is "Select" = false) (hsets : group.itemsOf "grouping_sets" = .ok [])
      (hrollups : group.itemsOf "rollup" = .ok []) (hcubes : group.itemsOf "cube" = .ok [])
      (hscalar : ∀ t ∈ terms, t.IsScalar) : GroupsPlainly select (some terms)

/-- A simple query over one table, of scalar expressions only. -/
structure IsScalarQuery (select term : Node) (entries : List Node)
    (groups : Option (List Node)) : Prop where
  reads : select.ReadsTable term
  projections : select.projections = .ok (entries.map .node)
  items : ∀ entry ∈ entries, entry.IsScalarItem
  groups : select.GroupsPlainly groups

/-- The term of a `GROUP BY` clause is the position of an entry, or a column, or all columns of the
expression that it is are visible. -/
def IsGroupableIn (select term : Node) (entries : List Node) (t : Node) : Prop :=
  if t.is "Literal" && t.facts.wholeNumber then
    ∃ position : Int, t.name.bind Text.readInt? = some position ∧ 1 ≤ position ∧
      position ≤ entries.length
  else t.is "Column" = true ∨ ∀ c ∈ t.columns, IsVisible select term entries c

/-- The plan of a query over the relation of its source: a projection, or an aggregation where the
query groups its rows. -/
def IsPlannedOver (select : Node) (relation : Plan) (groups : Option (List Node))
    (plan : Plan) : Prop :=
  let source := wrapIf select "where" "Filter" relation
  match groups with
  | none => ∃ items, plan = withModifiers select (wrapIf select "distinct" "Distinct"
      (.project items source))
  | some _ => ∃ grouping items, plan = withModifiers select (wrapIf select "distinct" "Distinct"
      (wrapIf select "having" "Filter" (.aggregate grouping items source)))

/-- Nothing of a sort is found where no node is of the sort. -/
theorem anyWithin_eq_false {stop sort : Node → Bool} {entries : List Node}
    (h : ∀ entry ∈ entries, ∀ m ∈ entry.preorder, sort m = false) :
    anyWithin stop sort (entries.map .node) = .ok false := by
  induction entries with
  | nil => rfl
  | cons entry rest ih =>
    have hnone : (entry.reachable stop).any sort = false := by
      refine List.any_eq_false.2 fun m hm => ?_
      rw [h entry List.mem_cons_self m (reachable_subset_preorder _ (Nat.le_refl _) hm)]
      exact Bool.false_ne_true
    have hread : anyWithin stop sort ((entry :: rest).map .node) =
        if (entry.reachable stop).any sort then .ok true
        else anyWithin stop sort (rest.map .node) := rfl
    rw [hread, hnone, if_neg Bool.false_ne_true]
    exact ih fun e he => h e (List.mem_cons_of_mem entry he)

namespace IsScalarQuery

variable {select term : Node} {entries : List Node} {groups : Option (List Node)}
variable (h : select.IsScalarQuery term entries groups)
include h

theorem scalar : ∀ entry ∈ entries, entry.IsScalar :=
  fun entry hentry => (h.items entry hentry).scalar

theorem mem_children : ∀ entry ∈ entries, entry ∈ select.children :=
  fun _ hentry => mem_children_of_itemsOf h.projections (List.mem_map_of_mem hentry) rfl

/-- A column of an entry is one of the query's own. -/
theorem mem_ownUnqualified : ∀ entry ∈ entries, ∀ c ∈ entry.columns,
    c.normalName ∈ select.ownUnqualified :=
  fun entry hentry _ hc =>
    (h.scalar entry hentry).mem_ownUnqualified (Or.inl (h.mem_children entry hentry)) hc

theorem hasWindows : select.hasWindows = .ok false := by
  rw [Node.hasWindows, h.projections]
  exact anyWithin_eq_false fun entry hentry m hm => ((h.scalar entry hentry).plain m hm).2

/-- A scalar query groups its rows if it has such a clause. -/
theorem isAggregate : select.isAggregate = .ok (select.arg "group").isGiven := by
  rw [Node.isAggregate]
  cases (select.arg "group").isGiven with
  | true => rfl
  | false =>
    rw [h.projections]
    exact anyWithin_eq_false fun entry hentry m hm => ((h.scalar entry hentry).plain m hm).1

end IsScalarQuery

end Sql.Node

/-! ## The columns in scope -/

namespace Scope

variable (source : Source) {c : Sql.Node}

/-- A single source with columns of different names has at most one of a name. -/
theorem find_single (hnames : (source.output.map Attribute.name).Nodup) (name : Label) :
    Scope.find none name [.ofSources [source]] =
      .ok (source.output.find? (·.name == name)) := by
  have hfound : ([source].flatMap Source.output).filter (·.name == name) =
      source.output.filter (·.name == name) := by
    rw [List.flatMap_singleton]
  have hfew : ¬ 1 < (source.output.filter (·.name == name)).length := by
    have hcount : (source.output.filter (·.name == name)).length =
        (source.output.map Attribute.name).count name := by
      rw [List.count, List.countP_map, List.countP_eq_length_filter]
      rfl
    have := List.nodup_iff_count_le_one.1 hnames name
    omega
  have hframe : Frame.find (.ofSources [source]) none name =
      .ok (source.output.find? (·.name == name)) := by
    simp only [Frame.find, Frame.ofSources, hfound, decide_eq_false hfew, Bool.false_and,
      List.head?_filter, if_neg Bool.false_ne_true]
  rw [Scope.find, hframe]
  cases source.output.find? (·.name == name) <;> rfl

/-- A column without a qualifier is resolved by a single source with columns of different names
exactly where that has its name. -/
theorem exists_column_iff (hnames : (source.output.map Attribute.name).Nodup)
    (hqualifier : c.qualifier? = none) :
    (∃ a, Scope.column [.ofSources [source]] c = .ok a) ↔
      c.normalName ∈ source.output.map Attribute.name := by
  rw [column, hqualifier, find_single source hnames]
  cases hfind : source.output.find? (·.name == c.normalName) with
  | some a =>
    refine iff_of_true ⟨a, rfl⟩ ?_
    have hname : (a.name == c.normalName) = true := by
      simpa only using List.find?_some hfind
    exact beq_iff_eq.1 hname ▸ List.mem_map_of_mem (List.mem_of_find?_eq_some hfind)
  | none =>
    refine iff_of_false (by rintro ⟨a, ⟨⟩⟩) fun hmem => ?_
    obtain ⟨a, ha, hname⟩ := List.mem_map.1 hmem
    exact List.find?_eq_none.1 hfind a ha (beq_iff_eq.2 hname)

end Scope

/-! ## The relation -/

namespace Planner

variable {context : Context} {stored : String → Planner Plan}

section
variable {select term : Sql.Node} {entries : List Sql.Node}

/-- A table that nothing knows is unknown. -/
theorem isUnknownTable_of_not_knows (htable : term.is "Table" = true)
    (hctes : context.ctes = []) (hunknown : context.catalog.knows term.qualifiedName = false)
    (numbers : Numbers) : isUnknownTable term context numbers = ⟨numbers, [], .ok true⟩ := by
  have hnone : context.ctes.lookup term.tableName.qualifiedName = none := by rw [hctes]; rfl
  simp only [isUnknownTable, htable, Bool.not_true, if_neg Bool.false_ne_true,
    findCte?_bind_apply, hnone, Option.isSome_none, Bool.and_false, catalog_bind_apply]
  show (⟨numbers, [], .ok (!context.catalog.knows term.qualifiedName)⟩ : Outcome Bool) = _
  rw [hunknown]
  rfl

/-- A table that is unknown is put aside until the columns of the others are known. -/
theorem result_knownOrUnknown (stored : String → Planner Plan)
    (query : Scope → Sql.Node → Planner Plan) (outer : Scope) (htable : term.is "Table" = true)
    (hctes : context.ctes = []) (hunknown : context.catalog.knows term.qualifiedName = false)
    (numbers : Numbers) :
    (knownOrUnknown stored query outer (.node term) context numbers).result = .ok (.inr term) := by
  have hread : knownOrUnknown stored query outer (.node term) = (do
      if ← isUnknownTable term then return .inr term
      else return .inl (← source stored query outer term)) := rfl
  have hleft := isUnknownTable_of_not_knows htable hctes hunknown numbers
  rw [hread, result_bind_of_ok (congrArg Outcome.result hleft)]
  rfl

/-- The only unknown table of a query that is the statement becomes a relation with the columns that
are inferred for it. -/
theorem exists_inferred (term : Sql.Node) (entries : List Sql.Node) (hroot : context.root = select)
    (numbers : Numbers) :
    ∃ output, output.map Attribute.name = inferredNames select term entries ∧
      ((inferredColumns select true (aliasNames entries) term >>= inferred term) context
        numbers).result = .ok ⟨.relation output (some term.tableName),
          sourceOf term.sourceNames output true⟩ := by
  have hcolumns : (inferredColumns select true (aliasNames entries) term context numbers).result =
      .ok (inferredNames select term entries) := by
    rw [inferredColumns, context_bind_apply, hroot]
    rfl
  obtain ⟨output, houtput, hnames, -⟩ :=
    exists_freshColumns context (inferredNames select term entries)
      (inferredColumns select true (aliasNames entries) term context numbers).numbers
  refine ⟨output, hnames, ?_⟩
  rw [result_bind_of_ok hcolumns, inferred, result_bind_of_ok rfl]
  exact (result_bind_of_ok (congrArg Outcome.result houtput)).trans rfl

/-- The one table of a query is a relation with the columns that are inferred for it. -/
theorem exists_fromClause (stored : String → Planner Plan)
    (query : Scope → Sql.Node → Planner Plan) (outer : Scope) (hreads : select.ReadsTable term)
    (hentries : select.projections = .ok (entries.map .node))
    (hunknown : context.catalog.knows term.qualifiedName = false) (hctes : context.ctes = [])
    (hroot : context.root = select) (numbers : Numbers) :
    ∃ output, output.map Attribute.name = inferredNames select term entries ∧
      (fromClause stored query outer select context numbers).result =
        .ok (.relation output (some term.tableName),
          .ofSources [sourceOf term.sourceNames output true]) := by
  have hterm := result_knownOrUnknown stored query outer hreads.isTable hctes hunknown
  have hfound : ([Sql.Value.node term].mapM (knownOrUnknown stored query outer) context
      numbers).result = .ok [.inr term] :=
    result_mapM (.cons hterm .nil) numbers
  obtain ⟨output, hnames, hrelation⟩ := exists_inferred term entries hroot
    ([Sql.Value.node term].mapM (knownOrUnknown stored query outer) context numbers).numbers
  have hrelations : (relations stored query outer select [.node term] context numbers).result =
      .ok [⟨.relation output (some term.tableName), sourceOf term.sourceNames output true⟩] := by
    rw [relations, result_bind_of_ok hfound, namedProjections_eq hentries]
    exact (result_bind_of_ok hrelation).trans rfl
  refine ⟨output, hnames, ?_⟩
  have hthere : (Sql.Value.node term).isThere = true := rfl
  have hnodes : ([] : List Sql.Value).mapM Sql.Value.toNode = .ok [] := rfl
  simp only [fromClause, hreads.fromTerm, hreads.joins, ofExcept, pure_bind, hthere,
    Bool.not_true, Bool.false_eq_true, if_false, hnodes, List.map_nil]
  rw [result_bind_of_ok hrelations]
  rfl

end

/-! ## Queries -/

section
variable {below : Tier} {outer : Scope} {node : Sql.Node} {child : Plan} {frame : Frame}
variable {numbers : Numbers} {P Q : Prop}
variable (hfrom : (fromClause stored below.query outer node context numbers).result =
  .ok (child, frame))
variable (hlist : Projecting.SucceedsIff context P
  (below.resolve.selectList (frame :: outer) node))
include hfrom hlist

/-- A query that does not group its rows has a plan if its select list has, and then it is a
projection. -/
theorem select_of_ungrouped (haggregate : node.isAggregate = .ok false) :
    ((∃ plan, (select stored below outer node context numbers).result = .ok plan) ↔ P) ∧
      ∀ plan, (select stored below outer node context numbers).result = .ok plan → ∃ items,
        plan = withModifiers node (wrapIf node "distinct" "Distinct"
          (.project items (wrapIf node "where" "Filter" child))) := by
  have hread : (select stored below outer node context numbers).result =
      (((below.resolve.selectList (frame :: outer) node).run (some []) >>= fun r =>
        pure (withModifiers node (wrapIf node "distinct" "Distinct" (Plan.project r.1
          (if (r.2.getD []).isEmpty then wrapIf node "where" "Filter" child
            else .window (r.2.getD []) (wrapIf node "where" "Filter" child) [] []))))) context
        (fromClause stored below.query outer node context numbers).numbers).result := by
    rw [select, result_bind_of_ok hfrom, haggregate, result_bind_of_ok rfl]
    simp only [if_neg Bool.false_ne_true, pure_bind]
    rfl
  obtain ⟨hsucceeds, hwindows⟩ := hlist (some [])
    (fromClause stored below.query outer node context numbers).numbers
  simp only [hread, result_bind_eq_ok]
  refine ⟨?_, ?_⟩
  · rw [← hsucceeds]
    constructor
    · rintro ⟨plan, r, hr, -⟩
      exact ⟨r, hr⟩
    · rintro ⟨r, hr⟩
      exact ⟨_, r, hr, rfl⟩
  · rintro plan ⟨r, hr, hplan⟩
    refine ⟨r.1, (Except.ok.inj hplan).symm.trans ?_⟩
    rw [hwindows r hr]
    rfl

/-- A query that groups its rows has a plan if its select list and its terms have, and then it is an
aggregation. -/
theorem select_of_grouped {terms : List Sql.Value} (haggregate : node.isAggregate = .ok true)
    (hnoWindows : node.hasWindows = .ok false) (hsets : Sql.groupingSets node = .ok none)
    (hgroup : node.groupExpressions = .ok terms)
    (hterms : P → SucceedsIff context Q
      (terms.mapM (below.resolve.groupingTerm node (frame :: outer)))) :
    ((∃ plan, (select stored below outer node context numbers).result = .ok plan) ↔ P ∧ Q) ∧
      ∀ plan, (select stored below outer node context numbers).result = .ok plan →
        ∃ grouping items, plan = withModifiers node (wrapIf node "distinct" "Distinct"
          (wrapIf node "having" "Filter"
            (.aggregate grouping items (wrapIf node "where" "Filter" child)))) := by
  have hread : (select stored below outer node context numbers).result =
      ((do
        let grouping ← terms.mapM (below.resolve.groupingTerm node (frame :: outer))
        let items ← below.resolve.plainSelectList (frame :: outer) node
        return withModifiers node (wrapIf node "distinct" "Distinct"
          (wrapIf node "having" "Filter"
            (.aggregate grouping items (wrapIf node "where" "Filter" child))))) context
        (fromClause stored below.query outer node context numbers).numbers).result := by
    rw [select, result_bind_of_ok hfrom, haggregate, result_bind_of_ok rfl]
    simp only [if_true, Resolver.aggregate, hnoWindows, hsets, hgroup, ofExcept, pure_bind,
      if_neg Bool.false_ne_true, bind_assoc]
    rfl
  have hplain : SucceedsIff context P (below.resolve.plainSelectList (frame :: outer) node) :=
    hlist.run_none
  simp only [hread, result_bind_eq_ok]
  refine ⟨?_, ?_⟩
  · constructor
    · rintro ⟨plan, grouping, hgrouping, items, hitems, -⟩
      have hP := (hplain _).1 ⟨items, hitems⟩
      exact ⟨hP, (hterms hP _).1 ⟨grouping, hgrouping⟩⟩
    · rintro ⟨hP, hQ⟩
      obtain ⟨grouping, hgrouping⟩ := (hterms hP _).2 hQ
      obtain ⟨items, hitems⟩ := (hplain _).2 hP
      exact ⟨_, grouping, hgrouping, items, hitems, rfl⟩
  · rintro plan ⟨grouping, -, items, -, hplan⟩
    exact ⟨grouping, items, (Except.ok.inj hplan).symm⟩

end

/-! ## Queries over an unknown table -/

/-- What a query sees over an unknown table with these columns. -/
def scopeOver (term : Sql.Node) (output : List Attribute) : Scope :=
  [.ofSources [sourceOf term.sourceNames output true]]

section
variable {select term : Sql.Node} {entries : List Sql.Node} {output : List Attribute}
variable (hnames : output.map Attribute.name = inferredNames select term entries)
include hnames

/-- No column is inferred twice. -/
theorem nodup_names_of_inferred : (output.map Attribute.name).Nodup := by
  rw [hnames]
  exact nodup_eraseDups _

/-- A query's own column is resolved by the relation exactly where it is visible. -/
theorem exists_column_iff_isVisible {c : Sql.Node} (hqualifier : c.qualifier? = none)
    (hown : c.normalName ∈ select.ownUnqualified) :
    (∃ a, (scopeOver term output).column c = .ok a) ↔ IsVisible select term entries c := by
  have hiff := Scope.exists_column_iff (sourceOf term.sourceNames output true)
    (nodup_names_of_inferred hnames) hqualifier
  rw [scopeOver, hiff, ← mem_inferredNames_iff hown, ← hnames]
  rfl

/-- The columns of an expression are resolved exactly where they are visible. -/
theorem forall_column_iff_isVisible {e : Sql.Node} (he : e.IsScalar)
    (hown : ∀ c ∈ e.columns, c.normalName ∈ select.ownUnqualified) :
    (∀ c ∈ e.columns, ∃ a, (scopeOver term output).column c = .ok a) ↔
      ∀ c ∈ e.columns, IsVisible select term entries c :=
  forall₂_congr fun c hc =>
    exists_column_iff_isVisible hnames (he.of_mem_columns c hc).2.2.1 (hown c hc)

/-- Over the inferred columns a term may be grouped by if it may be in the query. -/
theorem isGroupable_iff_isGroupableIn {t : Sql.Node} (ht : t.IsScalar)
    (hown : ∀ c ∈ t.columns, c.normalName ∈ select.ownUnqualified) :
    Resolver.IsGroupable (scopeOver term output) entries t ↔
      IsGroupableIn select term entries t := by
  rw [Resolver.IsGroupable, IsGroupableIn]
  split
  · rfl
  · by_cases hcolumn : t.is "Column" = true
    · obtain ⟨-, hqualifier, hself⟩ := ht.of_is_column hcolumn
      rw [if_pos hcolumn]
      refine iff_of_true ?_ (Or.inl hcolumn)
      by_cases halias : t.normalName ∈ aliasNames entries
      · exact Or.inl halias
      · have hvisible : IsVisible select term entries t := fun h => absurd h halias
        exact Or.inr ((exists_column_iff_isVisible hnames hqualifier
          (hown t ((hself t).2 rfl))).2 hvisible)
    · rw [if_neg hcolumn, or_iff_right hcolumn]
      exact forall_column_iff_isVisible hnames ht hown

variable {groups : Option (List Sql.Node)} {stored : String → Planner Plan} {height : Nat}
variable (h : select.IsScalarQuery term entries groups) (hheight : select.height ≤ height + 1)
include h hheight

/-- The select list is planned exactly where all its columns are visible. -/
theorem selectList_iff_isVisible : Projecting.SucceedsIff context
    (∀ entry ∈ entries, ∀ c ∈ entry.columns, IsVisible select term entries c)
    ((Tier.upTo stored height).resolve.selectList (scopeOver term output) select) := by
  have hlower : ∀ entry ∈ entries, entry.height ≤ height := fun entry hentry => by
    have := height_lt_of_mem_children (h.mem_children entry hentry)
    omega
  refine (Resolver.selectList_succeedsIff h.projections h.items hlower _).congr ?_
  exact forall₂_congr fun entry hentry => forall_column_iff_isVisible hnames
    (h.scalar entry hentry) (h.mem_ownUnqualified entry hentry)

/-- Beside a select list that is planned, the terms of the `GROUP BY` clause are planned exactly
where each of them is groupable. -/
theorem groupingTerms_iff_isGroupableIn {group : Sql.Node} {terms : List Sql.Node}
    (hgroup : select.arg "group" = .node group) (hterms : group.expressions = .ok (terms.map .node))
    (hkind : group.is "Select" = false) (hscalar : ∀ t ∈ terms, t.IsScalar)
    (hvisible : ∀ entry ∈ entries, ∀ c ∈ entry.columns, IsVisible select term entries c) :
    SucceedsIff context (∀ t ∈ terms, IsGroupableIn select term entries t)
      ((terms.map Sql.Value.node).mapM
        ((Tier.upTo stored height).resolve.groupingTerm select (scopeOver term output))) := by
  have hbelow : group ∈ select.children := mem_children_of_arg (by rw [hgroup]; rfl)
  have hlower : ∀ n : Sql.Node, n ∈ select.children → n.height ≤ height := fun n hn => by
    have := height_lt_of_mem_children hn
    omega
  rw [List.mapM_map]
  refine succeedsIff_mapM fun t ht => ?_
  have hchild : t ∈ group.children := mem_children_of_itemsOf hterms (List.mem_map_of_mem ht) rfl
  have htheight : t.height ≤ height :=
    (Nat.le_of_lt (height_lt_of_mem_children hchild)).trans (hlower group hbelow)
  have hown : ∀ c ∈ t.columns, c.normalName ∈ select.ownUnqualified := fun c hc =>
    (hscalar t ht).mem_ownUnqualified (Or.inr ⟨group, hbelow, hkind, hchild⟩) hc
  have hresolved : ∀ entry ∈ entries, ∀ c ∈ entry.columns,
      ∃ a, (scopeOver term output).column c = .ok a := fun entry hentry =>
    (forall_column_iff_isVisible hnames (h.scalar entry hentry)
      (h.mem_ownUnqualified entry hentry)).2 (hvisible entry hentry)
  have hfind := Scope.find_single (sourceOf term.sourceNames output true)
    (nodup_names_of_inferred hnames) t.normalName
  refine (Resolver.groupingTerm_succeedsIff h.projections h.scalar
    (fun entry hentry => hlower entry (h.mem_children entry hentry)) hresolved (hscalar t ht)
    htheight ⟨_, hfind⟩).congr ?_
  exact isGroupable_iff_isGroupableIn hnames (hscalar t ht) hown

end

/-- A clause without sets, rollups and cubes has no grouping sets. -/
theorem groupingSets_eq_none {group node : Sql.Node} {terms : List Sql.Value}
    (hgroup : node.arg "group" = .node group) (hterms : group.expressions = .ok terms)
    (hsets : group.itemsOf "grouping_sets" = .ok []) (hrollups : group.itemsOf "rollup" = .ok [])
    (hcubes : group.itemsOf "cube" = .ok []) : Sql.groupingSets node = .ok none := by
  have hread : (node.arg "group").nodeIfThere = .ok (some group) := by rw [hgroup]; rfl
  have hnone : Sql.rolledOf [] terms = .ok [] := rfl
  simp only [Sql.groupingSets, hread, hterms, hsets, hrollups, hcubes, bind, Except.bind, hnone]
  rfl

/-- A scalar query over an unknown table has a plan if all its columns are visible, and then it
reads the columns that are inferred. -/
theorem select_overUnknown (stored : String → Planner Plan) (context : Context)
    {select term : Sql.Node} {entries : List Sql.Node} {groups : Option (List Sql.Node)}
    {height : Nat} (h : select.IsScalarQuery term entries groups)
    (hunknown : context.catalog.knows term.qualifiedName = false) (hctes : context.ctes = [])
    (hroot : context.root = select) (hheight : select.height ≤ height + 1) (numbers : Numbers) :
    ((∃ plan, (Planner.select stored (Tier.upTo stored height) [] select context numbers).result =
      .ok plan) ↔ (∀ entry ∈ entries, ∀ c ∈ entry.columns, IsVisible select term entries c) ∧
        ∀ t ∈ groups.getD [], IsGroupableIn select term entries t) ∧
    ∃ output, output.map Attribute.name = inferredNames select term entries ∧
      ∀ plan, (Planner.select stored (Tier.upTo stored height) [] select context numbers).result =
        .ok plan → select.IsPlannedOver (.relation output (some term.tableName)) groups plan := by
  obtain ⟨output, hnames, hfrom⟩ := exists_fromClause stored (Tier.upTo stored height).query []
    h.reads h.projections hunknown hctes hroot numbers
  have hlist : Projecting.SucceedsIff context
      (∀ entry ∈ entries, ∀ c ∈ entry.columns, IsVisible select term entries c)
      ((Tier.upTo stored height).resolve.selectList (scopeOver term output) select) :=
    selectList_iff_isVisible hnames h hheight
  have haggregate := h.isAggregate
  cases h.groups with
  | ungrouped hnone =>
    rw [hnone] at haggregate
    obtain ⟨hsucceeds, hplans⟩ := select_of_ungrouped hfrom hlist haggregate
    refine ⟨hsucceeds.trans (and_iff_left ?_).symm, output, hnames, hplans⟩
    intro t ht
    cases ht
  | @grouped group terms hgroup hterms hkind hsets hrollups hcubes hscalar =>
    have hgiven : (select.arg "group").isGiven = true := by rw [hgroup]; rfl
    have hexpressions : select.groupExpressions = .ok (terms.map .node) := by
      rw [groupExpressions, hgroup]
      exact hterms
    rw [hgiven] at haggregate
    obtain ⟨hsucceeds, hplans⟩ := select_of_grouped hfrom hlist haggregate h.hasWindows
      (groupingSets_eq_none hgroup hterms hsets hrollups hcubes) hexpressions
      (groupingTerms_iff_isGroupableIn hnames h hheight hgroup hterms hkind hscalar)
    exact ⟨hsucceeds, output, hnames, hplans⟩

end Planner

/-- A query of scalar expressions over one table that the catalog does not know is planned exactly
where each column of its select list is visible, and each term of its grouping a position or an
expression of visible columns. The relation then has the inferred columns, and among them all that
the select list refers to. -/
theorem planStatement_overUnknown_iff {s : Surroundings} {select term : Sql.Node}
    {entries : List Sql.Node} {groups : Option (List Sql.Node)}
    (h : select.IsScalarQuery term entries groups)
    (hunknown : s.catalog.knows term.qualifiedName = false) (numbers : Numbers) :
    ((∃ plan, (planStatement s select numbers).result = .ok plan) ↔
      (∀ entry ∈ entries, ∀ c ∈ entry.columns, IsVisible select term entries c) ∧
        ∀ t ∈ groups.getD [], IsGroupableIn select term entries t) ∧
    ∀ plan, (planStatement s select numbers).result = .ok plan → ∃ output,
      output.map Attribute.name = inferredNames select term entries ∧
      (∀ entry ∈ entries, ∀ c ∈ entry.columns, c.normalName ∈ output.map Attribute.name) ∧
      select.IsPlannedOver (.relation output (some term.tableName)) groups plan := by
  obtain ⟨height, hheight⟩ : ∃ height, select.height = height + 1 := by
    obtain ⟨kind, args, facts⟩ := select
    exact ⟨argsHeight args, by rw [Sql.Node.height]⟩
  have hquery : select.isQueryOrSubquery = true := by
    rw [isQueryOrSubquery, isQuery, h.reads.select]
    rfl
  have hplan : planStatement s select numbers =
      Planner.select (Planner.storedQuery (openLimit s.library select))
        (Tier.upTo (Planner.storedQuery (openLimit s.library select)) height) [] select
        (s.context select) numbers := by
    rw [planStatement_of_query s hquery, hheight]
    exact congrArg (fun x : Planner Plan => x (s.context select) numbers)
      (Planner.query_of_readsTable h.reads)
  obtain ⟨hsucceeds, output, hnames, hshape⟩ := Planner.select_overUnknown
    (Planner.storedQuery (openLimit s.library select)) (s.context select) h hunknown rfl rfl
    (Nat.le_of_eq hheight) numbers
  rw [hplan]
  refine ⟨hsucceeds, fun plan hresult => ⟨output, hnames, ?_, hshape plan hresult⟩⟩
  intro entry hentry c hc
  rw [hnames, mem_inferredNames_iff (h.mem_ownUnqualified entry hentry c hc)]
  exact (hsucceeds.1 ⟨plan, hresult⟩).1 entry hentry c hc

/-! ## A column under an alias -/

/-- `abs(a) AS name`, over a column without a qualifier. -/
def Sql.Node.ofAbs (name : String) : Sql.Node :=
  .ofAlias (ofKind "Abs" "" [("this", .node (ofKind "Column" "a" [("this", ofName "a")]))]) name

/-- `abs(a)` under an alias is a scalar entry. -/
theorem Sql.Node.isScalarItem_ofAbs (name : String) : (ofAbs name).IsScalarItem where
  scalar := by
    have hcolumn : (ofKind "Column" "a" [("this", ofName "a")]).IsScalar := by
      refine .column rfl rfl rfl rfl rfl fun m hm => ?_
      obtain rfl := List.mem_singleton.1 hm
      intro m hm
      obtain rfl := List.mem_singleton.1 hm
      exact ⟨rfl, rfl, rfl⟩
    refine .wrapping rfl rfl (.function rfl rfl fun m hm => ?_) rfl fun m hm => ?_
    · exact List.mem_singleton.1 hm ▸ hcolumn
    · exact Or.inl (List.mem_singleton.1 hm)
  written h := by cases h

/-- `SELECT abs(a) AS name FROM raw` -/
def Sql.Node.absOverRaw (name : String) : Sql.Node := .ofSelect [] [.ofAbs name] "raw"

/-- `SELECT abs(a) AS name FROM raw` is a scalar query. -/
theorem Sql.Node.isScalarQuery_absOverRaw (name : String) :
    (absOverRaw name).IsScalarQuery (.ofTable "raw") [.ofAbs name] none where
  reads := readsTable_ofSelect _ "raw"
  projections := rfl
  items := by simpa using isScalarItem_ofAbs name
  groups := .ungrouped rfl

/-- Nothing is known but the statement. -/
def Surroundings.ofNothing : Surroundings :=
  { catalog := Catalog.empty, library := [], engine := "spark" }

/-- `SELECT abs(a) AS c FROM raw` -/
theorem exists_plan_of_visible : ∃ plan output,
    (planStatement .ofNothing (.absOverRaw "c") .start).result = .ok plan ∧
      output.map Attribute.name = [some "a"] ∧
      (Sql.Node.absOverRaw "c").IsPlannedOver (.relation output (some ⟨"raw", none, none⟩)) none
        plan := by
  obtain ⟨hplans, hshape⟩ := planStatement_overUnknown_iff (s := .ofNothing)
    (isScalarQuery_absOverRaw "c") (by decide) .start
  obtain ⟨plan, hplan⟩ := hplans.2 ⟨by decide, by simp⟩
  obtain ⟨output, hnames, -, hover⟩ := hshape plan hplan
  exact ⟨plan, output, hplan, hnames.trans (by decide), hover⟩

/-- `SELECT abs(a) AS a FROM raw`, where the alias hides the column that it is made of. -/
theorem planStatement_overHidden :
    (Sql.Node.absOverRaw "a").IsScalarQuery (.ofTable "raw") [.ofAbs "a"] none ∧
      Surroundings.ofNothing.catalog.knows (Sql.Node.ofTable "raw").qualifiedName = false ∧
      (planStatement .ofNothing (.absOverRaw "a") .start).result =
        .error (.unresolvedColumn none (some "a")) :=
  ⟨isScalarQuery_absOverRaw "a", by decide, rfl⟩

end ColumnTrace
