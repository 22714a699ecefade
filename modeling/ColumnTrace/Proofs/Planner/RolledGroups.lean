import ColumnTrace.Proofs.Planner.ClosedStatements
import ColumnTrace.Proofs.Planner.GroupingNumbers
import ColumnTrace.Proofs.Unions

/-!
# Rollups and cubes

A rollup or a cube stands for several grouping sets of the same columns, the largest first
(`Sql.groupingSets_of_standsAlone`). So where its terms resolve to columns of their own, these are
the grouping columns in the order in which they are written (`groupingColumns_rolledSets`), and the
query is planned over one row for each set, known by the numbers of the sets
(`Planner.select_of_rolling`).
-/

set_option autoImplicit false

namespace ColumnTrace

namespace Sql

/-- The clauses that stand for several grouping sets of the same columns. -/
inductive Rolling where
  | rollup
  | cube
deriving DecidableEq

namespace Rolling

/-- The argument of a `GROUP BY` clause that holds clauses of the kind. -/
def argument : Rolling → String
  | .rollup => "rollup"
  | .cube => "cube"

/-- The other kind of clause. -/
def other : Rolling → Rolling
  | .rollup => .cube
  | .cube => .rollup

/-- The sets of a clause over columns. -/
def sets {α : Type} : Rolling → List α → List (List α)
  | .rollup => rollupSets
  | .cube => cubeSets

/-- The numbers of the sets of a clause over so many columns: those of a rollup are the numbers
below the powers of two, in order; those of a cube are all below the last of these, each once. -/
def HasNumbers : Rolling → Nat → List Nat → Prop
  | .rollup, width, masks => masks = (List.range (width + 1)).map fun j => 2 ^ j - 1
  | .cube, width, masks => masks.Perm (List.range (2 ^ width))

/-- The items of the clauses of a kind are one clause beside plain grouping columns: it lists
columns, and the plain ones are kept; or it lists none and rolls the plain ones; or its columns
stand loose. -/
inductive Lists (base : List Value) : List Value → List Value → List Value → Prop
  | listed {clause : Node} {columns : List Value} (hkind : clause.is "Column" = false)
      (hcolumns : clause.expressions = .ok columns) (hne : columns ≠ []) :
      Lists base [.node clause] base columns
  | plain {clause : Node} (hkind : clause.is "Column" = false)
      (hnone : clause.expressions = .ok []) : Lists base [.node clause] [] base
  | loose {columns : List Value} (hcolumns : ∀ column ∈ columns, column.isColumn = true)
      (hne : columns ≠ []) : Lists base columns base columns

/-- A `GROUP BY` clause has one rollup or cube, with columns that every set keeps and columns that
are rolled, and no other grouping sets. -/
structure StandsAlone (clause : Rolling) (group : Node) (kept rolled : List Value) : Prop where
  listed : group.itemsOf "grouping_sets" = .ok []
  other : group.itemsOf clause.other.argument = .ok []
  items : ∃ base items, group.expressions = .ok base ∧
    group.itemsOf clause.argument = .ok items ∧ Lists base items kept rolled

end Rolling

/-! ## Reading a clause -/

/-- Items that are one clause are read as that clause. -/
theorem rolledOf_of_lists {base items kept rolled : List Value}
    (h : Rolling.Lists base items kept rolled) : rolledOf items base = .ok [⟨kept, rolled⟩] := by
  cases h with
  | @listed clause _ hkind hcolumns hne =>
    have hcolumn : Value.isColumn (.node clause) = false := hkind
    have hitem : rolledItem base (.node clause) = .ok [⟨base, rolled⟩] := by
      rw [rolledItem, hcolumns]
      cases rolled with
      | nil => exact absurd rfl hne
      | cons first rest => rfl
    simp [rolledOf, hcolumn, hitem]
  | @plain clause hkind hnone =>
    have hcolumn : Value.isColumn (.node clause) = false := hkind
    have hitem : rolledItem base (.node clause) = .ok [⟨[], base⟩] := by
      rw [rolledItem, hnone]
      rfl
    simp [rolledOf, hcolumn, hitem]
  | loose hcolumns hne =>
    have hgroups : items.filter (!·.isColumn) = [] := by
      rw [List.filter_eq_nil_iff]
      intro item hitem
      simp [hcolumns item hitem]
    have hloose : items.filter Value.isColumn = items := List.filter_eq_self.2 hcolumns
    simp [rolledOf, hgroups, hloose, hne]
    rfl

/-- The grouping sets of a query with one rollup or cube. -/
theorem groupingSets_of_standsAlone {clause : Rolling} {select group : Node}
    {kept rolled : List Value} (hgroup : select.arg "group" = .node group)
    (h : clause.StandsAlone group kept rolled) :
    groupingSets select = .ok (some ((clause.sets rolled).map (kept ++ ·))) := by
  obtain ⟨base, items, hbase, hitems, hlists⟩ := h.items
  have hone := rolledOf_of_lists hlists
  have hnone : rolledOf [] base = .ok [] := rfl
  have hread : (select.arg "group").nodeIfThere = .ok (some group) := by rw [hgroup]; rfl
  cases clause with
  | rollup =>
    have hother : group.itemsOf "cube" = .ok [] := h.other
    have hitems : group.itemsOf "rollup" = .ok items := hitems
    simp only [groupingSets, hread, hbase, h.listed, hitems, hother, bind, Except.bind, hone, hnone]
    simp [Rolling.sets]
    rfl
  | cube =>
    have hother : group.itemsOf "rollup" = .ok [] := h.other
    have hitems : group.itemsOf "cube" = .ok items := hitems
    simp only [groupingSets, hread, hbase, h.listed, hitems, hother, bind, Except.bind, hone, hnone]
    simp [Rolling.sets]
    rfl

/-- The sets of a clause begin with all columns, and no set has any other one. -/
theorem Rolling.exists_sets {α : Type} (clause : Rolling) (columns : List α) :
    ∃ smaller, clause.sets columns = columns :: smaller ∧
      ∀ set ∈ smaller, set.Sublist columns := by
  have hrange : (List.range (columns.length + 1)).reverse =
      columns.length :: (List.range columns.length).reverse := by
    rw [List.range_succ, List.reverse_append]
    rfl
  cases clause with
  | rollup =>
    refine ⟨(List.range columns.length).reverse.map columns.take, ?_, fun set hset => ?_⟩
    · rw [sets, rollupSets, hrange, List.map_cons, List.take_length]
    · obtain ⟨n, -, rfl⟩ := List.mem_map.1 hset
      exact List.take_sublist n columns
  | cube =>
    have hall : choices columns.length columns = [columns] := by
      have hperm := choices_perm_sublistsLen columns columns.length
      rwa [List.sublistsLen_length, List.perm_singleton] at hperm
    refine ⟨(List.range columns.length).reverse.flatMap fun n => choices n columns, ?_,
      fun set hset => ?_⟩
    · rw [sets, cubeSets, hrange, List.flatMap_cons, hall]
      rfl
    · obtain ⟨n, -, hset⟩ := List.mem_flatMap.1 hset
      exact (List.mem_sublistsLen.1 ((choices_perm_sublistsLen columns n).subset hset)).1

/-- Related lists have related choices. -/
theorem forall₂_choices {α β : Type} {R : α → β → Prop} {xs : List α} {ys : List β}
    (h : List.Forall₂ R xs ys) : ∀ n,
    List.Forall₂ (List.Forall₂ R) (choices n xs) (choices n ys) := by
  induction h with
  | nil =>
    intro n
    cases n with
    | zero => exact .cons .nil .nil
    | succ n => exact .nil
  | @cons x y xs ys hxy hrest ih =>
    intro n
    cases n with
    | zero => exact .cons .nil .nil
    | succ n =>
      have hfirst : List.Forall₂ (List.Forall₂ R) ((choices n xs).map (x :: ·))
          ((choices n ys).map (y :: ·)) := by
        rw [List.forall₂_map_left_iff, List.forall₂_map_right_iff]
        exact (ih n).imp fun _ _ hset => .cons hxy hset
      exact List.rel_append hfirst (ih (n + 1))

/-- Members that correspond make up sets that correspond. -/
theorem Rolling.forall₂_sets {α β : Type} {R : α → β → Prop} (clause : Rolling) {xs : List α}
    {ys : List β} (h : List.Forall₂ R xs ys) :
    List.Forall₂ (List.Forall₂ R) (clause.sets xs) (clause.sets ys) := by
  cases clause with
  | rollup =>
    rw [sets, sets, rollupSets, rollupSets, h.length_eq, List.forall₂_map_left_iff,
      List.forall₂_map_right_iff, List.forall₂_same]
    exact fun n _ => List.forall₂_take n h
  | cube =>
    rw [sets, sets, cubeSets, cubeSets, h.length_eq]
    refine List.rel_flatMap (List.forall₂_same.2 fun n _ => rfl) ?_
    rintro n _ rfl
    exact forall₂_choices h n

end Sql

/-! ## The columns of the sets -/

section
variable {kept rolled : List Attribute}

/-- The grouping sets of a clause over columns. -/
def rolledSets (clause : Sql.Rolling) (kept rolled : List Attribute) : List AttributeSet :=
  (clause.sets rolled).map fun choice => .ofList (kept ++ choice)

/-- The columns of the sets are those of the largest, which stands first. -/
theorem groupingColumns_rolledSets (clause : Sql.Rolling)
    (hids : ((kept ++ rolled).map Attribute.id).Nodup) :
    groupingColumns (rolledSets clause kept rolled) = kept ++ rolled := by
  obtain ⟨smaller, hsets, hsublist⟩ := clause.exists_sets rolled
  have hall : (AttributeSet.ofList (kept ++ rolled)).attrs = kept ++ rolled :=
    AttributeSet.attrs_ofList_of_nodup hids
  have hfirst : AttributeSet.ofList (AttributeSet.ofList (kept ++ rolled)).attrs =
      .ofList (kept ++ rolled) := AttributeSet.ofList_attrs _
  rw [groupingColumns, rolledSets, hsets, List.map_cons, List.flatMap_cons,
    AttributeSet.ofList_append_of_subset, hfirst, hall]
  rw [hall]
  intro a ha
  obtain ⟨members, hmembers, ha⟩ := List.mem_flatMap.1 ha
  obtain ⟨choice, hchoice, rfl⟩ := List.mem_map.1 hmembers
  rcases List.mem_append.1 (AttributeSet.mem_of_mem_ofList ha) with ha | ha
  · exact List.mem_append_left rolled ha
  · exact List.mem_append_right kept ((hsublist choice hchoice).subset ha)

/-- The numbers of the sets of a clause. -/
def rolledNumbers (clause : Sql.Rolling) (kept rolled : List Attribute) : List Nat :=
  (rolledSets clause kept rolled).map (groupingMask (kept ++ rolled))

/-- The sets of a clause have the numbers of its kind. -/
theorem hasNumbers_rolledNumbers (clause : Sql.Rolling)
    (hids : ((kept ++ rolled).map Attribute.id).Nodup) :
    clause.HasNumbers rolled.length (rolledNumbers clause kept rolled) := by
  have hkept : rolledNumbers clause kept rolled =
      (clause.sets rolled).map fun choice => groupingMask rolled (.ofList choice) := by
    rw [rolledNumbers, rolledSets, List.map_map]
    exact List.map_congr_left fun choice _ => groupingMask_of_kept hids choice
  have hrolled : (rolled.map Attribute.id).Nodup := by
    rw [List.map_append] at hids
    exact hids.of_append_right
  rw [hkept]
  cases clause with
  | rollup => exact map_groupingMask_rollupSets hrolled
  | cube => exact map_groupingMask_cubeSets hrolled

/-- The number of a set is below the power of two for all columns. -/
theorem Sql.Rolling.HasNumbers.lt {clause : Sql.Rolling} {width mask : Nat} {masks : List Nat}
    (h : clause.HasNumbers width masks) (hmask : mask ∈ masks) : mask < 2 ^ width := by
  cases clause with
  | rollup =>
    obtain rfl := h
    obtain ⟨j, hj, rfl⟩ := List.mem_map.1 hmask
    have hle : 2 ^ j ≤ 2 ^ width :=
      Nat.pow_le_pow_right Nat.two_pos (Nat.lt_succ_iff.1 (List.mem_range.1 hj))
    have hpos : 0 < 2 ^ j := Nat.two_pow_pos j
    omega
  | cube => exact List.mem_range.1 (h.subset hmask)

/-- A column that every set keeps is `NULL` in no row. -/
theorem Sql.Rolling.HasNumbers.testBit_eq_false {clause : Sql.Rolling} {width mask place more : Nat}
    {masks : List Nat} (h : clause.HasNumbers width masks) (hmask : mask ∈ masks)
    (hplace : place < more) : mask.testBit (more + width - 1 - place) = false := by
  refine Nat.testBit_lt_two_pow (Nat.lt_of_lt_of_le (h.lt hmask) ?_)
  exact Nat.pow_le_pow_right Nat.two_pos (by omega)

end

/-! ## Planning a clause -/

/-- Columns are read back from the expressions that they are. -/
theorem Expr.mapM_asColumn?_map_column (columns : List Attribute) :
    (columns.map Expr.column).mapM Expr.asColumn? = some columns := by
  induction columns with
  | nil => rfl
  | cons c rest ih => rw [List.map_cons, List.mapM_cons, ih]; rfl

/-- The rows of a plan, once for each number of a grouping set, with a copy of each grouping column
and the number. -/
def Plan.expandedByNumbers (child : Plan) (columns copies : List Attribute) (number : Attribute)
    (masks : List Nat) : Plan :=
  .expand (masks.map (numberedRow child.output columns)) (child.output ++ copies ++ [number]) child

/-- Expanding by the sets of a clause is expanding by their numbers. -/
theorem expandedBy_rolledSets (child : Plan) (clause : Sql.Rolling) {kept rolled : List Attribute}
    (hids : ((kept ++ rolled).map Attribute.id).Nodup) (copies : List Attribute)
    (number : Attribute) :
    child.expandedBy (rolledSets clause kept rolled) copies number =
      child.expandedByNumbers (kept ++ rolled) copies number
        (rolledNumbers clause kept rolled) := by
  rw [Plan.expandedBy, groupingColumns_rolledSets clause hids, Plan.expandedByNumbers,
    rolledNumbers, List.map_map]
  congr 1
  exact List.map_congr_left fun members _ => groupingRow_eq_numberedRow child.output _

namespace Resolver

variable {resolve : Resolver} {select : Sql.Node} {scope : Scope} {context : Context}

/-- The term of a `GROUP BY` clause stands for the column. -/
def ResolvesTo (resolve : Resolver) (select : Sql.Node) (scope : Scope) (context : Context)
    (term : Sql.Value) (a : Attribute) : Prop :=
  ∀ numbers, (resolve.groupingTerm select scope term context numbers).result = .ok (.column a)

/-- Terms that stand for columns are the set of these columns. -/
theorem result_groupingMembers {terms : List Sql.Value} {columns : List Attribute}
    (h : List.Forall₂ (resolve.ResolvesTo select scope context) terms columns)
    (numbers : Numbers) :
    (resolve.groupingMembers select scope terms context numbers).result =
      .ok (.ofList columns) := by
  have hterms : List.Forall₂ (fun term e => ∀ numbers,
      (resolve.groupingTerm select scope term context numbers).result = .ok e) terms
      (columns.map Expr.column) := List.forall₂_map_right_iff.2 h
  rw [groupingMembers, Planner.result_bind_eq_ok]
  refine ⟨_, Planner.result_mapM hterms numbers, ?_⟩
  rw [Expr.mapM_asColumn?_map_column]
  rfl

/-- The grouping columns of a query with one rollup or cube, where they resolve to columns of their
own, are those of the rows that are made for its sets. -/
theorem result_groupingMembers_of_rolling (clause : Sql.Rolling)
    {keptTerms rolledTerms : List Sql.Value} {kept rolled : List Attribute}
    (hkept : List.Forall₂ (resolve.ResolvesTo select scope context) keptTerms kept)
    (hrolled : List.Forall₂ (resolve.ResolvesTo select scope context) rolledTerms rolled)
    (numbers : Numbers) :
    ((((clause.sets rolledTerms).map (keptTerms ++ ·)).mapM
      (resolve.groupingMembers select scope)) context numbers).result =
      .ok (rolledSets clause kept rolled) := by
  refine Planner.result_mapM ?_ numbers
  rw [rolledSets, List.forall₂_map_left_iff, List.forall₂_map_right_iff]
  exact (clause.forall₂_sets hrolled).imp fun terms columns hset =>
    result_groupingMembers (List.rel_append hkept hset)

/-- A query with grouping sets may have no window function in its select list. -/
theorem result_aggregate_eq_ok {sets : List (List Sql.Value)}
    (hsets : Sql.groupingSets select = .ok (some sets)) {child plan : Plan} {numbers : Numbers} :
    (resolve.aggregate select scope child context numbers).result = .ok plan ↔
      select.hasWindows = .ok false ∧
        (resolve.groupingSets select scope child sets context numbers).result = .ok plan := by
  have hread : (Planner.ofExcept (Sql.groupingSets select) : Planner _) = pure (some sets) := by
    rw [hsets]
    rfl
  rw [aggregate, hread]
  cases hwindows : select.hasWindows with
  | error e => 
    constructor
    · rintro ⟨⟩
    · rintro ⟨⟨⟩, -⟩
  | ok windows =>
    cases windows with
    | true =>
      constructor
      · rintro ⟨⟩
      · rintro ⟨⟨⟩, -⟩
    | false => exact (and_iff_right rfl).symm

/-- A query is grouped by its sets over new columns, one for each grouping column and one for the
number of the set. -/
theorem exists_groupingSets {sets : List (List Sql.Value)} {members : List AttributeSet}
    {numbers : Numbers}
    (hmembers : (sets.mapM (resolve.groupingMembers select scope) context numbers).result =
      .ok members) (child : Plan) :
    ∃ copies number after, copies.length = (groupingColumns members).length ∧ ∀ plan,
      (resolve.groupingSets select scope child sets context numbers).result = .ok plan ↔
        ∃ items, (resolve.plainSelectList scope select context after).result = .ok items ∧
          plan = child.groupedBySets members copies number items := by
  let before := (sets.mapM (resolve.groupingMembers select scope) context numbers).numbers
  obtain ⟨copies, hcopies, hnames, -⟩ := Planner.exists_freshColumns context
    ((groupingColumns members).map Attribute.name) before
  have hlike : (Planner.freshLike (groupingColumns members) context before).result = .ok copies :=
    congrArg Outcome.result hcopies
  let between := (Planner.freshLike (groupingColumns members) context before).numbers
  obtain ⟨number, hnumber⟩ : ∃ number,
      (Planner.freshColumn (some "spark_grouping_id") context between).result = .ok number :=
    ⟨_, rfl⟩
  refine ⟨copies, number,
    (Planner.freshColumn (some "spark_grouping_id") context between).numbers,
    by simpa using congrArg List.length hnames, fun plan => ?_⟩
  rw [groupingSets, Planner.result_bind_of_ok hmembers, Planner.result_bind_of_ok hlike,
    Planner.result_bind_of_ok hnumber, Planner.result_bind_eq_ok]
  refine exists_congr fun items => and_congr_right fun _ => ?_
  rw [Planner.pure_apply, Except.ok.injEq, eq_comm]

/-- The groups of one rollup or cube, whose columns resolve to columns of their own, are planned
over one row for each set of the clause, known by the numbers of the sets: no set lacks a column
that all keep, and each row is as wide as the expansion. -/
theorem aggregate_of_rolling {resolve : Resolver} {select group : Sql.Node} {scope : Scope}
    {context : Context} {clause : Sql.Rolling} {keptTerms rolledTerms : List Sql.Value}
    {kept rolled : List Attribute} (hgroup : select.arg "group" = .node group)
    (hclause : clause.StandsAlone group keptTerms rolledTerms)
    (hkept : List.Forall₂ (resolve.ResolvesTo select scope context) keptTerms kept)
    (hrolled : List.Forall₂ (resolve.ResolvesTo select scope context) rolledTerms rolled)
    (hids : ((kept ++ rolled).map Attribute.id).Nodup) (child : Plan) (numbers : Numbers) :
    ∃ masks copies number after, clause.HasNumbers rolled.length masks ∧
      (∀ mask ∈ masks, ∀ place < kept.length,
        mask.testBit ((kept ++ rolled).length - 1 - place) = false) ∧
      (∀ row ∈ masks.map (numberedRow child.output (kept ++ rolled)),
        row.length = (child.output ++ copies ++ [number]).length) ∧
      ∀ plan, (resolve.aggregate select scope child context numbers).result = .ok plan ↔
        select.hasWindows = .ok false ∧ ∃ items,
          (resolve.plainSelectList scope select context after).result = .ok items ∧
          plan = .aggregate ((copies ++ [number]).map Expr.column)
            (items.map (·.substitute (copyOf? (kept ++ rolled) copies)))
            (child.expandedByNumbers (kept ++ rolled) copies number masks) := by
  have hcolumns := groupingColumns_rolledSets clause hids
  have hnumbers := hasNumbers_rolledNumbers clause hids
  obtain ⟨copies, number, after, hcopies, hplans⟩ := exists_groupingSets
    (result_groupingMembers_of_rolling clause hkept hrolled numbers) child
  rw [hcolumns] at hcopies
  refine ⟨rolledNumbers clause kept rolled, copies, number, after, hnumbers, ?_, ?_, fun plan => ?_⟩
  · intro mask hmask place hplace
    rw [List.length_append]
    exact hnumbers.testBit_eq_false hmask hplace
  · intro row hrow
    obtain ⟨mask, -, rfl⟩ := List.mem_map.1 hrow
    simp [hcopies, Nat.add_assoc]
  · rw [result_aggregate_eq_ok (Sql.groupingSets_of_standsAlone hgroup hclause), hplans]
    rw [← expandedBy_rolledSets child clause hids, ← hcolumns]
    rfl

end Resolver

namespace Planner

/-- A query that groups by one rollup or cube, whose columns resolve to columns of their own, reads
an expansion of its source: a rollup has the rows of the numbers below the powers of two in order, a
cube those of all numbers, each once. A row has `NULL` for the columns whose bits are set in its
number, which no column is that every set keeps, and is as wide as the expansion. -/
theorem select_of_rolling {stored : String → Planner Plan} {below : Tier} {outer : Scope}
    {node group : Sql.Node} {context : Context} {numbers : Numbers} {child : Plan} {frame : Frame}
    {clause : Sql.Rolling} {keptTerms rolledTerms : List Sql.Value} {kept rolled : List Attribute}
    (hfrom : (fromClause stored below.query outer node context numbers).result =
      .ok (child, frame))
    (hgroup : node.arg "group" = .node group)
    (hclause : clause.StandsAlone group keptTerms rolledTerms)
    (hkept : List.Forall₂ (below.resolve.ResolvesTo node (frame :: outer) context) keptTerms kept)
    (hrolled : List.Forall₂ (below.resolve.ResolvesTo node (frame :: outer) context) rolledTerms
      rolled)
    (hids : ((kept ++ rolled).map Attribute.id).Nodup) :
    ∃ masks copies number after, clause.HasNumbers rolled.length masks ∧
      (∀ mask ∈ masks, ∀ place < kept.length,
        mask.testBit ((kept ++ rolled).length - 1 - place) = false) ∧
      (∀ row ∈ masks.map (numberedRow (wrapIf node "where" "Filter" child).output (kept ++ rolled)),
        row.length =
          ((wrapIf node "where" "Filter" child).output ++ copies ++ [number]).length) ∧
      ∀ plan, (select stored below outer node context numbers).result = .ok plan ↔
        node.hasWindows = .ok false ∧ ∃ items,
          (below.resolve.plainSelectList (frame :: outer) node context after).result = .ok items ∧
          plan = withModifiers node (wrapIf node "distinct" "Distinct"
            (wrapIf node "having" "Filter" (.aggregate ((copies ++ [number]).map Expr.column)
              (items.map (·.substitute (copyOf? (kept ++ rolled) copies)))
              ((wrapIf node "where" "Filter" child).expandedByNumbers (kept ++ rolled) copies number
                masks)))) := by
  obtain ⟨masks, copies, number, after, hnumbers, hkeeps, hwide, hplans⟩ :=
    Resolver.aggregate_of_rolling hgroup hclause hkept hrolled hids
      (wrapIf node "where" "Filter" child)
      (fromClause stored below.query outer node context numbers).numbers
  refine ⟨masks, copies, number, after, hnumbers, hkeeps, hwide, fun plan => ?_⟩
  have haggregate : node.isAggregate = .ok true := by
    rw [Sql.Node.isAggregate, hgroup]
    rfl
  -- what comes after the grouping is only wrapped around it
  have hmodified : (select stored below outer node context numbers).result =
      ((below.resolve.aggregate node (frame :: outer) (wrapIf node "where" "Filter" child) >>=
        fun plan => pure (withModifiers node (wrapIf node "distinct" "Distinct"
          (wrapIf node "having" "Filter" plan)))) context
        (fromClause stored below.query outer node context numbers).numbers).result := by
    rw [select, result_bind_of_ok hfrom, haggregate, result_bind_of_ok rfl]
    rfl
  rw [hmodified, result_bind_eq_ok]
  constructor
  · rintro ⟨grouped, hgrouped, hplan⟩
    obtain ⟨hwindows, items, hitems, rfl⟩ := (hplans grouped).1 hgrouped
    exact ⟨hwindows, items, hitems, (Except.ok.inj hplan).symm⟩
  · rintro ⟨hwindows, items, hitems, rfl⟩
    exact ⟨_, (hplans _).2 ⟨hwindows, items, hitems, rfl⟩, rfl⟩

end Planner

/-! ## A cube over two columns beside a third -/

/-- A column that the sources have stands for itself, even where an alias has its name. -/
theorem Resolver.resolvesTo_of_column {stored : String → Planner Plan} {height : Nat}
    {select node : Sql.Node} {scope : Scope} {context : Context} {a : Attribute}
    (hkind : node.is "Column" = true) (hstar : node.isStarColumn = false)
    (hfound : scope.column node = .ok a)
    (hplain : node.isUnqualified = true → ∃ b, scope.find none node.normalName = .ok (some b)) :
    ((Tier.upTo stored (height + 1)).resolve).ResolvesTo select scope context (.node node) a := by
  intro numbers
  have hliteral : node.is "Literal" = false := by
    obtain hkind : node.kind = "Column" := beq_iff_eq.1 hkind
    simp [Sql.Node.is, hkind]
  have hresolved : ((Tier.upTo stored (height + 1)).resolve.plain scope (.node node) context
      numbers).result = .ok (.column a) := by
    have hstep : (Tier.upTo stored (height + 1)).resolve scope node = pure (.column a) := by
      simp only [Tier.upTo, step, hkind, hstar, hfound, if_true, if_neg Bool.false_ne_true]
      rfl
    have hvalue : (Tier.upTo stored (height + 1)).resolve.value scope (.node node) =
        (Tier.upTo stored (height + 1)).resolve scope node := rfl
    rw [plain, hvalue, hstep]
    rfl
  rw [groupingTerm]
  simp only [Sql.Value.node?, hliteral, hkind, Bool.false_and, Bool.true_and,
    if_neg Bool.false_ne_true]
  by_cases hunqualified : node.isUnqualified = true
  · obtain ⟨b, hb⟩ := hplain hunqualified
    rw [if_pos hunqualified, hb]
    exact hresolved
  · rw [if_neg hunqualified]
    exact hresolved

/-- `GROUP BY t.a, CUBE (t.b, t.c)` -/
def Sql.Node.cubeGroup : Sql.Node :=
  let cube := ofKind "Cube" "" [("expressions", .list [.node (ofColumn "t" "b"),
    .node (ofColumn "t" "c")])]
  ofKind "Group" "" [("expressions", .list [.node (ofColumn "t" "a")]),
    ("cube", .list [.node cube])]

/-- The clause has one cube beside a plain column. -/
theorem Sql.Node.standsAlone_cubeGroup : Sql.Rolling.StandsAlone .cube cubeGroup
    [.node (ofColumn "t" "a")] [.node (ofColumn "t" "b"), .node (ofColumn "t" "c")] where
  listed := rfl
  other := rfl
  items := ⟨_, _, rfl, rfl, .listed rfl rfl (List.cons_ne_nil _ _)⟩

/-- `SELECT t.c FROM t GROUP BY t.a, CUBE (t.b, t.c)` -/
def Sql.Node.cubed : Sql.Node :=
  ofSelect [("group", .node cubeGroup)] [ofColumn "t" "c"] "t"

/-- A catalog with a table `t(a, b, c)`. -/
def Context.ofThree : Context :=
  { catalog := Catalog.empty.registerTable (some "t") [some "a", some "b", some "c"]
    library := [], engine := "spark", root := .cubed, ctes := [], expanding := [] }

/-- A cube over two columns beside a plain one has four rows for each row of the table. -/
theorem Planner.select_cubed :
    let stored := storedQuery 0
    let columns : List Attribute := [⟨1, some "a", []⟩, ⟨2, some "b", []⟩, ⟨3, some "c", []⟩]
    let child := Plan.relation columns (some ⟨"t", none, none⟩)
    ∃ masks copies number items, masks.Perm (List.range 4) ∧
      (∀ mask ∈ masks, mask.testBit 2 = false) ∧
      (∀ row ∈ masks.map (numberedRow columns columns),
        row.length = (columns ++ copies ++ [number]).length) ∧
      (select stored (Tier.upTo stored 3) [] .cubed .ofThree .start).result =
        .ok (.aggregate ((copies ++ [number]).map Expr.column) items
          (child.expandedByNumbers columns copies number masks)) := by
  intro stored columns child
  have hfrom : (fromClause stored (Tier.upTo stored 3).query [] .cubed .ofThree .start).result =
      .ok (child, .ofSources [⟨"t", ["t"], columns, false⟩]) := rfl
  have hresolves : ∀ node a, node.is "Column" = true → node.isStarColumn = false →
      node.isUnqualified = false → Scope.column [.ofSources [⟨"t", ["t"], columns, false⟩]] node =
        .ok a → (Tier.upTo stored 3).resolve.ResolvesTo .cubed
          [.ofSources [⟨"t", ["t"], columns, false⟩]] .ofThree (.node node) a := by
    intro node a hkind hstar hqualified hfound
    refine Resolver.resolvesTo_of_column hkind hstar hfound fun hunqualified => ?_
    rw [hqualified] at hunqualified
    cases hunqualified
  obtain ⟨masks, copies, number, after, hnumbers, hkeeps, hwide, hplans⟩ :=
    select_of_rolling hfrom rfl Sql.Node.standsAlone_cubeGroup
      (.cons (hresolves _ ⟨1, some "a", []⟩ rfl rfl rfl rfl) .nil)
      (.cons (hresolves _ ⟨2, some "b", []⟩ rfl rfl rfl rfl)
        (.cons (hresolves _ ⟨3, some "c", []⟩ rfl rfl rfl rfl) .nil)) (by decide)
  refine ⟨masks, copies, number, _, hnumbers, fun mask hmask => hkeeps mask hmask 0 Nat.one_pos,
    hwide, (hplans _).2 ⟨rfl, _, rfl, rfl⟩⟩

end ColumnTrace
