import ColumnTrace.Planner.Grouping
import ColumnTrace.Planner.Relation
import ColumnTrace.Proofs.Expressions
import ColumnTrace.Proofs.Planner.Sites
import ColumnTrace.Proofs.Representatives

/-!
# Sound plans

Planned queries are closed, and they are built in a way of their own: an operator without a rule of
its own has one child and its columns, and the columns of unions, views and stored results stand for
those of queries, one for one. `Plan.SoundIn` says this of a plan and all that stands below it; each
operator has a lemma that builds a sound plan from sound parts.
-/

set_option autoImplicit false

namespace ColumnTrace

namespace Plan

/-- The rows of the plan come from select lists, which operators without a rule of their own, set
operations and `WITH` clauses may stand over. -/
inductive IsResult : Plan → Prop
  | project (items : List SelectItem) (child : Plan) : IsResult (.project items child)
  | aggregate (grouping : List Expr) (items : List SelectItem) (child : Plan) :
    IsResult (.aggregate grouping items child)
  | operator (name : String) {child : Plan} (output : List Attribute) (h : child.IsResult) :
    IsResult (.operator name [child] output)
  | ofLeft {left : Plan} (right : Plan) {type : JoinType} (condition : Option Expr)
    (hhides : type.exposesRight = false) (h : left.IsResult) :
    IsResult (.join left right type condition)
  | union {branches : List Plan} (output : List Attribute)
    (h : ∀ branch ∈ branches, branch.IsResult) : IsResult (.union branches output)
  | withCte (definitions : List CteDefinition) {body : Plan} (h : body.IsResult) :
    IsResult (.withCte definitions body)

/-- The columns stand for those of a query, one for one. -/
structure StandsFor (output : List Attribute) (query : Plan) : Prop where
  isResult : query.IsResult
  length : output.length = query.output.length

/-- What a query is made of: operators without a rule of their own have one child and its columns,
and the columns of unions, views and stored results stand for those of queries. -/
inductive Arranged : Plan → Prop
  | project (items : List SelectItem) (child : Plan) : Arranged (.project items child)
  | aggregate (grouping : List Expr) (items : List SelectItem) (child : Plan) :
    Arranged (.aggregate grouping items child)
  | window (functions : List Alias) (child : Plan) (partition order : List Expr) :
    Arranged (.window functions child partition order)
  | expand (projections : List (List Expr)) (output : List Attribute) (child : Plan) :
    Arranged (.expand projections output child)
  | join (left right : Plan) (type : JoinType) (condition : Option Expr) :
    Arranged (.join left right type condition)
  | union {first second : Plan} {rest : List Plan} {output : List Attribute} (hnodup : output.Nodup)
    (h : ∀ branch ∈ first :: second :: rest, StandsFor output branch) :
    Arranged (.union (first :: second :: rest) output)
  | relation (output : List Attribute) (table : Option TableName) :
    Arranged (.relation output table)
  | localRelation (output : List Attribute) (rows : List (List String)) :
    Arranged (.localRelation output rows)
  | oneRow : Arranged .oneRow
  | view (name : TableName) {output : List Attribute} {body : Plan} (temporary : Bool)
    (h : StandsFor output body) : Arranged (.view name output body temporary)
  | cached {output : List Attribute} {physical : PhysicalNode} {query : Plan}
    (table : Option String) (hlink : PhysicalNode.findLink [physical] = some query)
    (h : StandsFor output query) : Arranged (.cached output physical table)
  | cteReference (id : Int) (output : List Attribute) : Arranged (.cteReference id output)
  | withCte (definitions : List CteDefinition) (body : Plan) : Arranged (.withCte definitions body)
  | operator (name : String) (child : Plan) {output : List Attribute}
    (h : output.length = child.output.length) : Arranged (.operator name [child] output)

end Plan


/-- The site is closed, and the plan there is built as queries are. -/
structure Site.IsSound (s : Site) : Prop where
  closed : s.IsClosed
  arranged : s.plan.Arranged

theorem Site.IsSound.widen {s t : Site} (hwidens : s.Widens t) (h : s.IsSound) : t.IsSound :=
  ⟨h.closed.widen hwidens, hwidens.plan ▸ h.arranged⟩

/-- Among these rows of the queries around, the plan and all that stands below it are sound. -/
def Plan.SoundIn (ctes : List (Int × Nat)) (outer : List Attribute) (plan : Plan) : Prop :=
  Site.All Site.IsSound ⟨ctes, outer, plan⟩

/-- The plan is sound, and its rows come from select lists. -/
structure Plan.QueryIn (ctes : List (Int × Nat)) (outer : List Attribute) (plan : Plan) : Prop where
  sound : plan.SoundIn ctes outer
  isResult : plan.IsResult

/-- The expression reads only these columns, and its subqueries are sound among these rows. -/
structure Expr.FitsIn (ctes : List (Int × Nat)) (rows columns : List Attribute) (e : Expr) :
    Prop where
  reads : ∀ a ∈ e.attributes, a ∈ columns
  subqueries : ∀ query ∈ e.subqueries, query.SoundIn ctes rows

variable {ctes : List (Int × Nat)} {rows outer columns : List Attribute} {plan child : Plan}

namespace Expr.FitsIn

/-- An expression that reads some columns fits where there are more. -/
theorem mono {more : List Attribute} {e : Expr} (h : e.FitsIn ctes rows columns)
    (hmore : columns ⊆ more) : e.FitsIn ctes rows more :=
  ⟨fun a ha => hmore (h.reads a ha), h.subqueries⟩

theorem column {a : Attribute} (h : a ∈ columns) : (Expr.column a).FitsIn ctes rows columns :=
  ⟨fun b hb => List.mem_singleton.1 hb ▸ h, by simp [Expr.subqueries]⟩

theorem literal (text : String) : (Expr.literal text).FitsIn ctes rows columns :=
  ⟨by simp [Expr.attributes], by simp [Expr.subqueries]⟩

theorem subquery (h : plan.SoundIn ctes rows) : (Expr.subquery plan).FitsIn ctes rows columns :=
  ⟨by simp [Expr.attributes], fun _ hquery => List.mem_singleton.1 hquery ▸ h⟩

/-- A function fits if its arguments do. -/
theorem call {name : String} {args : List Expr} (h : ∀ e ∈ args, e.FitsIn ctes rows columns) :
    (Expr.call name args).FitsIn ctes rows columns := by
  refine ⟨fun a ha => ?_, fun query hquery => ?_⟩
  · obtain ⟨e, he, ha⟩ := Expr.mem_attributesOfAll.1 ha
    exact (h e he).reads a ha
  · obtain ⟨e, he, hquery⟩ := Expr.mem_subqueriesOfAll.1 hquery
    exact (h e he).subqueries query hquery

/-- A count of rows fits if its arguments do. -/
theorem count {args : List Expr} {distinct : Bool} (h : ∀ e ∈ args, e.FitsIn ctes rows columns) :
    (Expr.count args distinct).FitsIn ctes rows columns :=
  let parts : (Expr.call "" args).FitsIn ctes rows columns := call h
  ⟨parts.reads, parts.subqueries⟩

/-- A window function fits if the function, its partition and its order do. -/
theorem windowed {function : Expr} {partition order : List Expr}
    (hfunction : function.FitsIn ctes rows columns)
    (hpartition : ∀ e ∈ partition, e.FitsIn ctes rows columns)
    (horder : ∀ e ∈ order, e.FitsIn ctes rows columns) :
    (Expr.windowed function partition order).FitsIn ctes rows columns := by
  refine ⟨fun a ha => ?_, fun query hquery => ?_⟩
  · simp only [Expr.attributes, List.mem_append, Expr.mem_attributesOfAll] at ha
    rcases ha with ha | ⟨e, he, ha⟩ | ⟨e, he, ha⟩
    · exact hfunction.reads a ha
    · exact (hpartition e he).reads a ha
    · exact (horder e he).reads a ha
  · simp only [Expr.subqueries, List.mem_append, Expr.mem_subqueriesOfAll] at hquery
    rcases hquery with hquery | ⟨e, he, hquery⟩ | ⟨e, he, hquery⟩
    · exact hfunction.subqueries query hquery
    · exact (hpartition e he).subqueries query hquery
    · exact (horder e he).subqueries query hquery

/-- A named expression fits if the expression does. -/
theorem aliased {f : Alias} (h : f.child.FitsIn ctes rows columns) :
    (Expr.aliased f).FitsIn ctes rows columns := by
  obtain ⟨child, name, id⟩ := f
  exact ⟨h.reads, h.subqueries⟩

end Expr.FitsIn

namespace Plan

/-- The operator adds columns of its own to the rows of its child. -/
def addsColumns : Plan → Bool
  | .window .. => true
  | .expand .. => true
  | _ => false

/-- A projection over a plan that adds no columns works on the rows of that plan. -/
theorem blockInput_project (items : List SelectItem) (h : child.addsColumns = false) :
    (Plan.project items child).blockInput = child.output := by
  cases child <;> simp_all [addsColumns, blockInput, input, children]

/-- An aggregation over a plan that adds no columns works on the rows of that plan. -/
theorem blockInput_aggregate (grouping : List Expr) (items : List SelectItem)
    (h : child.addsColumns = false) : (Plan.aggregate grouping items child).blockInput =
      child.output := by
  cases child <;> simp_all [addsColumns, blockInput, input, children]

/-- An operator is sound where its expressions fit and the plans below it are sound. -/
theorem SoundIn.of_exprs (harranged : plan.Arranged)
    (hbelow : (Site.mk ctes outer plan).below =
      plan.children.map (fun child => ⟨ctes, outer, child⟩) ++
        (Expr.subqueriesOfAll plan.exprs).map fun query =>
          ⟨ctes, plan.blockInput ++ outer, query⟩)
    (hassigned : plan.columnsAssigned = []) (hreference : plan.reference? = none)
    (hchildren : ∀ child ∈ plan.children, child.SoundIn ctes outer)
    (hexprs : ∀ e ∈ plan.exprs,
      e.FitsIn ctes (plan.blockInput ++ outer) (plan.input ++ outer)) :
    plan.SoundIn ctes outer := by
  refine .mk ⟨⟨fun a ha => ?_, ?_, ?_⟩, harranged⟩ fun b hb => ?_
  · obtain ⟨e, he, ha⟩ := Expr.mem_attributesOfAll.1 ha
    exact (hexprs e he).reads a ha
  · simp [hassigned]
  · simp [hreference]
  · rw [hbelow] at hb
    rcases List.mem_append.1 hb with hmem | hmem
    · obtain ⟨child, hchild, rfl⟩ := List.mem_map.1 hmem
      exact hchildren child hchild
    · obtain ⟨query, hquery, rfl⟩ := List.mem_map.1 hmem
      obtain ⟨e, he, hquery⟩ := Expr.mem_subqueriesOfAll.1 hquery
      exact (hexprs e he).subqueries query hquery

/-- A sound plan stays sound among more rows. -/
theorem SoundIn.widen {wider : List Attribute} (h : plan.SoundIn ctes outer)
    (hwider : outer ⊆ wider) : plan.SoundIn ctes wider :=
  Site.All.widen (fun _ _ hwidens hs => hs.widen hwidens) h ⟨rfl, hwider, rfl⟩

end Plan

/-- An expression that fits stays so among more rows and columns. -/
theorem Expr.FitsIn.widen {wider more : List Attribute} {e : Expr}
    (h : e.FitsIn ctes rows columns) (hwider : rows ⊆ wider) (hmore : columns ⊆ more) :
    e.FitsIn ctes wider more :=
  ⟨(h.mono hmore).reads, fun query hquery => (h.subqueries query hquery).widen hwider⟩

namespace Plan

/-! ## Sources -/

/-- A table is sound. -/
theorem soundIn_relation (output : List Attribute) (table : Option TableName) :
    (Plan.relation output table).SoundIn ctes outer :=
  .of_exprs (.relation output table) rfl rfl rfl (by simp [children]) (by simp [exprs])

/-- Rows that are written out are sound. -/
theorem soundIn_localRelation (output : List Attribute) (texts : List (List String)) :
    (Plan.localRelation output texts).SoundIn ctes outer :=
  .of_exprs (.localRelation output texts) rfl rfl rfl (by simp [children]) (by simp [exprs])

theorem soundIn_oneRow : Plan.oneRow.SoundIn ctes outer :=
  .of_exprs .oneRow rfl rfl rfl (by simp [children]) (by simp [exprs])

/-- A reference is sound where its query is in scope and as wide. -/
theorem soundIn_cteReference {id : Int} {output : List Attribute}
    (h : ctes.lookup id = some output.length) :
    (Plan.cteReference id output).SoundIn ctes outer := by
  refine .mk ⟨⟨by simp [exprs, Expr.attributesOfAll], by simp [columnsAssigned], ?_⟩,
    .cteReference id output⟩ (by simp [Site.below, children, exprs, Expr.subqueriesOfAll])
  rintro _ _ ⟨rfl, rfl⟩
  exact h

/-- A view over a sound query of its width is sound. -/
theorem soundIn_view (name : TableName) {output : List Attribute} {body : Plan} (temporary : Bool)
    (hbody : body.QueryIn [] []) (hlength : output.length = body.output.length) :
    (Plan.view name output body temporary).SoundIn ctes outer := by
  refine .mk ⟨⟨by simp [exprs, Expr.attributesOfAll], by simp [columnsAssigned],
    by simp [reference?]⟩, .view name temporary ⟨hbody.isResult, hlength⟩⟩ fun b hb => ?_
  rw [List.mem_singleton.1 hb]
  exact hbody.sound

/-- A stored result of a sound query of its width is sound. -/
theorem soundIn_cached {output : List Attribute} {query : Plan} (table : Option String)
    (hquery : query.QueryIn [] []) (hlength : output.length = query.output.length) :
    (Plan.cached output (Planner.storedScan query) table).SoundIn ctes outer := by
  refine .mk ⟨⟨by simp [exprs, Expr.attributesOfAll], by simp [columnsAssigned],
    by simp [reference?]⟩, .cached table rfl ⟨hquery.isResult, hlength⟩⟩ fun b hb => ?_
  have hlinks : (Planner.storedScan query).linkLevels.flatten = [query] := by
    simp [Planner.storedScan, PhysicalNode.linkLevels, PhysicalNode.linkLevelsOfAll]
  simp only [Site.below, hlinks, List.map_cons, List.map_nil] at hb
  rw [List.mem_singleton.1 hb]
  exact hquery.sound

/-- An operator without a rule of its own is sound over a sound plan. -/
theorem SoundIn.wrap (name : String) (h : plan.SoundIn ctes outer) :
    (plan.wrap name).SoundIn ctes outer :=
  .of_exprs (.operator name plan rfl) rfl rfl rfl (by simpa [Plan.wrap, children] using h)
    (by simp [Plan.wrap, exprs])

/-- A join of sound plans is sound. -/
theorem SoundIn.join {left right : Plan} (hleft : left.SoundIn ctes outer)
    (hright : right.SoundIn ctes outer) (type : JoinType) :
    (Plan.join left right type none).SoundIn ctes outer :=
  .of_exprs (.join left right type none) rfl rfl rfl (by simp [children, hleft, hright])
    (by simp [exprs])

/-- A `WITH` clause is sound where its named queries and the plan under it are. -/
theorem soundIn_withCte {definitions : List CteDefinition} {body : Plan}
    (h : ∀ b ∈ Site.ofDefinitions ctes outer definitions body, Site.All Site.IsSound b) :
    (Plan.withCte definitions body).SoundIn ctes outer :=
  .mk ⟨⟨by simp [exprs, Expr.attributesOfAll], by simp [columnsAssigned], by simp [reference?]⟩,
    .withCte definitions body⟩ h

/-! ## Queries -/

/-- An operator without a rule of its own leaves a query one. -/
theorem QueryIn.wrap (name : String) (h : plan.QueryIn ctes outer) :
    (plan.wrap name).QueryIn ctes outer :=
  ⟨h.sound.wrap name, .operator name plan.output h.isResult⟩

/-- A join that hides its right side leaves a query one. -/
theorem QueryIn.join {left right : Plan} {type : JoinType} (hhides : type.exposesRight = false)
    (hleft : left.QueryIn ctes outer) (hright : right.QueryIn ctes outer) :
    (Plan.join left right type none).QueryIn ctes outer :=
  ⟨hleft.sound.join hright.sound type, .ofLeft right none hhides hleft.isResult⟩

/-- A union of two queries as wide as itself is a query. -/
theorem QueryIn.union {left right : Plan} {output : List Attribute}
    (hleft : left.QueryIn ctes outer) (hright : right.QueryIn ctes outer) (hnodup : output.Nodup)
    (hlengthLeft : output.length = left.output.length)
    (hlengthRight : output.length = right.output.length) :
    (Plan.union [left, right] output).QueryIn ctes outer := by
  have hbranches : ∀ branch ∈ [left, right], StandsFor output branch := by
    simp only [List.mem_cons, List.not_mem_nil, or_false, forall_eq_or_imp, forall_eq]
    exact ⟨⟨hleft.isResult, hlengthLeft⟩, ⟨hright.isResult, hlengthRight⟩⟩
  refine ⟨.of_exprs (.union hnodup hbranches) rfl rfl rfl ?_ (by simp [exprs]),
    .union output fun branch hbranch => (hbranches branch hbranch).isResult⟩
  simp [children, hleft.sound, hright.sound]

/-- The columns are computed from the rows of a query. -/
theorem QueryIn.project {items : List SelectItem} (hchild : child.SoundIn ctes outer)
    (hitems : ∀ item ∈ items, item.toExpr.FitsIn ctes
      ((Plan.project items child).blockInput ++ outer) (child.output ++ outer)) :
    (Plan.project items child).QueryIn ctes outer := by
  refine ⟨.of_exprs (.project items child) rfl rfl rfl (by simpa [children] using hchild)
    fun e he => ?_, .project items child⟩
  obtain ⟨item, hitem, rfl⟩ := List.mem_map.1 he
  exact (hitems item hitem).mono (by simp [input, children])

/-- An aggregation whose expressions fit is a query. -/
theorem QueryIn.aggregate {grouping : List Expr} {items : List SelectItem}
    (hchild : child.SoundIn ctes outer)
    (hgrouping : ∀ e ∈ grouping, e.FitsIn ctes
      ((Plan.aggregate grouping items child).blockInput ++ outer) (child.output ++ outer))
    (hitems : ∀ item ∈ items, item.toExpr.FitsIn ctes
      ((Plan.aggregate grouping items child).blockInput ++ outer) (child.output ++ outer)) :
    (Plan.aggregate grouping items child).QueryIn ctes outer := by
  refine ⟨.of_exprs (.aggregate grouping items child) rfl rfl rfl (by simpa [children] using hchild)
    fun e he => ?_, .aggregate grouping items child⟩
  have hfits : e.FitsIn ctes ((Plan.aggregate grouping items child).blockInput ++ outer)
      (child.output ++ outer) := by
    rcases List.mem_append.1 he with he | he
    · exact hgrouping e he
    · obtain ⟨item, hitem, rfl⟩ := List.mem_map.1 he
      exact hitems item hitem
  exact hfits.mono (by simp [input, children])

/-- A window whose functions fit is sound. -/
theorem SoundIn.window {functions : List Alias} (hchild : child.SoundIn ctes outer)
    (hfunctions : ∀ f ∈ functions, f.child.FitsIn ctes (child.output ++ outer)
      (child.output ++ outer)) : (Plan.window functions child [] []).SoundIn ctes outer := by
  refine .of_exprs (.window functions child [] []) rfl rfl rfl (by simpa [children] using hchild) ?_
  simpa [exprs, blockInput, input, children] using hfunctions

/-- A query without groups: the window functions of its select list are computed first. -/
theorem QueryIn.select {items : List SelectItem} {functions : List Alias}
    (hchild : child.SoundIn ctes outer) (hadds : child.addsColumns = false)
    (hfunctions : ∀ f ∈ functions, f.child.FitsIn ctes (child.output ++ outer)
      (child.output ++ outer))
    (hitems : ∀ item ∈ items, item.toExpr.FitsIn ctes (child.output ++ outer)
      (child.output ++ outer ++ functions.map Alias.toAttribute)) :
    (Plan.project items
      (if functions.isEmpty then child else .window functions child [] [])).QueryIn ctes outer := by
  cases functions with
  | nil =>
    refine .project hchild fun item hitem => ?_
    rw [List.isEmpty_nil, if_pos rfl, blockInput_project items hadds]
    exact (hitems item hitem).mono (by simp)
  | cons f rest =>
    refine .project (hchild.window hfunctions) fun item hitem => (hitems item hitem).mono ?_
    intro a ha
    simp only [List.isEmpty_cons, Bool.false_eq_true, if_false, output, List.mem_append] at ha ⊢
    tauto

/-! ## Grouping sets -/

/-- The copy of a grouping column is one of the copies. -/
theorem mem_of_copyOf? {copied copies : List Attribute} {id : Int} {a : Attribute}
    (h : copyOf? copied copies id = some a) : a ∈ copies := by
  obtain ⟨pair, hfound, rfl⟩ := Option.map_eq_some_iff.1 h
  exact (List.of_mem_zip (List.mem_of_find?_eq_some hfound)).2

/-- A select list over an expansion reads the copies that stand for grouping columns. -/
theorem fitsIn_substitute {copied copies : List Attribute} {item : SelectItem}
    (h : item.toExpr.FitsIn ctes rows columns) :
    (item.substitute (copyOf? copied copies)).toExpr.FitsIn ctes rows (columns ++ copies) := by
  have hexpr : (item.substitute (copyOf? copied copies)).toExpr =
      item.toExpr.substitute (copyOf? copied copies) := by
    rcases item with a | ⟨child, name, id⟩ <;> rfl
  rw [hexpr]
  refine ⟨fun a ha => ?_, by simpa only [Expr.subqueries_substitute] using h.subqueries⟩
  rw [Expr.attributes_substitute] at ha
  obtain ⟨b, hb, rfl⟩ := List.mem_map.1 ha
  rw [Attribute.exchange]
  cases hcopy : copyOf? copied copies b.id with
  | none => exact List.mem_append_left _ (h.reads b hb)
  | some copy => exact List.mem_append_right _ (mem_of_copyOf? hcopy)

/-- An expansion reads the columns of its child and the members of the sets. -/
theorem SoundIn.expandedBy {sets : List AttributeSet} (hchild : child.SoundIn ctes outer)
    (hsets : ∀ members ∈ sets, ∀ c ∈ members.attrs, c ∈ child.output ++ outer)
    (copies : List Attribute) (number : Attribute) :
    (child.expandedBy sets copies number).SoundIn ctes outer := by
  rw [Plan.expandedBy]
  refine .of_exprs (.expand _ _ child) rfl rfl rfl (by simpa [children] using hchild)
    fun e he => ?_
  simp only [input, children, List.flatMap_cons, List.flatMap_nil, List.append_nil]
  obtain ⟨row, hrow, he⟩ := List.mem_flatten.1 he
  obtain ⟨members, -, rfl⟩ := List.mem_map.1 hrow
  simp only [groupingRow, List.mem_append, List.mem_map, List.mem_singleton] at he
  rcases he with (⟨c, hc, rfl⟩ | ⟨c, hc, rfl⟩) | rfl
  · exact .column (List.mem_append_left _ hc)
  · split
    · obtain ⟨set, hset, hc⟩ := List.mem_flatMap.1 (AttributeSet.mem_of_mem_ofList hc)
      exact .column (hsets set hset c hc)
    · exact .literal _
  · exact .literal _

/-- A select list that fits over the rows of a plan fits, exchanged, over their expansion. -/
theorem QueryIn.groupedBySets {sets : List AttributeSet} {items : List SelectItem}
    (hchild : child.SoundIn ctes outer)
    (hsets : ∀ members ∈ sets, ∀ c ∈ members.attrs, c ∈ child.output ++ outer)
    (hitems : ∀ item ∈ items, item.toExpr.FitsIn ctes (child.output ++ outer)
      (child.output ++ outer)) (copies : List Attribute) (number : Attribute) :
    (child.groupedBySets sets copies number items).QueryIn ctes outer := by
  refine .aggregate (hchild.expandedBy hsets copies number) (fun e he => ?_) fun item hitem => ?_
  · obtain ⟨c, hc, rfl⟩ := List.mem_map.1 he
    refine .column (List.mem_append_left _ ?_)
    simp only [expandedBy, output, List.append_assoc]
    exact List.mem_append_right _ hc
  · obtain ⟨entry, hentry, rfl⟩ := List.mem_map.1 hitem
    refine (fitsIn_substitute (hitems entry hentry)).mono fun a ha => ?_
    simp only [expandedBy, output, List.mem_append] at ha ⊢
    tauto

end Plan

end ColumnTrace
