import ColumnTrace.Proofs.Lineage.NamedColumns
import ColumnTrace.Proofs.Planner.SoundPlans

/-!
# Traceable plans

A plan is traceable (`Plan.Traceable`) where tracing it comes to an end and meets only plans that
are built as queries are, of columns that have names. Its `WITH` clauses can then be written out,
and what they are written out to is traceable again. Where a plan stands in the scope of named
queries, its references can be written out as soon as the scope has a traceable plan of the right
width for each (`Site.Inlines`); so at a sound site every plan can be written out, and a sound query
that stands by itself is traceable (`Site.All.inlines`).
-/

set_option autoImplicit false

namespace ColumnTrace

mutual

/-- A column stands twice in one of the select lists that the rows of a query come from. -/
def Plan.repeatsColumn : Plan → Bool
  | .project items _ => !decide (items.map SelectItem.toAttribute).Nodup
  | .aggregate _ items _ => !decide (items.map SelectItem.toAttribute).Nodup
  | .operator _ children _ => Plan.anyRepeatsColumn children
  | .join left _ _ _ => left.repeatsColumn
  | .union branches _ => Plan.anyRepeatsColumn branches
  | .withCte _ body => body.repeatsColumn
  | _ => false

/-- One of the queries repeats a column. -/
def Plan.anyRepeatsColumn : List Plan → Bool
  | [] => false
  | plan :: rest => plan.repeatsColumn || Plan.anyRepeatsColumn rest

end

namespace Plan

variable {settings : Settings}

/-- No query repeats a column if none of them does. -/
theorem anyRepeatsColumn_eq_false_iff {plans : List Plan} :
    Plan.anyRepeatsColumn plans = false ↔ ∀ plan ∈ plans, plan.repeatsColumn = false := by
  induction plans with
  | nil => simp [anyRepeatsColumn]
  | cons plan rest ih => simp [anyRepeatsColumn, ih]

/-- Queries repeat columns after writing out if they did before. -/
theorem anyRepeatsColumn_congr {plans inlined : List Plan}
    (h : List.Forall₂ (fun plan inlined => inlined.repeatsColumn = plan.repeatsColumn)
      plans inlined) : Plan.anyRepeatsColumn inlined = Plan.anyRepeatsColumn plans := by
  induction h with
  | nil => rfl
  | cons hsame _ ih => rw [anyRepeatsColumn, anyRepeatsColumn, hsame, ih]

/-- The plan with its references written out gives the same rows, though its columns may be others.
-/
structure Alike (plan inlined : Plan) : Prop where
  length : inlined.output.length = plan.output.length
  result : plan.IsResult → inlined.IsResult ∧ inlined.repeatsColumn = plan.repeatsColumn

theorem Alike.refl (plan : Plan) : plan.Alike plan := ⟨rfl, fun h => ⟨h, rfl⟩⟩

/-- Tracing the plan comes to an end, and all plans on the way down are built as queries are, of
columns that have names. -/
inductive Traceable (settings : Settings) : Plan → Prop
  | mk {plan : Plan} (arranged : plan.Arranged) (named : plan.NamesGiven)
    (resolved : plan.reference? = none)
    (inlines : ∀ definitions body, plan = .withCte definitions body →
      ∃ inlined, (plan.inline []).result = .ok inlined ∧ plan.Alike inlined)
    (below : ∀ b ∈ plan.tracedBelow settings, Traceable settings b) : Traceable settings plan

/-- A traceable plan is built as queries are. -/
theorem Traceable.arranged {plan : Plan} (h : plan.Traceable settings) : plan.Arranged := by
  cases h with
  | mk arranged _ _ _ _ => exact arranged

/-- The columns of a traceable plan have names. -/
theorem Traceable.named {plan : Plan} (h : plan.Traceable settings) : plan.NamesGiven := by
  cases h with
  | mk _ named _ _ _ => exact named

/-- What is traced for a traceable plan is traceable. -/
theorem Traceable.of_mem {plan b : Plan} (h : plan.Traceable settings)
    (hb : b ∈ plan.tracedBelow settings) : b.Traceable settings := by
  cases h with
  | mk _ _ _ _ below => exact below b hb

/-- All plans on the way down from a traceable plan are traceable. -/
theorem Traceable.of_reaches {plan b : Plan} (h : plan.Traceable settings)
    (hb : plan.Reaches settings b) : b.Traceable settings := by
  induction hb with
  | refl => exact h
  | tail _ hmem ih => exact ih.of_mem hmem

/-- A plan that stands for no named query, and for no clause with some, is traceable where the plans
that are traced for it are. -/
theorem Traceable.of_below {plan : Plan} (arranged : plan.Arranged) (named : plan.NamesGiven)
    (resolved : plan.reference? = none)
    (hclause : ∀ definitions body, plan ≠ .withCte definitions body)
    (below : ∀ b ∈ plan.tracedBelow settings, b.Traceable settings) : plan.Traceable settings :=
  .mk arranged named resolved (fun definitions body h => absurd h (hclause definitions body)) below

/-! ## Names -/

/-- A select list whose columns have names reads columns with names. -/
theorem NamesGiven.of_selectList {plan child : Plan} {items : List SelectItem}
    (h : plan.selectList? = some (items, child))
    (houtput : ∀ a ∈ items.map SelectItem.toAttribute, a.isNamed = true)
    (hread : ∀ a ∈ Expr.attributesOfAll (items.map SelectItem.toExpr), a.isNamed = true) :
    plan.NamesGiven := by
  have hcolumns : ∀ a ∈ items.flatMap fun item => item.toExpr.attributes, a.isNamed = true := by
    intro a ha
    obtain ⟨item, hitem, ha⟩ := List.mem_flatMap.1 ha
    exact hread a (Expr.mem_attributesOfAll.2 ⟨item.toExpr, List.mem_map_of_mem hitem, ha⟩)
  cases plan with
  | project _ _ =>
    cases h
    exact ⟨hcolumns, houtput, by simp [columnsAssigned]⟩
  | aggregate grouping _ _ =>
    cases h
    exact ⟨hcolumns, houtput, by simp [columnsAssigned]⟩
  | _ => cases h

/-- An operator that reads no columns has only those of its rows. -/
theorem NamesGiven.of_output {plan : Plan} (hread : plan.columnsRead = [])
    (hassigned : plan.columnsAssigned = []) (houtput : ∀ a ∈ plan.output, a.isNamed = true) :
    plan.NamesGiven :=
  ⟨by simp [hread], houtput, by simp [hassigned]⟩

end Plan

/-! ## Select lists with their subqueries written out -/

/-- A subquery that an entry takes its sources from is one of the select list. -/
theorem SelectItem.mem_subqueriesOfAll_of_traced {items : List SelectItem} {query : Plan}
    (h : query ∈ items.flatMap SelectItem.tracedSubqueries) :
    query ∈ Expr.subqueriesOfAll (items.map SelectItem.toExpr) := by
  obtain ⟨item, hitem, hquery⟩ := List.mem_flatMap.1 h
  refine Expr.mem_subqueriesOfAll.2 ⟨item.toExpr, List.mem_map_of_mem hitem, ?_⟩
  rcases item with a | ⟨child, name, id⟩
  · cases hquery
  · rw [SelectItem.tracedSubqueries] at hquery
    split at hquery
    · exact hquery
    · cases hquery

section
variable {scope : CteScope} {T : Plan → Prop}

/-- A select list can be written out where the subqueries in it can. Its columns stay, and so do
those that it reads. -/
theorem SelectItem.exists_inlineAll (items : List SelectItem)
    (h : ∀ query ∈ Expr.subqueriesOfAll (items.map SelectItem.toExpr),
      ∃ inlined, (query.inline scope).result = .ok inlined ∧ T inlined) :
    ∃ inlined, (SelectItem.inlineAll scope items).result = .ok inlined ∧
      inlined.map SelectItem.toAttribute = items.map SelectItem.toAttribute ∧
      Expr.attributesOfAll (inlined.map SelectItem.toExpr) =
        Expr.attributesOfAll (items.map SelectItem.toExpr) ∧
      ∀ query ∈ inlined.flatMap SelectItem.tracedSubqueries, T query := by
  obtain ⟨queries, hqueries⟩ := exists_forall₂ h
  refine ⟨items.map (SelectItem.mapSubqueries (Plan.written scope)), ?_,
    Plan.map_toAttribute_mapSubqueries _ items, ?_, fun query hquery => ?_⟩
  · have hwritten := Traced.result_mapM_eq_ok.2 (hqueries.imp fun _ _ hquery => hquery.1)
    rw [SelectItem.inlineAll_eq, Traced.result_bind_of_ok hwritten]
    rfl
  · rw [SelectItem.map_toExpr_mapSubqueries, ← Expr.mapSubqueriesOfAll_eq_map,
      Expr.attributesOfAll_mapSubqueriesOfAll]
  · have hmem := SelectItem.mem_subqueriesOfAll_of_traced hquery
    rw [SelectItem.map_toExpr_mapSubqueries, Expr.subqueriesOfAll_map] at hmem
    obtain ⟨source, hsource, rfl⟩ := List.mem_map.1 hmem
    obtain ⟨inlined, hinlined, hT⟩ := h source hsource
    rwa [Plan.written_eq hinlined]

/-- Plans can be written out together where each of them can. -/
theorem Plan.exists_inlineAll (scope : CteScope) {R : Plan → Plan → Prop} {plans : List Plan}
    (h : ∀ plan ∈ plans, ∃ inlined, (plan.inline scope).result = .ok inlined ∧ R plan inlined) :
    ∃ inlined, (Plan.inlineAll scope plans).result = .ok inlined ∧
      List.Forall₂ R plans inlined := by
  obtain ⟨inlined, hinlined⟩ := exists_forall₂ h
  refine ⟨inlined, ?_, hinlined.imp fun _ _ hplan => hplan.2⟩
  rw [Plan.inlineAll_eq]
  exact Traced.result_mapM_eq_ok.2 (hinlined.imp fun _ _ hplan => hplan.1)

end

/-! ## Sites -/

/-- The plan that is found is one that the physical plan remembers. -/
theorem PhysicalNode.mem_linkLevels_of_findLink {physical : PhysicalNode} {query : Plan}
    (h : PhysicalNode.findLink [physical] = some query) : query ∈ physical.linkLevels.flatten := by
  rw [PhysicalNode.findLink_singleton] at h
  exact List.mem_of_head? h

/-- The scope has a traceable plan of the right width for each named query. -/
def CteScope.Serves (settings : Settings) (ctes : List (Int × Nat)) (scope : CteScope) : Prop :=
  ∀ id width, ctes.lookup id = some width →
    ∃ body, scope.lookup id = some body ∧ body.output.length = width ∧ body.Traceable settings

/-- The columns at the site have names, those of the plan and those of the rows around. -/
structure Site.IsNamed (s : Site) : Prop where
  output : ∀ a ∈ s.plan.output, a.isNamed = true
  outer : ∀ a ∈ s.outer, a.isNamed = true

instance : DecidablePred Site.IsNamed := fun s =>
  decidable_of_iff ((∀ a ∈ s.plan.output, a.isNamed = true) ∧ ∀ a ∈ s.outer, a.isNamed = true)
    ⟨fun h => ⟨h.1, h.2⟩, fun h => ⟨h.output, h.outer⟩⟩

/-- The plan at a site can be written out, to a traceable plan, and where it stands in no clause it
is traceable itself. -/
structure Site.Inlines (settings : Settings) (s : Site) : Prop where
  traceable : s.ctes = [] → s.plan.Traceable settings
  inlined : ∀ scope, CteScope.Serves settings s.ctes scope →
    ∃ inlined, (s.plan.inline scope).result = .ok inlined ∧ s.plan.Alike inlined ∧
      inlined.Traceable settings

section
variable {settings : Settings} {ctes : List (Int × Nat)}

/-- A plan that writing out leaves as it is can be written out where it is traceable. -/
theorem Site.Inlines.of_fixed {outer : List Attribute} {plan : Plan}
    (hfixed : ∀ scope, (plan.inline scope).result = .ok plan) (h : plan.Traceable settings) :
    (Site.mk ctes outer plan).Inlines settings :=
  ⟨fun _ => h, fun scope _ => ⟨plan, hfixed scope, .refl plan, h⟩⟩

/-- An operator of which only the child is written out. -/
theorem Site.Inlines.of_child {outer inner : List Attribute} {child : Plan}
    (operator : Plan → Plan)
    (hinline : ∀ scope,
      ((operator child).inline scope).result =
        (child.inline scope >>= fun inlined => pure (operator inlined)).result)
    (halike : ∀ inlined, child.Alike inlined → (operator child).Alike (operator inlined))
    (htraceable : ∀ plan, child.Alike plan → plan.Traceable settings →
      (operator plan).Traceable settings)
    (hchild : (Site.mk ctes inner child).Inlines settings) :
    (Site.mk ctes outer (operator child)).Inlines settings := by
  refine ⟨fun hctes => htraceable child (.refl child) (hchild.traceable hctes),
    fun scope hscope => ?_⟩
  obtain ⟨inlined, hresult, hsame, hT⟩ := hchild.inlined scope hscope
  refine ⟨operator inlined, ?_, halike inlined hsame, htraceable inlined hsame hT⟩
  rw [hinline, Traced.result_bind_of_ok hresult]
  rfl

/-- An operator of which the select list and the child are written out. -/
theorem Site.Inlines.of_selectList {outer inner : List Attribute} {items : List SelectItem}
    {child : Plan} (operator : List SelectItem → Plan → Plan)
    (hinline : ∀ scope, (operator items child).inline scope = do
      let child ← child.inline scope
      return operator (← SelectItem.inlineAll scope items) child)
    (halike : ∀ items' child',
      items'.map SelectItem.toAttribute = items.map SelectItem.toAttribute →
      (operator items child).Alike (operator items' child'))
    (htraceable : ∀ items' child',
      items'.map SelectItem.toAttribute = items.map SelectItem.toAttribute →
      Expr.attributesOfAll (items'.map SelectItem.toExpr) =
        Expr.attributesOfAll (items.map SelectItem.toExpr) →
      (∀ b ∈ child' :: items'.flatMap SelectItem.tracedSubqueries, b.Traceable settings) →
      (operator items' child').Traceable settings)
    (hchild : (Site.mk ctes inner child).Inlines settings)
    (hqueries : ∀ query ∈ Expr.subqueriesOfAll (items.map SelectItem.toExpr),
      ∃ around, (Site.mk ctes around query).Inlines settings) :
    (Site.mk ctes outer (operator items child)).Inlines settings := by
  refine ⟨fun hctes => htraceable items child rfl rfl fun b hb => ?_, fun scope hscope => ?_⟩
  · rcases List.mem_cons.1 hb with rfl | hb
    · exact hchild.traceable hctes
    · obtain ⟨around, hquery⟩ := hqueries b (SelectItem.mem_subqueriesOfAll_of_traced hb)
      exact hquery.traceable hctes
  · obtain ⟨child', hchild', -, hT⟩ := hchild.inlined scope hscope
    obtain ⟨items', hitems', hcolumns, hreads, hall⟩ :=
      SelectItem.exists_inlineAll (T := Plan.Traceable settings) items fun query hquery => by
        obtain ⟨around, hquery⟩ := hqueries query hquery
        obtain ⟨inlined, hinlined, -, hT⟩ := hquery.inlined scope hscope
        exact ⟨inlined, hinlined, hT⟩
    refine ⟨operator items' child', ?_, halike items' child' hcolumns,
      htraceable items' child' hcolumns hreads fun b hb => ?_⟩
    · rw [hinline, Traced.result_bind_of_ok hchild', Traced.result_bind_of_ok hitems']
      rfl
    · exact (List.mem_cons.1 hb).elim (fun h => h ▸ hT) (hall b)

/-- A projection is written out to a traceable plan if its child and its subqueries are. -/
theorem Site.Inlines.project {outer inner : List Attribute} {items : List SelectItem} {child : Plan}
    (hnamed : ∀ a ∈ items.map SelectItem.toAttribute, a.isNamed = true)
    (hread : ∀ a ∈ Expr.attributesOfAll (items.map SelectItem.toExpr), a.isNamed = true)
    (hchild : (Site.mk ctes inner child).Inlines settings)
    (hqueries : ∀ query ∈ Expr.subqueriesOfAll (items.map SelectItem.toExpr),
      ∃ around, (Site.mk ctes around query).Inlines settings) :
    (Site.mk ctes outer (.project items child)).Inlines settings := by
  refine .of_selectList .project (fun _ => by rw [Plan.inline]) (fun items' child' hcolumns => ?_)
    (fun items' child' hcolumns hreads h => ?_) hchild hqueries
  · refine ⟨?_, fun _ => ⟨.project items' child', ?_⟩⟩
    · simp only [Plan.output, hcolumns]
    · simp only [Plan.repeatsColumn, hcolumns]
  · exact .of_below (.project items' child')
      (.of_selectList rfl (hcolumns ▸ hnamed) (hreads ▸ hread)) rfl (by simp) h

/-- An aggregation is written out to a traceable plan if its child and its subqueries are. -/
theorem Site.Inlines.aggregate {outer inner : List Attribute} {items : List SelectItem}
    {child : Plan} (grouping : List Expr)
    (hnamed : ∀ a ∈ items.map SelectItem.toAttribute, a.isNamed = true)
    (hread : ∀ a ∈ Expr.attributesOfAll (items.map SelectItem.toExpr), a.isNamed = true)
    (hchild : (Site.mk ctes inner child).Inlines settings)
    (hqueries : ∀ query ∈ Expr.subqueriesOfAll (items.map SelectItem.toExpr),
      ∃ around, (Site.mk ctes around query).Inlines settings) :
    (Site.mk ctes outer (.aggregate grouping items child)).Inlines settings := by
  refine .of_selectList (.aggregate grouping) (fun _ => by rw [Plan.inline])
    (fun items' child' hcolumns => ?_) (fun items' child' hcolumns hreads h => ?_) hchild hqueries
  · refine ⟨?_, fun _ => ⟨.aggregate grouping items' child', ?_⟩⟩
    · simp only [Plan.output, hcolumns]
    · simp only [Plan.repeatsColumn, hcolumns]
  · exact .of_below (.aggregate grouping items' child')
      (.of_selectList rfl (hcolumns ▸ hnamed) (hreads ▸ hread)) rfl (by simp) h

/-- A window is written out to a traceable plan if its child is. -/
theorem Site.Inlines.window {outer inner : List Attribute} {functions : List Alias} {child : Plan}
    (partition order : List Expr) (hnamed : ∀ f ∈ functions, f.toAttribute.isNamed = true)
    (hread : ∀ f ∈ functions, ∀ a ∈ f.child.attributes, a.isNamed = true)
    (hchild : (Site.mk ctes inner child).Inlines settings) :
    (Site.mk ctes outer (.window functions child partition order)).Inlines settings := by
  refine .of_child (fun plan => .window functions plan partition order)
    (fun _ => by rw [Plan.inline]) (fun _ h => ⟨?_, fun hresult => by cases hresult⟩)
    (fun plan _ h => ?_) hchild
  · simp [Plan.output, h.length]
  · refine .of_below (.window functions plan partition order)
      ⟨fun a ha => ?_, fun a ha => ?_, fun a ha => absurd ha List.not_mem_nil⟩ rfl (by simp)
      (by simp [Plan.tracedBelow, h])
    · refine (List.mem_append.1 ha).elim (h.named.output a) fun ha => ?_
      obtain ⟨f, hf, ha⟩ := List.mem_flatMap.1 ha
      exact hread f hf a ha
    · refine (List.mem_append.1 ha).elim (h.named.output a) fun ha => ?_
      obtain ⟨f, hf, rfl⟩ := List.mem_map.1 ha
      exact hnamed f hf

/-- An expansion is written out to a traceable plan if its child is. -/
theorem Site.Inlines.expand {outer inner output : List Attribute} {projections : List (List Expr)}
    {child : Plan} (hnamed : ∀ a ∈ output, a.isNamed = true)
    (hread : ∀ a ∈ Expr.attributesOfAll projections.flatten, a.isNamed = true)
    (hchild : (Site.mk ctes inner child).Inlines settings) :
    (Site.mk ctes outer (.expand projections output child)).Inlines settings := by
  refine .of_child (fun plan => .expand projections output plan) (fun _ => by rw [Plan.inline])
    (fun _ h => ⟨rfl, fun hresult => by cases hresult⟩) (fun plan _ h => ?_) hchild
  refine .of_below (.expand projections output plan)
    ⟨fun a ha => ?_, hnamed, fun a ha => absurd ha List.not_mem_nil⟩ rfl
    (by simp) (by simp [Plan.tracedBelow, h])
  exact hread a (Expr.mem_attributesOfAll.2 (List.mem_flatMap.1 ha))

/-- An operator without a rule of its own is written out to a traceable plan if its child is. -/
theorem Site.Inlines.operator {outer inner output : List Attribute} {child : Plan} (name : String)
    (hlength : output.length = child.output.length) (hnamed : ∀ a ∈ output, a.isNamed = true)
    (hchild : (Site.mk ctes inner child).Inlines settings) :
    (Site.mk ctes outer (.operator name [child] output)).Inlines settings := by
  refine .of_child (fun plan => .operator name [plan] output) (fun scope => ?_)
    (fun inlined h => ⟨rfl, fun hresult => ?_⟩) (fun plan h hT => ?_) hchild
  · simp [Plan.inline, Plan.inlineAll]
  · cases hresult with
    | operator _ _ hchild =>
      obtain ⟨hinlined, hrepeats⟩ := h.result hchild
      exact ⟨.operator name output hinlined, by
        simp only [Plan.repeatsColumn, Plan.anyRepeatsColumn, hrepeats]⟩
  · refine .of_below (.operator name plan ?_) (.of_output rfl rfl hnamed) rfl (by simp)
      (by simp [Plan.tracedBelow, hT])
    rw [hlength, h.length]

/-- The named queries of a clause can be written out one after the other, and then the plan under
the clause. -/
theorem exists_inline_definitions {outer : List Attribute} {body : Plan} :
    ∀ (definitions : List CteDefinition) {ctes : List (Int × Nat)},
    (∀ b ∈ Site.ofDefinitions ctes outer definitions body, b.Inlines settings) →
    ∀ scope, CteScope.Serves settings ctes scope → ∃ inlined,
      ((Plan.withCte definitions body).inline scope).result = .ok inlined ∧ body.Alike inlined ∧
        inlined.Traceable settings
  | [], ctes, h, scope, hscope => by
    obtain ⟨inlined, hinline, hrest⟩ :=
      (h _ (List.mem_singleton_self _)).inlined scope hscope
    refine ⟨inlined, ?_, hrest⟩
    rw [Plan.inline, CteDefinition.extend, pure_bind]
    exact hinline
  | .mk id child :: rest, ctes, h, scope, hscope => by
    obtain ⟨named, hinline, halike, htraceable⟩ :=
      (h _ List.mem_cons_self).inlined scope hscope
    have hserves : CteScope.Serves settings ((id, child.output.length) :: ctes)
        ((id, named) :: scope) := by
      intro other width hlookup
      rw [List.lookup_cons] at hlookup ⊢
      cases heq : other == id with
      | true =>
        rw [heq] at hlookup
        obtain rfl := Option.some.inj hlookup
        exact ⟨named, rfl, halike.length, htraceable⟩
      | false =>
        rw [heq] at hlookup
        exact hscope other width hlookup
    obtain ⟨inlined, hbody, hrest⟩ := exists_inline_definitions rest
      (fun b hb => h b (List.mem_cons_of_mem _ hb)) _ hserves
    refine ⟨inlined, ?_, hrest⟩
    rw [Plan.inline, CteDefinition.extend, bind_assoc, Traced.result_bind_of_ok hinline]
    rw [Plan.inline] at hbody
    exact hbody

/-- A view is traced where its query is; writing out goes into the query, which sees no clause. -/
theorem Site.Inlines.view {outer output : List Attribute} {body : Plan} (name : TableName)
    (temporary : Bool) (hstands : Plan.StandsFor output body)
    (hnamed : ∀ a ∈ output, a.isNamed = true) (hbody : (Site.mk [] [] body).Inlines settings) :
    (Site.mk ctes outer (.view name output body temporary)).Inlines settings := by
  have hview : ∀ plan, body.Alike plan → plan.Traceable settings →
      (Plan.view name output plan temporary).Traceable settings := by
    intro plan h hT
    refine .of_below (.view name temporary ⟨(h.result hstands.isResult).1, ?_⟩)
      (.of_output rfl rfl hnamed) rfl (by simp) ?_
    · rw [hstands.length, h.length]
    · intro b hb
      rw [Plan.tracedBelow] at hb
      split at hb
      · cases hb
      · exact List.mem_singleton.1 hb ▸ hT
  refine ⟨fun _ => hview body (.refl body) (hbody.traceable rfl), fun scope _ => ?_⟩
  obtain ⟨inlined, hinline, halike, hT⟩ := hbody.inlined scope (by simp [CteScope.Serves])
  refine ⟨.view name output inlined temporary, ?_, ⟨rfl, fun hresult => by cases hresult⟩,
    hview inlined halike hT⟩
  rw [Plan.inline, Traced.result_bind_of_ok hinline]
  rfl

/-- A join is written out to a traceable plan if both sides are. -/
theorem Site.Inlines.join {outer inner : List Attribute} {left right : Plan} (type : JoinType)
    (condition : Option Expr) (hleft : (Site.mk ctes inner left).Inlines settings)
    (hright : (Site.mk ctes inner right).Inlines settings) :
    (Site.mk ctes outer (.join left right type condition)).Inlines settings := by
  have hjoin : ∀ l r, l.Traceable settings → r.Traceable settings →
      (Plan.join l r type condition).Traceable settings := by
    intro l r hl hr
    refine .of_below (.join l r type condition) (.of_output rfl rfl fun a ha => ?_) rfl (by simp)
      fun b hb => ?_
    · have hsides : a ∈ l.output ++ r.output := by
        rw [Plan.output] at ha
        split at ha <;> simp [ha]
      exact (List.mem_append.1 hsides).elim (hl.named.output a) (hr.named.output a)
    · have hsides : b = l ∨ b = r := by
        rw [Plan.tracedBelow] at hb
        split at hb <;> simp_all
      rcases hsides with rfl | rfl
      · exact hl
      · exact hr
  refine ⟨fun h => hjoin left right (hleft.traceable h) (hright.traceable h), fun scope hs => ?_⟩
  obtain ⟨l, hinlineLeft, halikeLeft, hl⟩ := hleft.inlined scope hs
  obtain ⟨r, hinlineRight, halikeRight, hr⟩ := hright.inlined scope hs
  refine ⟨.join l r type condition, ?_, ⟨?_, fun hresult => ?_⟩, hjoin l r hl hr⟩
  · rw [Plan.inline, Traced.result_bind_of_ok hinlineLeft, Traced.result_bind_of_ok hinlineRight]
    rfl
  · simp only [Plan.output]
    split <;> simp [halikeLeft.length, halikeRight.length]
  · cases hresult with
    | ofLeft _ _ hhides hresult =>
      obtain ⟨hinlined, hrepeats⟩ := halikeLeft.result hresult
      exact ⟨.ofLeft r condition hhides hinlined, by simp only [Plan.repeatsColumn, hrepeats]⟩

/-- A union is written out to a traceable plan if its branches are. -/
theorem Site.Inlines.union {outer inner output : List Attribute} {first second : Plan}
    {rest : List Plan} (hnodup : output.Nodup)
    (hstands : ∀ branch ∈ first :: second :: rest, Plan.StandsFor output branch)
    (hnamed : ∀ a ∈ output, a.isNamed = true)
    (hbranches : ∀ branch ∈ first :: second :: rest, (Site.mk ctes inner branch).Inlines settings) :
    (Site.mk ctes outer (.union (first :: second :: rest) output)).Inlines settings := by
  refine ⟨fun h => .of_below (.union hnodup hstands) (.of_output rfl rfl hnamed) rfl (by simp)
    fun b hb => (hbranches b hb).traceable h, fun scope hscope => ?_⟩
  obtain ⟨inlined, hinline, hall⟩ := Plan.exists_inlineAll scope
    (R := fun branch inlined => Plan.StandsFor output inlined ∧
      inlined.repeatsColumn = branch.repeatsColumn ∧ inlined.Traceable settings)
    fun branch hbranch => by
      obtain ⟨inlined, hinline, halike, hT⟩ := (hbranches branch hbranch).inlined scope hscope
      obtain ⟨hresult, hrepeats⟩ := halike.result (hstands branch hbranch).isResult
      exact ⟨inlined, hinline,
        ⟨hresult, (hstands branch hbranch).length.trans halike.length.symm⟩, hrepeats, hT⟩
  have hkept : ∀ b ∈ inlined, Plan.StandsFor output b ∧ b.Traceable settings := by
    intro b hb
    obtain ⟨_, -, hstands, -, hT⟩ := exists_left_of_forall₂ hall hb
    exact ⟨hstands, hT⟩
  refine ⟨.union inlined output, ?_, ⟨rfl, fun _ => ⟨?_, ?_⟩⟩, ?_⟩
  · rw [Plan.inline, Traced.result_bind_of_ok hinline]
    rfl
  · exact .union output fun b hb => (hkept b hb).1.isResult
  · simp only [Plan.repeatsColumn]
    exact Plan.anyRepeatsColumn_congr (hall.imp fun _ _ h => h.2.1)
  · obtain ⟨-, -⟩ | ⟨hfirst, hrest⟩ := hall
    obtain ⟨-, -⟩ | ⟨hsecond, hrest⟩ := hrest
    exact .of_below (.union hnodup fun b hb => (hkept b hb).1) (.of_output rfl rfl hnamed) rfl
      (by simp) fun b hb => (hkept b hb).2

/-- A stored result is written out to a traceable plan if its query is. -/
theorem Site.Inlines.cached {outer output : List Attribute} {physical : PhysicalNode} {query : Plan}
    (table : Option String) (hlink : PhysicalNode.findLink [physical] = some query)
    (hstands : Plan.StandsFor output query) (hnamed : ∀ a ∈ output, a.isNamed = true)
    (hquery : (Site.mk [] [] query).Inlines settings) :
    (Site.mk ctes outer (.cached output physical table)).Inlines settings := by
  refine .of_fixed (fun _ => rfl) (.of_below (.cached table hlink hstands)
    (.of_output rfl rfl hnamed) rfl (by simp) fun b hb => ?_)
  rw [Plan.tracedBelow, hlink] at hb
  exact List.mem_singleton.1 hb ▸ hquery.traceable rfl

/-- A reference is written out to a traceable plan if its query is in scope. -/
theorem Site.Inlines.cteReference {outer output : List Attribute} {id : Int}
    (h : ctes.lookup id = some output.length) (hnamed : ∀ a ∈ output, a.isNamed = true) :
    (Site.mk ctes outer (.cteReference id output)).Inlines settings := by
  refine ⟨fun hctes => ?_, fun scope hscope => ?_⟩
  · subst hctes
    cases h
  · obtain ⟨body, hbody, hlength, hT⟩ := hscope id _ h
    refine ⟨referenceProjection output body, ?_, ⟨?_, fun hresult => by cases hresult⟩, ?_⟩
    · rw [Plan.inline, resolveReference, hbody]
      simp only [hlength, ne_eq, not_true_eq_false, if_false]
      rfl
    · simp [referenceProjection, Plan.output, hlength]
    · refine .of_below (.project _ body) (.of_selectList rfl ?_ ?_) rfl
        (by simp [referenceProjection]) fun b hb => ?_
      · intro a ha
        obtain ⟨item, hitem, rfl⟩ := List.mem_map.1 ha
        obtain ⟨pair, hpair, rfl⟩ := List.mem_map.1 hitem
        exact hnamed pair.2 (List.of_mem_zip hpair).2
      · intro a ha
        obtain ⟨e, he, ha⟩ := Expr.mem_attributesOfAll.1 ha
        obtain ⟨item, hitem, rfl⟩ := List.mem_map.1 he
        obtain ⟨pair, hpair, rfl⟩ := List.mem_map.1 hitem
        exact List.mem_singleton.1 ha ▸ hT.named.output pair.1 (List.of_mem_zip hpair).1
      rcases List.mem_cons.1 hb with rfl | hb
      · exact hT
      · obtain ⟨item, hitem, hquery⟩ := List.mem_flatMap.1 hb
        obtain ⟨pair, -, rfl⟩ := List.mem_map.1 hitem
        simp [SelectItem.tracedSubqueries, Alias.child, Expr.subqueries] at hquery

/-- A clause is written out to a traceable plan if its queries and the plan under it are. -/
theorem Site.Inlines.withCte {outer : List Attribute} {definitions : List CteDefinition}
    {body : Plan} (hnamed : ∀ a ∈ body.output, a.isNamed = true)
    (h : ∀ b ∈ Site.ofDefinitions ctes outer definitions body, b.Inlines settings) :
    (Site.mk ctes outer (.withCte definitions body)).Inlines settings := by
  have halike : ∀ inlined, body.Alike inlined →
      (Plan.withCte definitions body).Alike inlined := by
    refine fun inlined halike => ⟨halike.length, fun hresult => ?_⟩
    cases hresult with
    | withCte _ hbody => exact halike.result hbody
  refine ⟨fun hctes => ?_, fun scope hscope => ?_⟩
  · obtain ⟨inlined, hinline, hsame, hT⟩ :=
      exists_inline_definitions definitions h [] (by subst hctes; simp [CteScope.Serves])
    refine .mk (.withCte definitions body) (.of_output rfl rfl hnamed) rfl ?_ fun b hb => ?_
    · rintro _ _ ⟨rfl, rfl⟩
      exact ⟨inlined, hinline, halike inlined hsame⟩
    · rw [Plan.tracedBelow, hinline] at hb
      exact List.mem_singleton.1 hb ▸ hT
  · obtain ⟨inlined, hinline, hsame, hT⟩ := exists_inline_definitions definitions h scope hscope
    exact ⟨inlined, hinline, halike inlined hsame, hT⟩

end

/-- What a closed operator reads has names where the columns from below and from around have. -/
theorem Site.IsClosed.isNamed_of_read {s : Site} (h : s.IsClosed) (hnamed : s.IsNamed)
    (hinput : ∀ a ∈ s.plan.input, a.isNamed = true) :
    ∀ a ∈ Expr.attributesOfAll s.plan.exprs, a.isNamed = true :=
  fun a ha => (List.mem_append.1 (h.columns a ha)).elim (hinput a) (hnamed.outer a)

/-- By induction on the sites below: at a sound site where columns have names the plan can be
written out. -/
theorem Site.All.inlines {settings : Settings} {s : Site} (h : Site.All Site.IsSound s)
    (hnamed : Site.All Site.IsNamed s) : s.Inlines settings := by
  induction h with
  | @mk s here _ ih =>
    obtain ⟨ctes, outer, plan⟩ := s
    obtain ⟨hclosed, harranged⟩ := here
    replace ih : ∀ b ∈ (Site.mk ctes outer plan).below, b.Inlines settings :=
      fun b hb => ih b hb (hnamed.of_mem hb)
    have houtput : ∀ a ∈ plan.output, a.isNamed = true := hnamed.here.output
    have hread : ∀ child, plan.children = [child] →
        ⟨ctes, outer, child⟩ ∈ (Site.mk ctes outer plan).below →
        ∀ a ∈ Expr.attributesOfAll plan.exprs, a.isNamed = true := by
      -- a site reads columns of its child or of the queries around it, which all have names
      intro child hchild hmem
      refine hclosed.isNamed_of_read hnamed.here fun a ha => (hnamed.of_mem hmem).here.output a ?_
      simpa [Plan.input, hchild] using ha
    cases harranged with
    | project items child =>
      refine .project houtput (hread child rfl List.mem_cons_self)
        (ih ⟨ctes, outer, child⟩ List.mem_cons_self) fun query hquery => ?_
      exact ⟨_, ih ⟨ctes, _, query⟩ (List.mem_append_right _ (List.mem_map_of_mem hquery))⟩
    | aggregate grouping items child =>
      refine .aggregate grouping houtput (fun a ha => ?_)
        (ih ⟨ctes, outer, child⟩ List.mem_cons_self) fun query hquery => ?_
      · obtain ⟨e, he, ha⟩ := Expr.mem_attributesOfAll.1 ha
        exact hread child rfl List.mem_cons_self a
          (Expr.mem_attributesOfAll.2 ⟨e, List.mem_append_right _ he, ha⟩)
      · obtain ⟨e, he, hquery⟩ := Expr.mem_subqueriesOfAll.1 hquery
        have hmem : query ∈ Expr.subqueriesOfAll (Plan.aggregate grouping items child).exprs :=
          Expr.mem_subqueriesOfAll.2 ⟨e, List.mem_append_right _ he, hquery⟩
        exact ⟨_, ih ⟨ctes, _, query⟩ (List.mem_append_right _ (List.mem_map_of_mem hmem))⟩
    | window functions child partition order =>
      refine .window partition order (fun f hf => houtput _ ?_) (fun f hf a ha => ?_)
        (ih ⟨ctes, outer, child⟩ List.mem_cons_self)
      · exact List.mem_append_right _ (List.mem_map_of_mem hf)
      · refine hread child rfl List.mem_cons_self a (Expr.mem_attributesOfAll.2 ⟨f.child, ?_, ha⟩)
        exact List.mem_append_left _ (List.mem_map_of_mem hf)
    | expand projections output child =>
      exact .expand houtput (hread child rfl List.mem_cons_self)
        (ih ⟨ctes, outer, child⟩ List.mem_cons_self)
    | @operator name child output hlength =>
      exact .operator name hlength houtput (ih ⟨ctes, outer, child⟩ List.mem_cons_self)
    | @view name output body temporary hstands =>
      exact .view name temporary hstands houtput (ih ⟨[], [], body⟩ List.mem_cons_self)
    | join left right type condition =>
      exact .join type condition (ih ⟨ctes, outer, left⟩ List.mem_cons_self)
        (ih ⟨ctes, outer, right⟩ (List.mem_cons_of_mem _ List.mem_cons_self))
    | union hnodup hstands =>
      refine .union hnodup hstands houtput fun branch hbranch => ih ⟨ctes, outer, branch⟩ ?_
      exact List.mem_append_left _ (List.mem_map_of_mem hbranch)
    | relation output table =>
      exact .of_fixed (fun _ => rfl) (.of_below (.relation output table)
        (.of_output rfl rfl houtput) rfl (by simp) (by simp [Plan.tracedBelow]))
    | localRelation output rows =>
      exact .of_fixed (fun _ => rfl) (.of_below (.localRelation output rows)
        (.of_output rfl rfl houtput) rfl (by simp) (by simp [Plan.tracedBelow]))
    | oneRow =>
      exact .of_fixed (fun _ => rfl) (.of_below .oneRow (.of_output rfl rfl houtput) rfl (by simp)
        (by simp [Plan.tracedBelow]))
    | @cached output physical query table hlink hstands =>
      exact .cached table hlink hstands houtput (ih ⟨[], [], query⟩ (List.mem_map_of_mem
        (PhysicalNode.mem_linkLevels_of_findLink hlink)))
    | cteReference id output => exact .cteReference (hclosed.references id _ rfl) houtput
    | withCte definitions body => exact .withCte houtput ih

end ColumnTrace
