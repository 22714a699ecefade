import ColumnTrace.Proofs.Lineage.BorrowedColumns

/-!
# Answers without marks

Where no name of a plan mentions the mark of subqueries and every select list that borrows stands
over a plan that takes marks off, no source of an answer is marked (`unmarked_of_extractWithin`). A
request may hold marked columns on the way down, but only such as the plan takes the mark off
(`Plan.Clears`); every operator asks the plans below it for such columns only.
-/

set_option autoImplicit false

namespace ColumnTrace

namespace Plan

/-- The columns that one level of a plan refers to or repeats. -/
def columnsRead : Plan → List Attribute
  | .project items _ => items.flatMap fun item => item.toExpr.attributes
  | .aggregate _ items _ => items.flatMap fun item => item.toExpr.attributes
  | .window functions child _ _ => child.output ++ functions.flatMap fun f => f.child.attributes
  | .expand projections _ _ => projections.flatten.flatMap Expr.attributes
  | .merge _ _ matched notMatched =>
    ((matched ++ notMatched).flatMap MergeAction.assignments).flatMap fun a => a.value.attributes
  | _ => []

/-- On one level of a plan, no name of a column or a table mentions the mark of subqueries. -/
structure NamesUnmarked (settings : Settings) (plan : Plan) : Prop where
  columns : ∀ a ∈ plan.columnsRead, a.Unmarked
  table : ∀ output qualifier, plan.table? settings = some (output, qualifier) →
    (∀ a ∈ output, a.Unmarked) ∧ ∀ segment ∈ qualifier, ¬ mentionsMark segment

/-- A select list on this level stands over a plan that takes the marks off whatever is borrowed for
its entries. Markers of rows lose theirs anywhere. -/
def ReturnsUnmarked (settings : Settings) (plan : Plan) : Prop :=
  ∀ items child, plan.selectList? = some (items, child) → ∀ item ∈ items, ∀ a,
    item.Borrows (Plan.extract settings) a →
    a.isCountMarker = true ∨ child.takesMarksOff settings true = true

/-- The plan answers the column without a mark: it has none, or one that the plan takes off. -/
def Clears (settings : Settings) (plan : Plan) (a : Attribute) : Prop :=
  a.Unmarked ∨ ∃ b : Attribute, b.Unmarked ∧ a = b.markSubquery ∧
    (b.isCountMarker = true ∨ plan.takesMarksOff settings true = true)

variable {settings : Settings} {plan below : Plan} {a b : Attribute}

/-- What a plan answers without a mark one below does, if it takes marks off where the plan does. -/
theorem Clears.mono (h : plan.Clears settings a)
    (hoff : plan.takesMarksOff settings true = true → below.takesMarksOff settings true = true) :
    below.Clears settings a := by
  rcases h with hunmarked | ⟨b, hb, rfl, hclears⟩
  · exact Or.inl hunmarked
  · exact Or.inr ⟨b, hb, rfl, hclears.imp_right hoff⟩

/-- Where marks stay on, what is answered without one has none. -/
theorem Clears.unmarked (h : plan.Clears settings a)
    (hoff : plan.takesMarksOff settings true = false) (hcount : a.isCountMarker = false) :
    a.Unmarked := by
  rcases h with hunmarked | ⟨b, -, rfl, hmarker | hclears⟩
  · exact hunmarked
  · rw [Attribute.isCountMarker_markSubquery, hmarker] at hcount
    cases hcount
  · rw [hoff] at hclears
    cases hclears

/-- What is answered without a mark is unmarked itself or under its mark. -/
theorem Clears.unmarked_or (h : plan.Clears settings a) :
    a.Unmarked ∨ ∃ b : Attribute, b.Unmarked ∧ a = b.markSubquery :=
  h.imp_right fun ⟨b, hb, heq, _⟩ => ⟨b, hb, heq⟩

end Plan

namespace Lineage

open Traced

variable {settings : Settings} {plan child : Plan} {n : Nat} {request m : LineageMap}
variable {a b : Attribute}

/-! ## Leaves -/

/-- A table answers without a mark, whether the mark is the column's only one or there is none. -/
theorem unmarked_of_answer? {output : List Attribute} {qualifier : List String}
    (hqualifier : ∀ segment ∈ qualifier, ¬ mentionsMark segment)
    (ha : a.Unmarked ∨ ∃ b : Attribute, b.Unmarked ∧ a = b.markSubquery)
    (h : LineageMap.answer? output qualifier a = some b) : b.Unmarked := by
  have hrequalified : (a.withQualifier qualifier).Unmarked := by
    rcases ha with hunmarked | ⟨c, hc, rfl⟩
    · exact hunmarked.withQualifier hqualifier
    · exact hc.withQualifier hqualifier
  rw [LineageMap.answer?] at h
  split at h
  · exact Option.some.inj h ▸ hrequalified
  · rcases ha with hunmarked | ⟨c, hc, rfl⟩
    · split at h
      · exact Option.some.inj h ▸ hunmarked.dropLastSegment
      · split at h
        · exact Option.some.inj h ▸ hrequalified
        · split at h
          · exact Option.some.inj h ▸ hunmarked.cutName.withQualifier hqualifier
          · cases h
    · rw [if_pos (Attribute.isSubqueryMarked_markSubquery c),
        Attribute.dropLastSegment_markSubquery] at h
      exact Option.some.inj h ▸ hc

/-- A single row leaves no mark on a column that is marked once at most. -/
theorem unmarked_of_oneRow (ha : a.Unmarked ∨ ∃ b : Attribute, b.Unmarked ∧ a = b.markSubquery) :
    (if a.isSubqueryMarked then a.dropLastSegment else a).Unmarked := by
  rcases ha with hunmarked | ⟨b, hb, rfl⟩
  · split
    · exact hunmarked.dropLastSegment
    · exact hunmarked
  · rwa [if_pos (Attribute.isSubqueryMarked_markSubquery b),
      Attribute.dropLastSegment_markSubquery]

/-- A table answers without marks what it clears. -/
theorem unmarked_of_table {output : List Attribute} {qualifier : List String}
    (hnames : plan.NamesUnmarked settings)
    (htable : plan.table? settings = some (output, qualifier))
    (hrequest : request.All (plan.Clears settings))
    (hm : (request.ofRelation output qualifier).result = .ok m) : m.All Attribute.Unmarked := by
  obtain ⟨hcolumns, hqualifier⟩ := hnames.table _ _ htable
  rw [eq_answerOf_of_ofRelation hm]
  refine hrequest.answerOf (fun a ha => (hcolumns a ha).withQualifier hqualifier) ?_
  exact fun a b ha hab => unmarked_of_answer? hqualifier ha.unmarked_or hab

/-- A plan that keeps marks on answers from its own columns, if these have unmarked sources. -/
theorem unmarked_of_own {computed : LineageMap} (hoff : plan.takesMarksOff settings true = false)
    (hrequest : request.All (plan.Clears settings)) (hcomputed : computed.All Attribute.Unmarked)
    (hm : (request.join computed).result = .ok m) : m.All Attribute.Unmarked :=
  hrequest.join hcomputed (fun _ ha hcount => ha.unmarked hoff hcount) hm

/-! ## One level -/

/-- What a select list asks of its child comes back without marks. -/
theorem clears_of_ofSelectList (hn : n ≤ settings.maxPlanDepth + 1) {items : List SelectItem}
    (hlist : plan.selectList? = some (items, child)) (hreturns : plan.ReturnsUnmarked settings)
    (hreads : ∀ item ∈ items, ∀ a ∈ item.toExpr.attributes, a.Unmarked)
    (hlent : ∀ item ∈ items, ∀ query ∈ item.tracedSubqueries, ∀ answer,
      (extractWithin settings n query ∅).result = .ok answer → answer.All Attribute.Unmarked)
    {selected : LineageMap}
    (h : (ofSelectList (extractWithin settings n) items).result = .ok selected) :
    selected.All (child.Clears settings) := by
  obtain ⟨pairs, hpairs, rfl⟩ := ofSelectList_eq_ok.1 h
  refine LineageMap.all_ofList fun pair hpair a ha => ?_
  obtain ⟨item, hitem, hok⟩ := exists_left_of_forall₂ hpairs hpair
  rcases mem_itemSources hok ha with hread | ⟨b, hb, rfl⟩ | ⟨f, -, rfl⟩
  · exact Or.inl (hreads item hitem a hread)
  · obtain ⟨query, hquery, answer, hanswer, entry, hentry, hmem⟩ := hb
    refine Or.inr ⟨b, hlent item hitem query hquery answer hanswer entry hentry b hmem, rfl, ?_⟩
    exact hreturns _ _ hlist item hitem b
      ⟨query, hquery, answer, extract_of_extractWithin hn hanswer, entry, hentry, hmem⟩
  · exact Or.inl (Attribute.unmarked_countMarker f.id)

/-- The plans below answer without marks what they clear, within so many levels. -/
def UnmarkedBelow (settings : Settings) (n : Nat) (plan : Plan) : Prop :=
  ∀ below ∈ plan.tracedBelow settings, ∀ inner answer, inner.All (below.Clears settings) →
    (extractWithin settings n below inner).result = .ok answer → answer.All Attribute.Unmarked

/-- A request that is handed on is answered without marks. -/
theorem UnmarkedBelow.handOn (h : UnmarkedBelow settings n plan)
    (hrequest : request.All (plan.Clears settings)) (hchild : child ∈ plan.tracedBelow settings)
    (hoff : plan.takesMarksOff settings true = true → child.takesMarksOff settings true = true)
    (hm : (extractWithin settings n child request).result = .ok m) : m.All Attribute.Unmarked :=
  h child hchild request m (hrequest.mono fun _ ha => ha.mono hoff) hm

/-- A plan below that is asked for all answers without marks. -/
theorem UnmarkedBelow.alone (h : UnmarkedBelow settings n plan)
    (hchild : child ∈ plan.tracedBelow settings)
    (hm : (extractWithin settings n child ∅).result = .ok m) : m.All Attribute.Unmarked :=
  h child hchild ∅ m LineageMap.all_empty hm

/-- An operator with a select list answers without marks what it clears. -/
theorem unmarked_of_selectList (hn : n ≤ settings.maxPlanDepth + 1) {items : List SelectItem}
    (hlist : plan.selectList? = some (items, child)) (hnames : plan.NamesUnmarked settings)
    (hreturns : plan.ReturnsUnmarked settings) (hbelow : UnmarkedBelow settings n plan)
    (hrequest : request.All (plan.Clears settings))
    (hm : (step settings (extractWithin settings n) plan request).result = .ok m) :
    m.All Attribute.Unmarked := by
  obtain ⟨htraced, hoff, hread⟩ :
      plan.tracedBelow settings = child :: items.flatMap SelectItem.tracedSubqueries ∧
        plan.takesMarksOff settings true = child.takesMarksOff settings true ∧
        plan.columnsRead = items.flatMap fun item => item.toExpr.attributes := by
    cases plan with
    | project _ _ =>
      cases hlist
      exact ⟨rfl, rfl, rfl⟩
    | aggregate _ _ _ =>
      cases hlist
      exact ⟨rfl, rfl, rfl⟩
    | _ => cases hlist
  have hitems : ∀ item ∈ items, ∀ a ∈ item.toExpr.attributes, a.Unmarked := by
    intro item hitem a ha
    exact hnames.columns a (hread ▸ List.mem_flatMap.2 ⟨item, hitem, ha⟩)
  have hlent : ∀ item ∈ items, ∀ query ∈ item.tracedSubqueries, ∀ answer,
      (extractWithin settings n query ∅).result = .ok answer → answer.All Attribute.Unmarked := by
    intro item hitem query hquery answer hanswer
    refine hbelow.alone ?_ hanswer
    rw [htraced]
    exact List.mem_cons_of_mem child (List.mem_flatMap.2 ⟨item, hitem, hquery⟩)
  rw [Plan.step_of_selectList hlist] at hm
  obtain ⟨selected, inner, hselected, hjoin, hm⟩ := step_project.1 hm
  refine hbelow child (htraced ▸ List.mem_cons_self) inner m ?_ hm
  exact hrequest.join (clears_of_ofSelectList hn hlist hreturns hitems hlent hselected)
    (fun _ ha _ => ha.mono fun h => hoff ▸ h) hjoin

/-- A join answers without marks: both sides do, or the left one where only that is asked. -/
theorem unmarked_of_join {left right : Plan} {type : JoinType} {condition : Option Expr}
    (hbelow : UnmarkedBelow settings n (.join left right type condition))
    (hrequest : request.All ((Plan.join left right type condition).Clears settings))
    (hm : (step settings (extractWithin settings n) (.join left right type condition)
      request).result = .ok m) : m.All Attribute.Unmarked := by
  cases hexposes : type.exposesRight with
  | true =>
    have hsides : (Plan.join left right type condition).takesMarksOff settings true = true →
        right.takesMarksOff settings true = true ∧ left.takesMarksOff settings true = true := by
      simp [Plan.takesMarksOff, hexposes]
    obtain ⟨l, r, hl, hr, rfl⟩ := (step_join hexposes).1 hm
    apply LineageMap.All.merge
    · exact hbelow.handOn hrequest Plan.left_mem_tracedBelow (fun h => (hsides h).2) hl
    · exact hbelow.handOn hrequest (Plan.right_mem_tracedBelow hexposes) (fun h => (hsides h).1) hr
  | false =>
    rw [step_semijoin hexposes] at hm
    refine hbelow.handOn hrequest Plan.left_mem_tracedBelow (fun h => ?_) hm
    rwa [Plan.takesMarksOff, hexposes, if_neg Bool.false_ne_true] at h

/-- A view answers without marks what it clears. -/
theorem unmarked_of_view {name : TableName} {output : List Attribute} {body : Plan}
    {temporary : Bool} (hnames : (Plan.view name output body temporary).NamesUnmarked settings)
    (hbelow : UnmarkedBelow settings n (.view name output body temporary))
    (hrequest : request.All ((Plan.view name output body temporary).Clears settings))
    (hm : (step settings (extractWithin settings n) (.view name output body temporary)
      request).result = .ok m) : m.All Attribute.Unmarked := by
  cases hskip : (!temporary && settings.skipPersistedViews) with
  | true =>
    rw [step_view_skipped hskip] at hm
    exact unmarked_of_table hnames (Plan.table?_eq_some_iff.2 (.view hskip)) hrequest hm
  | false =>
    have hoff : (Plan.view name output body temporary).takesMarksOff settings true = false := hskip
    have hbody : body ∈ (Plan.view name output body temporary).tracedBelow settings := by
      rw [Plan.tracedBelow, hskip, if_neg Bool.false_ne_true]
      exact List.mem_cons_self
    obtain ⟨lineage, hlineage, hplan⟩ := (step_view_opened hskip).1 hm
    have hcomputed := (hbelow.alone hbody hlineage).zip output
    exact unmarked_of_own hoff hrequest hcomputed (result_ofRelationPlan.1 hplan).2

/-- A stored result answers without marks what it clears. -/
theorem unmarked_of_cached {output : List Attribute} {physical : PhysicalNode}
    {table : Option String} (hnames : (Plan.cached output physical table).NamesUnmarked settings)
    (hbelow : UnmarkedBelow settings n (.cached output physical table))
    (hrequest : request.All ((Plan.cached output physical table).Clears settings))
    (hm : (step settings (extractWithin settings n) (.cached output physical table)
      request).result = .ok m) : m.All Attribute.Unmarked := by
  cases hlink : PhysicalNode.findLink [physical] with
  | none =>
    rw [step_cached_unlinked hlink] at hm
    exact unmarked_of_table hnames (Plan.table?_eq_some_iff.2 (.cached hlink)) hrequest hm
  | some logical =>
    have hoff : (Plan.cached output physical table).takesMarksOff settings true = false := by
      rw [Plan.takesMarksOff, hlink]
      rfl
    have hlogical : logical ∈ (Plan.cached output physical table).tracedBelow settings := by
      rw [Plan.tracedBelow, hlink]
      exact List.mem_cons_self
    obtain ⟨lineage, hlineage, hplan⟩ := (step_cached_linked hlink).1 hm
    have hcomputed := (hbelow.alone hlogical hlineage).zip output
    exact unmarked_of_own hoff hrequest hcomputed (result_ofRelationPlan.1 hplan).2

/-- An unmodelled operator answers without marks. Marks come off only under one with one child. -/
theorem unmarked_of_operator {name : String} {children : List Plan} {output : List Attribute}
    (hbelow : UnmarkedBelow settings n (.operator name children output))
    (hrequest : request.All ((Plan.operator name children output).Clears settings))
    (hm : (step settings (extractWithin settings n) (.operator name children output)
      request).result = .ok m) : m.All Attribute.Unmarked := by
  have hoff : ∀ child ∈ children,
      (Plan.operator name children output).takesMarksOff settings true = true →
      child.takesMarksOff settings true = true := by
    intro child hchild h
    rcases children with _ | ⟨first, _ | ⟨second, rest⟩⟩
    · cases hchild
    · rwa [List.mem_singleton.1 hchild]
    · cases h
  rw [step, stepAt] at hm
  split at hm
  · exact Except.ok.inj hm ▸ LineageMap.all_empty
  · rw [result_note_bind] at hm
    refine all_ofChildren (fun child hchild answer hanswer => ?_) hm
    exact hbelow.handOn hrequest hchild (hoff child hchild) hanswer

/-- One level answers without marks where the plans below do. -/
theorem unmarked_of_step (hn : n ≤ settings.maxPlanDepth + 1)
    (hnames : plan.NamesUnmarked settings) (hreturns : plan.ReturnsUnmarked settings)
    (hbelow : UnmarkedBelow settings n plan) (hrequest : request.All (plan.Clears settings))
    (hm : (step settings (extractWithin settings n) plan request).result = .ok m) :
    m.All Attribute.Unmarked := by
  -- what a command asks of its query, and what comes back
  have hhandOn : ∀ {query : Plan} {answer : LineageMap},
      plan.takesMarksOff settings true = false → query ∈ plan.tracedBelow settings →
      (extractWithin settings n query request).result = .ok answer →
      answer.All Attribute.Unmarked := by
    intro query answer hoff hquery hanswer
    exact hbelow.handOn hrequest hquery (fun h => absurd (hoff ▸ h) Bool.false_ne_true) hanswer
  cases plan with
  | project items child =>
    have hlist : (Plan.project items child).selectList? = some (items, child) := rfl
    exact unmarked_of_selectList hn hlist hnames hreturns hbelow hrequest hm
  | aggregate grouping items child =>
    have hlist : (Plan.aggregate grouping items child).selectList? = some (items, child) := rfl
    exact unmarked_of_selectList hn hlist hnames hreturns hbelow hrequest hm
  | window functions child partition order =>
    rw [step_window] at hm
    refine hbelow child List.mem_cons_self _ m ?_ hm
    refine all_windowRequest hrequest (fun a ha => Or.inl ?_) fun f hf a ha => Or.inl ?_
    · exact hnames.columns a (List.mem_append_left _ ha)
    · exact hnames.columns a (List.mem_append_right _ (List.mem_flatMap.2 ⟨f, hf, ha⟩))
  | expand projections output child =>
    obtain ⟨inner, hjoin, hm⟩ := step_expand.1 hm
    refine hbelow child List.mem_cons_self inner m ?_ hm
    refine hrequest.join (all_ofProjections (fun row hrow e he a ha => Or.inl ?_) output)
      (fun _ ha _ => ha) hjoin
    refine hnames.columns a (List.mem_flatMap.2 ⟨e, ?_, ha⟩)
    exact List.mem_flatten.2 ⟨row, hrow, he⟩
  | join left right type condition => exact unmarked_of_join hbelow hrequest hm
  | union branches output =>
    obtain ⟨answers, hanswers, hjoin⟩ := step_union.1 hm
    refine unmarked_of_own rfl hrequest (all_ofBranches (fun answer hanswer => ?_) output) hjoin
    obtain ⟨branch, hbranch, hok⟩ := exists_left_of_forall₂ hanswers hanswer
    exact hbelow.alone hbranch hok
  | relation output table =>
    rw [step_relation] at hm
    exact unmarked_of_table hnames rfl hrequest hm
  | localRelation output rows => exact unmarked_of_table hnames rfl hrequest hm
  | oneRow =>
    rw [← Except.ok.inj hm]
    exact all_ofOneRow hrequest fun a ha => unmarked_of_oneRow ha.unmarked_or
  | view name output body temporary => exact unmarked_of_view hnames hbelow hrequest hm
  | cached output physical table => exact unmarked_of_cached hnames hbelow hrequest hm
  | operator name children output => exact unmarked_of_operator hbelow hrequest hm
  | cteReference id output => exact Except.ok.inj hm ▸ LineageMap.all_empty
  | cteDefinition definition =>
    rw [step, stepAt, result_note_bind, result_ofChildren_singleton] at hm
    exact hhandOn rfl List.mem_cons_self hm
  | withCte definitions body =>
    obtain ⟨inlined, hinlined, hm⟩ := result_bind_eq_ok.1 hm
    refine hhandOn rfl ?_ hm
    rw [Plan.tracedBelow, hinlined]
    exact List.mem_cons_self
  | commandResult output command => exact hhandOn rfl List.mem_cons_self hm
  | saveSource query provider => exact hhandOn rfl List.mem_cons_self hm
  | alterView name query =>
    obtain ⟨lineage, hlineage, hm⟩ := result_bind_eq_ok.1 hm
    exact Except.ok.inj hm ▸ (hhandOn rfl List.mem_cons_self hlineage).rename _
  | createTable name query replace =>
    obtain ⟨lineage, hlineage, hm⟩ := result_bind_eq_ok.1 hm
    exact Except.ok.inj hm ▸ (hhandOn rfl List.mem_cons_self hlineage).rename _
  | insertTable table query mode =>
    cases table with
    | none => cases hm
    | some table =>
      obtain ⟨lineage, hlineage, hm⟩ := result_bind_eq_ok.1 hm
      exact Except.ok.inj hm ▸ (hhandOn rfl List.mem_cons_self hlineage).rename _
  | insertDirectory location query overwrite =>
    simp only [step, stepAt] at hm
    split at hm
    · cases hm
    · cases hm
    · obtain ⟨lineage, hlineage, hm⟩ := result_bind_eq_ok.1 hm
      exact Except.ok.inj hm ▸ (hhandOn rfl List.mem_cons_self hlineage).rename _
  | createView name query type columns =>
    simp only [step, stepAt] at hm
    split at hm
    · rw [result_note_bind] at hm
      exact Except.ok.inj hm ▸ LineageMap.all_empty
    · next hpersisted =>
      obtain ⟨lineage, hlineage, hm⟩ := result_bind_eq_ok.1 hm
      refine all_ofNewView (hhandOn rfl ?_ hlineage) hm
      rw [Plan.tracedBelow, if_pos (not_not.1 hpersisted)]
      exact List.mem_cons_self
  | merge target source matched notMatched =>
    obtain ⟨targetLineage, -, hm⟩ := result_bind_eq_ok.1 hm
    obtain ⟨sourceLineage, hsource, hm⟩ := result_bind_eq_ok.1 hm
    refine all_ofMerge (hbelow source (List.mem_cons_of_mem target List.mem_cons_self) _ _
      (all_ofAssignments fun a ha r hr => Or.inl ?_) hsource) hm
    exact hnames.columns r (List.mem_flatMap.2 ⟨a, ha, hr⟩)

/-! ## All levels -/

/-- A plan whose select lists all stand over plans that take marks off answers without marks what it
clears. -/
theorem unmarked_of_extractWithin (n : Nat) : ∀ {plan : Plan} {request m : LineageMap},
    n ≤ settings.maxPlanDepth + 1 →
    (∀ below, plan.Reaches settings below →
      below.NamesUnmarked settings ∧ below.ReturnsUnmarked settings) →
    request.All (plan.Clears settings) →
    (extractWithin settings n plan request).result = .ok m → m.All Attribute.Unmarked := by
  induction n with
  | zero => intro plan request m _ _ _ hm; cases hm
  | succ n ih =>
    intro plan request m hn hreached hrequest hm
    obtain ⟨hnames, hreturns⟩ := hreached plan (.refl plan)
    refine unmarked_of_step (Nat.le_of_succ_le hn) hnames hreturns ?_ hrequest hm
    intro below hbelow inner answer hinner hanswer
    exact ih (Nat.le_of_succ_le hn) (Plan.Reaches.forall_of_mem hbelow hreached) hinner hanswer

/-- A query whose names are unmarked, and which takes marks off all the way down, has an unmarked
lineage. -/
theorem unmarked_of_extract
    (hreached : ∀ below, plan.Reaches settings below →
      below.NamesUnmarked settings ∧ below.ReturnsUnmarked settings)
    (hm : (plan.extract settings ∅).result = .ok m) : m.All Attribute.Unmarked := by
  rw [extract_eq] at hm
  exact unmarked_of_extractWithin _ le_rfl hreached LineageMap.all_empty hm

end Lineage

end ColumnTrace
