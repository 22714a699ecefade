import ColumnTrace.Lineage.Record
import ColumnTrace.Proofs.Inlining.Traversal
import ColumnTrace.Proofs.Lineage.UnmarkedAnswers

/-!
# Plans whose columns have names

Tracing fails for want of a name, for want of levels, or for a reason of the plan's own
(`OwnError`): a relation with more columns than its body is traced to, a reference that does not fit
its named query, a command without its target. Where all columns of a plan are named there is no
want of names, and the answer names its columns and their sources again (`ends_extractWithin`).
-/

set_option autoImplicit false

namespace ColumnTrace

namespace LineageMap

variable {m parent child : LineageMap}

/-- A map has names if its columns and their sources have. -/
theorem isNamed_iff : m.isNamed = true ↔
    (∀ key ∈ m.keys, key.isNamed = true) ∧ m.All (·.isNamed = true) := by
  simp only [isNamed, List.all_eq_true, Bool.and_eq_true, All, OrderedMap.keys, List.mem_map]
  constructor
  · intro h
    refine ⟨?_, fun entry hentry => (h entry hentry).2⟩
    rintro key ⟨entry, hentry, rfl⟩
    exact (h entry hentry).1
  · rintro ⟨hkeys, hsources⟩ entry hentry
    exact ⟨hkeys entry.1 ⟨entry, hentry, rfl⟩, hsources entry hentry⟩

/-- The map of a list has names where the list has. -/
theorem isNamed_ofList {pairs : List (Attribute × AttributeSet)}
    (hkeys : ∀ pair ∈ pairs, pair.1.isNamed = true)
    (hsources : ∀ pair ∈ pairs, ∀ a ∈ pair.2.attrs, a.isNamed = true) :
    isNamed (.ofList pairs) = true := by
  refine isNamed_iff.2 ⟨fun key hkey => ?_, all_ofList hsources⟩
  obtain ⟨pair, hpair, rfl⟩ := List.mem_map.1 (OrderedMap.mem_keys_ofList.1 hkey)
  exact hkeys pair hpair

/-- A map keeps its names if the new sources have some. -/
theorem isNamed_mapValues {f : Attribute → AttributeSet → AttributeSet} (h : m.isNamed = true)
    (hf : LineageMap.All (·.isNamed = true) (m.mapValues f)) : isNamed (m.mapValues f) = true := by
  have hkeys := (isNamed_iff.1 h).1
  rw [← OrderedMap.keys_mapValues f] at hkeys
  exact isNamed_iff.2 ⟨hkeys, hf⟩

/-- Maps with names have names together. -/
theorem isNamed_mergeAll {maps : List LineageMap} (h : ∀ m ∈ maps, m.isNamed = true) :
    (mergeAll maps).isNamed = true := by
  refine isNamed_iff.2 ⟨fun key hkey => ?_, all_mergeAll fun m hm => (isNamed_iff.1 (h m hm)).2⟩
  obtain ⟨m, hm, hkey⟩ := mem_keys_mergeAll.1 hkey
  exact (isNamed_iff.1 (h m hm)).1 key hkey

/-- A map has names under new names. -/
theorem isNamed_rename {name : Attribute → Label} (h : m.isNamed = true)
    (hname : ∀ key, (name key).isSome = true) : (m.rename name).isNamed = true := by
  refine isNamed_ofList (fun pair hpair => ?_) fun pair hpair => ?_
  · obtain ⟨entry, -, rfl⟩ := List.mem_map.1 hpair
    exact hname entry.1
  · obtain ⟨entry, hentry, rfl⟩ := List.mem_map.1 hpair
    exact (isNamed_iff.1 h).2 entry hentry

/-- Columns with names that stand for themselves make a map with names. -/
theorem isNamed_identity {columns : List Attribute} (h : ∀ a ∈ columns, a.isNamed = true) :
    (identity columns).isNamed = true := by
  refine isNamed_iff.2 ⟨fun key hkey => ?_, all_identity h⟩
  rw [identity, OrderedMap.mem_keys_ofList, List.map_map] at hkey
  exact h key (by simpa using hkey)

/-- A request is resolved where a dependency is known below, or has a name and so has the column
that asks for it. -/
theorem result_join_of_names
    (h : ∀ entry ∈ parent.entries, ∀ a ∈ entry.2.attrs,
      child.byId? a.id ≠ none ∨ (a.isNamed = true ∧ entry.1.isNamed = true)) :
    (parent.join child).result = .ok (parent.resolveAll child) := by
  have hnames : parent.dependencies.any child.lacksName = false := by
    rw [List.any_eq_false]
    intro pair hpair
    obtain ⟨sources, hentry, ha⟩ := mem_dependencies.1 hpair
    rcases h _ hentry pair.2 ha with hknown | ⟨hnamed, hkey⟩
    · simp [lacksName, hknown]
    · simp [lacksName, hnamed, hkey]
  simp [join, hnames]

/-- A request with names is resolved, and so are its columns named. -/
theorem ends_join {E : ExtractionError → Prop} (hparent : parent.isNamed = true)
    (hchild : child.isNamed = true) : (parent.join child).Ends (·.isNamed = true) E := by
  obtain ⟨hkeys, hsources⟩ := isNamed_iff.1 hparent
  have hresult : (parent.join child).result = .ok (parent.resolveAll child) :=
    result_join_of_names fun entry hentry a ha =>
      Or.inr ⟨hsources entry hentry a ha, hkeys _ (OrderedMap.key_mem_of_entry_mem hentry)⟩
  refine Traced.ends_of_result_eq (y := pure _) hresult (Traced.ends_pure ?_)
  refine isNamed_iff.2 ⟨?_, hsources.resolveAll (isNamed_iff.1 hchild).2 fun _ ha _ => ha⟩
  cases hempty : parent.isEmpty with
  | true =>
    rw [resolveAll_of_isEmpty hempty]
    exact (isNamed_iff.1 hchild).1
  | false => rwa [keys_resolveAll hempty]

/-- What a relation answers for a column with a name has a name. -/
theorem isNamed_of_answer? {output : List Attribute} {qualifier : List String} {a b : Attribute}
    (ha : a.isNamed = true) (hab : answer? output qualifier a = some b) : b.isNamed = true := by
  simp only [answer?] at hab
  split at hab
  · exact Option.some.inj hab ▸ ha
  · split at hab
    · exact Option.some.inj hab ▸ ha
    · split at hab
      · exact Option.some.inj hab ▸ ha
      · split at hab
        · rw [← Option.some.inj hab]
          simpa [Attribute.isNamed, Attribute.withName, Attribute.withQualifier] using ha
        · cases hab

/-- A relation answers a request with names with names, whatever columns it has. -/
theorem isNamed_answerOf {output : List Attribute} {qualifier : List String}
    (hempty : parent.isEmpty = false) (hparent : parent.isNamed = true) :
    (parent.answerOf output qualifier).isNamed = true := by
  rw [answerOf, hempty, if_neg Bool.false_ne_true]
  refine isNamed_mapValues hparent (all_mapValues fun entry hentry b hb => ?_)
  obtain ⟨a, ha, hab⟩ := List.mem_filterMap.1 (AttributeSet.mem_of_mem_ofList hb)
  exact isNamed_of_answer? ((isNamed_iff.1 hparent).2 entry hentry a ha) hab

/-- A relation answers with names. -/
theorem ends_ofRelation {E : ExtractionError → Prop} {output : List Attribute}
    {qualifier : List String} (hparent : parent.isNamed = true)
    (houtput : ∀ a ∈ output, a.isNamed = true) :
    (parent.ofRelation output qualifier).Ends (·.isNamed = true) E := by
  have hsources := (isNamed_iff.1 hparent).2
  have hresult : (parent.ofRelation output qualifier).result =
      .ok (parent.answerOf output qualifier) := Lineage.result_ofRelation_of_named hsources
  refine Traced.ends_of_result_eq (y := pure (parent.answerOf output qualifier)) hresult ?_
  refine Traced.ends_pure ?_
  cases hempty : parent.isEmpty with
  | true =>
    refine isNamed_iff.2
      ⟨fun key hkey => ?_, hsources.answerOf houtput fun _ _ => isNamed_of_answer?⟩
    exact houtput key (Lineage.mem_output_of_mem_answerOf hempty hkey)
  | false => exact isNamed_answerOf hempty hparent

end LineageMap

/-! ## Errors of writing references out -/

/-- Writing references out fails only where one has another number of columns than its query. -/
theorem Plan.ends_inline (scope : CteScope) (plan : Plan) :
    (plan.inline scope).Ends (fun _ => True) (·.kind = .mismatch) := by
  induction plan using Plan.induction_on_parts generalizing scope with
  | h plan ih =>
    cases hscoping : plan.isScoping with
    | false =>
      rw [Plan.inline_eq scope hscoping]
      refine (Traced.ends_mapM (R := fun _ _ => True) fun part hpart => ?_).bind fun _ _ =>
        Traced.ends_pure trivial
      exact ih part (plan.visited_subset_parts hpart) scope
    | true =>
      cases plan with
      | withCte definitions body =>
        rw [Plan.inline]
        refine (CteDefinition.ends_extend (P := fun _ => True)
          (fun definition hdefinition scope _ => ?_) trivial).bind fun inner _ => ?_
        · exact ih definition.child (Plan.definition_mem_parts hdefinition) scope
        · exact ih body Plan.body_mem_parts inner
      | cteReference id output =>
        rw [Plan.inline, resolveReference]
        split
        · exact Traced.ends_of_result_eq (Traced.result_note_bind _ _) (Traced.ends_pure trivial)
        · split
          · exact Traced.ends_fail rfl
          · exact Traced.ends_pure trivial
      | _ => cases hscoping

namespace Plan

/-- The columns of a merge's target that get a value. -/
def columnsAssigned : Plan → List Attribute
  | .merge _ _ matched notMatched =>
    ((matched ++ notMatched).flatMap MergeAction.assignments).map Assignment.key
  | _ => []

/-- On one level of a plan every column has a name. -/
structure NamesGiven (plan : Plan) : Prop where
  read : ∀ a ∈ plan.columnsRead, a.isNamed = true
  output : ∀ a ∈ plan.output, a.isNamed = true
  assigned : ∀ a ∈ plan.columnsAssigned, a.isNamed = true

instance (plan : Plan) : Decidable plan.NamesGiven :=
  decidable_of_iff ((∀ a ∈ plan.columnsRead, a.isNamed = true) ∧
      (∀ a ∈ plan.output, a.isNamed = true) ∧ ∀ a ∈ plan.columnsAssigned, a.isNamed = true)
    ⟨fun h => ⟨h.1, h.2.1, h.2.2⟩, fun h => ⟨h.read, h.output, h.assigned⟩⟩

end Plan

namespace Lineage

open Traced

variable {settings : Settings} {below : Below} {plan : Plan} {parent : LineageMap}
variable {E : ExtractionError → Prop}

/-- The reasons of its own for which a level of a plan has no lineage: no names that are missing,
nothing that the plans below fail for. -/
inductive OwnError (settings : Settings) (below : Below) : Plan → ExtractionError → Prop
  | reference {definitions : List CteDefinition} {body : Plan} {e : ExtractionError}
      (h : ((Plan.withCte definitions body).inline []).result = .error e) :
      OwnError settings below (.withCte definitions body) e
  | columns {plan body : Plan} {output : List Attribute} {lineage : LineageMap}
      (hbody : plan.branches? settings = some (output, [body]))
      (hlineage : (below body ∅).result = .ok lineage)
      (hshort : lineage.size < output.length) :
      OwnError settings below plan (.unresolvedColumns output.length lineage.size)
  | insert {query : Plan} {mode : WriteMode} :
      OwnError settings below (.insertTable none query mode) (.insertWithoutTable mode)
  | directory {location : Option String} {query : Plan} {overwrite : Bool}
      (h : location.getD "" = "") :
      OwnError settings below (.insertDirectory location query overwrite) .directoryWithoutLocation
  | view {name : TableName} {query : Plan} {type : ViewType} {columns : List Label}
      {request lineage : LineageMap} (hlineage : (below query request).result = .ok lineage)
      (hshort : columns.length < lineage.size) :
      OwnError settings below (.createView name query type columns)
        (.viewColumns name.qualifiedName columns.length lineage.size)

/-! ## One level -/

/-- The plans below answer requests with names by answers with names. -/
def NamedBelow (settings : Settings) (below : Below) (E : ExtractionError → Prop) (plan : Plan) :
    Prop :=
  ∀ child ∈ plan.tracedBelow settings, ∀ request, request.isNamed = true →
    (below child request).Ends (·.isNamed = true) E

/-- Children whose answers have names have names together. -/
theorem ends_ofChildren {children : List Plan} {request : LineageMap}
    (h : ∀ child ∈ children, (below child request).Ends (·.isNamed = true) E) :
    (ofChildren below children request).Ends (·.isNamed = true) E := by
  refine (ends_mapM h).bind fun answers hanswers => ends_pure (LineageMap.isNamed_mergeAll ?_)
  intro answer hanswer
  obtain ⟨child, -, hnamed⟩ := exists_left_of_forall₂ hanswers hanswer
  exact hnamed

/-- The sources of a named expression have names where its columns and the answers of its subqueries
have. -/
theorem ends_aliasSources {f : Alias} (hread : ∀ a ∈ f.child.attributes, a.isNamed = true)
    (h : ∀ query ∈ (SelectItem.aliased f).tracedSubqueries,
      (below query ∅).Ends (·.isNamed = true) E) :
    (aliasSources below f).Ends (fun sources => ∀ a ∈ sources.attrs, a.isNamed = true) E := by
  have hsources : ∀ sources : AttributeSet, (∀ a ∈ sources.attrs, a.isNamed = true) →
      ∀ a ∈ (if f.child.countsRows then sources.insert (f.toAttribute.withName countName)
        else sources).attrs, a.isNamed = true := by
    intro sources hnamed a ha
    split at ha
    · rcases AttributeSet.mem_or_eq_of_mem_insert ha with hold | rfl
      · exact hnamed a hold
      · rfl
    · exact hnamed a ha
  rw [aliasSources]
  split
  · next hempty =>
    rw [SelectItem.tracedSubqueries, if_pos hempty] at h
    refine (ends_mapM h).bind fun nested hnested => ?_
    have hlent : ∀ a ∈ (lentBy nested).attrs, a.isNamed = true := by
      intro a ha
      obtain ⟨b, ⟨answer, hanswer, entry, hentry, hb⟩, rfl⟩ := exists_of_mem_lentBy ha
      obtain ⟨query, -, hnamed⟩ := exists_left_of_forall₂ hnested hanswer
      exact (LineageMap.isNamed_iff.1 hnamed).2 entry hentry b hb
    exact ends_pure (hsources _ hlent)
  · refine ends_pure (hsources _ fun a ha => hread a ?_)
    exact AttributeSet.mem_of_mem_ofList ha

/-- A select list has names where its columns and the answers of its subqueries have. -/
theorem ends_ofSelectList {items : List SelectItem}
    (hread : ∀ item ∈ items, ∀ a ∈ item.toExpr.attributes, a.isNamed = true)
    (houtput : ∀ item ∈ items, item.toAttribute.isNamed = true)
    (h : ∀ item ∈ items, ∀ query ∈ item.tracedSubqueries,
      (below query ∅).Ends (·.isNamed = true) E) :
    (ofSelectList below items).Ends (·.isNamed = true) E := by
  have hitem : ∀ item ∈ items, (itemSources below item).Ends
      (fun pair => pair.1.isNamed = true ∧ ∀ a ∈ pair.2.attrs, a.isNamed = true) E := by
    intro item hmem
    cases item with
    | column a =>
      refine ends_pure ⟨houtput _ hmem, fun b hb => ?_⟩
      exact List.mem_singleton.1 hb ▸ houtput _ hmem
    | aliased f =>
      have hattributes : ∀ a ∈ f.child.attributes, a.isNamed = true := by
        cases f
        exact hread _ hmem
      exact (ends_aliasSources hattributes (h _ hmem)).bind fun sources hsources =>
        ends_pure ⟨houtput _ hmem, hsources⟩
  refine (ends_mapM hitem).bind fun pairs hpairs => ends_pure ?_
  refine LineageMap.isNamed_ofList (fun pair hpair => ?_) fun pair hpair => ?_
  · obtain ⟨item, -, hnamed⟩ := exists_left_of_forall₂ hpairs hpair
    exact hnamed.1
  · obtain ⟨item, -, hnamed⟩ := exists_left_of_forall₂ hpairs hpair
    exact hnamed.2

/-- An operator with a select list answers with names. -/
theorem ends_of_selectList {items : List SelectItem} {child : Plan}
    (hlist : plan.selectList? = some (items, child)) (hnames : plan.NamesGiven)
    (hparent : parent.isNamed = true) (hbelow : NamedBelow settings below E plan) :
    (step settings below plan parent).Ends (·.isNamed = true) E := by
  obtain ⟨htraced, hread⟩ :
      plan.tracedBelow settings = child :: items.flatMap SelectItem.tracedSubqueries ∧
        plan.columnsRead = items.flatMap fun item => item.toExpr.attributes := by
    cases plan <;> cases hlist <;> exact ⟨rfl, rfl⟩
  have hselected : (ofSelectList below items).Ends (·.isNamed = true) E := by
    refine ends_ofSelectList (fun item hitem a ha => hnames.read a ?_)
      (fun item hitem => hnames.output _ ?_) fun item hitem query hquery => hbelow query ?_ ∅ rfl
    · exact hread ▸ List.mem_flatMap.2 ⟨item, hitem, ha⟩
    · exact Plan.output_of_selectList hlist ▸ List.mem_map_of_mem hitem
    · exact htraced ▸ List.mem_cons_of_mem child (List.mem_flatMap.2 ⟨item, hitem, hquery⟩)
  rw [Plan.step_of_selectList hlist]
  refine hselected.bind fun selected hnamed => ?_
  refine (LineageMap.ends_join hparent hnamed).bind fun request hrequest => ?_
  refine ends_ofChildren fun below hmem => ?_
  exact hbelow below (htraced ▸ List.mem_singleton.1 hmem ▸ List.mem_cons_self) request hrequest

/-- What a window asks for has names. -/
theorem isNamed_windowRequest {functions : List Alias} {child : Plan} {partition order : List Expr}
    (hnames : (Plan.window functions child partition order).NamesGiven)
    (hparent : parent.isNamed = true) :
    (windowRequest functions child.output parent).isNamed = true := by
  refine LineageMap.isNamed_iff.2 ⟨fun key hkey => ?_, ?_⟩
  · cases hempty : parent.isEmpty with
    | true =>
      rw [mem_keys_windowRequest_of_isEmpty hempty] at hkey
      exact hnames.output key (List.mem_append.2 hkey)
    | false =>
      rw [keys_windowRequest hempty] at hkey
      exact (LineageMap.isNamed_iff.1 hparent).1 key hkey
  · refine all_windowRequest (LineageMap.isNamed_iff.1 hparent).2 (fun a ha => ?_)
      fun f hf a ha => ?_
    · exact hnames.read a (List.mem_append_left _ ha)
    · exact hnames.read a (List.mem_append_right _ (List.mem_flatMap.2 ⟨f, hf, ha⟩))

/-- What an expansion computes has names. -/
theorem isNamed_ofProjections {projections : List (List Expr)} {output : List Attribute}
    {child : Plan} (hnames : (Plan.expand projections output child).NamesGiven) :
    (ofProjections projections output).isNamed = true := by
  refine LineageMap.isNamed_iff.2 ⟨fun key hkey => ?_, all_ofProjections ?_ output⟩
  · exact hnames.output key (mem_output_of_mem_ofProjections hkey)
  · intro row hrow e he a ha
    exact hnames.read a (List.mem_flatMap.2 ⟨e, List.mem_flatten.2 ⟨row, hrow, he⟩, ha⟩)

/-- Branches side by side have names. -/
theorem isNamed_ofBranches {output : List Attribute} {answers : List LineageMap}
    (houtput : ∀ a ∈ output, a.isNamed = true) (h : ∀ m ∈ answers, m.isNamed = true) :
    (ofBranches output answers).isNamed = true := by
  by_cases hempty : output = []
  · subst hempty
    exact LineageMap.isNamed_mergeAll h
  · refine LineageMap.isNamed_iff.2 ⟨fun key hkey => ?_, ?_⟩
    · exact houtput key (mem_output_of_mem_ofBranches hempty hkey)
    · exact all_ofBranches (fun m hm => (LineageMap.isNamed_iff.1 (h m hm)).2) output

/-- A relation with a plan behind it answers with names, unless that plan has too few columns. -/
theorem ends_of_body {output : List Attribute} {body : Plan}
    (hbranches : plan.branches? settings = some (output, [body])) (hnames : plan.NamesGiven)
    (hparent : parent.isNamed = true) (hbelow : NamedBelow settings below E plan)
    (hown : ∀ e, OwnError settings below plan e → E e) :
    (below body ∅ >>= fun lineage => parent.ofRelationPlan output lineage).Ends
      (·.isNamed = true) E := by
  have hbody : (below body ∅).Ends (·.isNamed = true) E := by
    refine hbelow body ?_ ∅ rfl
    rw [Plan.tracedBelow_of_branches hbranches]
    exact List.mem_cons_self
  -- the answer of the body is looked at as such, for it stands in the error
  cases hlineage : (below body ∅).result with
  | error e =>
    rw [bind_of_error hlineage]
    exact hbody.of_error hlineage
  | ok lineage =>
    refine ends_of_result_eq (result_bind_of_ok hlineage) ?_
    rw [LineageMap.ofRelationPlan]
    split
    · next hshort => exact ends_fail (hown _ (.columns hbranches hlineage hshort))
    · refine LineageMap.ends_join hparent ?_
      refine LineageMap.isNamed_iff.2 ⟨fun key hkey => ?_, ?_⟩
      · refine hnames.output key ?_
        rw [Plan.output_of_branches hbranches]
        exact mem_output_of_mem_zip hkey
      · exact (LineageMap.isNamed_iff.1 (hbody.of_ok hlineage)).2.zip output

/-- A new view shows columns with names, or fails for a reason of its own. -/
theorem ends_of_newView {name : TableName} {query : Plan} {type : ViewType} {columns : List Label}
    (hquery : (below query parent).Ends (·.isNamed = true) E)
    (hown : ∀ e, OwnError settings below (.createView name query type columns) e → E e) :
    (below query parent >>= ofNewView name.qualifiedName columns).Ends (·.isNamed = true) E := by
  cases hlineage : (below query parent).result with
  | error e =>
    rw [bind_of_error hlineage]
    exact hquery.of_error hlineage
  | ok lineage =>
    have hnamed := hquery.of_ok hlineage
    refine ends_of_result_eq (result_bind_of_ok hlineage) ?_
    rw [ofNewView]
    split
    · exact ends_pure (LineageMap.isNamed_rename hnamed fun _ => rfl)
    · split
      · next hshort => exact ends_fail (hown _ (.view hlineage hshort))
      · refine ends_pure (LineageMap.isNamed_ofList (fun pair hpair => ?_) fun pair hpair => ?_)
        · obtain ⟨entry, -, rfl⟩ := List.mem_map.1 hpair
          rfl
        · obtain ⟨entry, hentry, rfl⟩ := List.mem_map.1 hpair
          exact (LineageMap.isNamed_iff.1 hnamed).2 entry.1 (List.of_mem_zip hentry).1

/-- Only assigned columns are collected. -/
theorem mem_keys_ofAssignments {assignments : List Assignment} {key : Attribute}
    (h : key ∈ (ofAssignments assignments).keys) : key ∈ assignments.map Assignment.key := by
  have step : ∀ (assignments : List Assignment) (start : LineageMap),
      key ∈ (assignments.foldl (fun request a =>
        request.insert a.key (request.sourcesOf a.key ∪ a.value.references)) start).keys →
      key ∈ start.keys ∨ key ∈ assignments.map Assignment.key := by
    intro assignments
    induction assignments with
    | nil => exact fun _ h => Or.inl h
    | cons a rest ih =>
      intro start h
      rcases ih _ h with hstart | hrest
      · rw [OrderedMap.keys_insert] at hstart
        split at hstart
        · exact Or.inl hstart
        · rcases List.mem_append.1 hstart with hold | hnew
          · exact Or.inl hold
          · exact Or.inr (List.mem_singleton.1 hnew ▸ List.mem_cons_self)
      · exact Or.inr (List.mem_cons_of_mem _ hrest)
  exact (step assignments ∅ h).resolve_left List.not_mem_nil

/-- A merge reports columns with names, or fails for a reason of its own. -/
theorem ends_of_merge {target source : Plan} {matched notMatched : List MergeAction}
    (hnames : (Plan.merge target source matched notMatched).NamesGiven)
    (hbelow : NamedBelow settings below E (.merge target source matched notMatched)) :
    (step settings below (.merge target source matched notMatched) parent).Ends
      (·.isNamed = true) E := by
  have hkeys : ∀ key ∈ (ofAssignments ((matched ++ notMatched).flatMap
      MergeAction.assignments)).keys, key.isNamed = true :=
    fun key hkey => hnames.assigned key (mem_keys_ofAssignments hkey)
  have hrequest := LineageMap.isNamed_iff.2 ⟨hkeys, all_ofAssignments fun a ha r hr =>
    hnames.read r (List.mem_flatMap.2 ⟨a, ha, hr⟩)⟩
  refine (hbelow target List.mem_cons_self _ (LineageMap.isNamed_identity hkeys)).bind
    fun targetLineage htarget => ?_
  refine (hbelow source (List.mem_cons_of_mem target List.mem_cons_self) _ hrequest).bind
    fun sourceLineage hsource => ?_
  have hwritten : (targetLineage.values.flatMap AttributeSet.attrs).all Attribute.isNamed =
      true := by
    rw [List.all_eq_true]
    intro a ha
    obtain ⟨sources, hsources, ha⟩ := List.mem_flatMap.1 ha
    exact (LineageMap.isNamed_iff.1 htarget).2.values hsources ha
  rw [ofMerge, if_pos hwritten]
  refine ends_pure (LineageMap.isNamed_iff.2 ⟨fun key hkey => ?_, ?_⟩)
  · obtain ⟨column, -, rfl⟩ := List.mem_map.1 (mem_output_of_mem_zip hkey)
    rfl
  · exact (LineageMap.isNamed_iff.1 hsource).2.zip _

/-- One level with names answers with names, or fails as the plans below do or for a reason of its
own. -/
theorem ends_step (hnames : plan.NamesGiven) (hparent : parent.isNamed = true)
    (hbelow : NamedBelow settings below E plan)
    (hown : ∀ e, OwnError settings below plan e → E e) :
    (step settings below plan parent).Ends (·.isNamed = true) E := by
  have hrenamed : ∀ {query : Plan} {name : Attribute → String},
      query ∈ plan.tracedBelow settings →
      (below query parent >>= fun lineage => pure (lineage.rename fun key => name key)).Ends
        (·.isNamed = true) E := by
    intro query name hquery
    exact (hbelow query hquery parent hparent).bind fun lineage hlineage =>
      ends_pure (LineageMap.isNamed_rename hlineage fun _ => rfl)
  cases plan with
  | project items child =>
    have hlist : (Plan.project items child).selectList? = some (items, child) := rfl
    exact ends_of_selectList hlist hnames hparent hbelow
  | aggregate grouping items child =>
    have hlist : (Plan.aggregate grouping items child).selectList? = some (items, child) := rfl
    exact ends_of_selectList hlist hnames hparent hbelow
  | window functions child partition order =>
    refine ends_ofChildren fun below hmem => ?_
    exact hbelow below hmem _ (isNamed_windowRequest hnames hparent)
  | expand projections output child =>
    refine (LineageMap.ends_join hparent (isNamed_ofProjections hnames)).bind
      fun request hrequest => ends_ofChildren fun below hmem => ?_
    exact hbelow below hmem request hrequest
  | join left right type condition =>
    simp only [NamedBelow, Plan.tracedBelow] at hbelow
    rw [step, stepAt]
    split
    · next hexposes =>
      rw [if_pos hexposes] at hbelow
      exact ends_ofChildren fun child hchild => hbelow child hchild parent hparent
    · next hhides =>
      rw [if_neg hhides] at hbelow
      exact hbelow left List.mem_cons_self parent hparent
  | union branches output =>
    refine (ends_mapM fun branch hbranch => hbelow branch hbranch ∅ rfl).bind
      fun answers hanswers => LineageMap.ends_join hparent (isNamed_ofBranches hnames.output ?_)
    intro answer hanswer
    obtain ⟨branch, -, hnamed⟩ := exists_left_of_forall₂ hanswers hanswer
    exact hnamed
  | relation output table =>
    rw [step_relation]
    exact LineageMap.ends_ofRelation hparent hnames.output
  | localRelation output rows => exact LineageMap.ends_ofRelation hparent hnames.output
  | oneRow =>
    refine ends_pure (LineageMap.isNamed_mapValues hparent ?_)
    refine all_ofOneRow (LineageMap.isNamed_iff.1 hparent).2 fun a ha => ?_
    split <;> exact ha
  | view name output body temporary =>
    rw [step, stepAt]
    split
    · exact LineageMap.ends_ofRelation hparent hnames.output
    · next hskip =>
      have hopened : (Plan.view name output body temporary).HasBranches settings output [body] :=
        .view (Bool.not_eq_true _ ▸ hskip)
      exact ends_of_body (Plan.branches?_eq_some_iff.2 hopened) hnames hparent hbelow hown
  | cached output physical table =>
    simp only [step, stepAt]
    split
    · next logical hlink =>
      have hopened : (Plan.cached output physical table).HasBranches settings output [logical] :=
        .cached hlink
      exact ends_of_body (Plan.branches?_eq_some_iff.2 hopened) hnames hparent hbelow hown
    · exact LineageMap.ends_ofRelation hparent hnames.output
  | cteReference id output => exact ends_pure rfl
  | cteDefinition definition =>
    refine ends_of_result_eq (result_note_bind _ _) (ends_ofChildren fun child hchild => ?_)
    exact hbelow child hchild parent hparent
  | withCte definitions body =>
    -- the clause fails of its own where a named query does not fit its references
    cases hinline : ((Plan.withCte definitions body).inline []).result with
    | error e =>
      have hresult : (step settings below (.withCte definitions body) parent).result =
          .error e := by rw [step, stepAt, bind_of_error hinline]
      exact ends_of_result_eq (y := .fail e) hresult (ends_fail (hown e (.reference hinline)))
    | ok inlined =>
      refine ends_of_result_eq (result_bind_of_ok hinline) (hbelow inlined ?_ parent hparent)
      rw [Plan.tracedBelow, hinline]
      exact List.mem_cons_self
  | operator name children output =>
    rw [step, stepAt]
    split
    · exact ends_pure rfl
    · refine ends_of_result_eq (result_note_bind _ _) (ends_ofChildren fun child hchild => ?_)
      exact hbelow child hchild parent hparent
  | commandResult output command => exact hbelow command List.mem_cons_self parent hparent
  | saveSource query provider => exact hbelow query List.mem_cons_self parent hparent
  | alterView name query => exact hrenamed List.mem_cons_self
  | createTable name query replace => exact hrenamed List.mem_cons_self
  | insertTable table query mode =>
    cases table with
    | none => exact ends_fail (hown _ .insert)
    | some table => exact hrenamed List.mem_cons_self
  | insertDirectory location query overwrite =>
    simp only [step, stepAt]
    split
    · exact ends_fail (hown _ (.directory rfl))
    · exact ends_fail (hown _ (.directory rfl))
    · exact hrenamed List.mem_cons_self
  | createView name query type columns =>
    simp only [NamedBelow, Plan.tracedBelow] at hbelow
    rw [step, stepAt]
    split
    · exact ends_of_result_eq (result_note_bind _ _) (ends_pure rfl)
    · next htype =>
      rw [if_pos (not_not.1 htype)] at hbelow
      exact ends_of_newView (hbelow query List.mem_cons_self parent hparent) hown
  | merge target source matched notMatched =>
    exact ends_of_merge hnames hbelow

/-! ## All levels -/

/-- A plan whose columns all have names answers a request with names by an answer with names, or it
fails: because the levels run out, or because a plan on the way down does so of its own. -/
theorem ends_extractWithin (n : Nat) : ∀ {plan : Plan} {request : LineageMap},
    (∀ below, plan.Reaches settings below → below.NamesGiven) → request.isNamed = true →
    E (.tooDeep (settings.maxPlanDepth + 1) settings.maxPlanDepth) ∨ plan.fits settings n →
    (∀ below, plan.Reaches settings below → ∀ n e,
      OwnError settings (extractWithin settings n) below e → E e) →
    (extractWithin settings n plan request).Ends (·.isNamed = true) E := by
  induction n with
  | zero => exact fun _ _ hdeep _ => hdeep.elim ends_fail False.elim
  | succ n ih =>
    intro plan request hnames hrequest hdeep hown
    refine ends_step (hnames plan (.refl plan)) hrequest ?_ (hown plan (.refl plan) n)
    intro child hchild inner hinner
    refine ih (Plan.Reaches.forall_of_mem hchild hnames) hinner ?_
      (Plan.Reaches.forall_of_mem hchild hown)
    exact hdeep.imp_right fun hfits => hfits child hchild

/-- No plan whose columns all have names fails for want of one. -/
theorem extract_ne_nameless {request : LineageMap}
    (hnames : ∀ below, plan.Reaches settings below → below.NamesGiven)
    (hrequest : request.isNamed = true) :
    (plan.extract settings request).result ≠ .error .namelessColumn := by
  have hends : (plan.extract settings request).Ends (·.isNamed = true) (· ≠ .namelessColumn) := by
    rw [extract_eq]
    refine ends_extractWithin _ hnames hrequest (Or.inl (by simp)) ?_
    intro below _ n e hown
    cases hown with
    | reference hinline =>
      rintro rfl
      cases (Plan.ends_inline [] _).of_error hinline
    | columns hbody hlineage hshort => simp
    | insert => simp
    | directory h => simp
    | view hlineage hshort => simp
  exact fun herror => hends.of_error herror rfl

end Lineage

end ColumnTrace
