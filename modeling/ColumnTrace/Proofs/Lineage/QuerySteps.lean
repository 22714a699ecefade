import ColumnTrace.Proofs.Lineage.Operators

/-!
# How a query may answer

`Plan.isQuery` tells the plans that are built of query operators: no commands, no merges, no named
queries, and no unmodelled operator with other than one child. `QueryStep` lists the ways in which
one level of such a plan may answer a request: it resolves the request against what it computes and
hands it to its child, hands it on as it is, hands it to both sides, or answers it itself. Whatever
is proved of all queries is proved of these ways.

Three readings of a plan go with it. `Plan.columnIds` lists the identities of the columns of a plan
and of the plans that it hands a request on to. `Plan.handedBack?` says what becomes of a column
that the plan does not know: base relations drop it, unless its name or a subquery's mark makes it
theirs; unions, opened views and stored results hand it back as it is.
-/

set_option autoImplicit false

namespace ColumnTrace

/-- The attribute, unless it is the marker for the rows of a table. -/
def Attribute.uncounted? (a : Attribute) : Option Attribute :=
  if a.isCountMarker then none else some a

/-- A column stays itself, unless it is the marker of rows. -/
theorem Attribute.uncounted?_eq_some_iff {a b : Attribute} :
    a.uncounted? = some b ↔ a.isCountMarker = false ∧ a = b := by
  rw [Attribute.uncounted?]
  cases a.isCountMarker <;> simp

mutual

/-- The plan is built of query operators. -/
def Plan.isQuery : Plan → Bool
  | .project _ child => child.isQuery
  | .aggregate _ _ child => child.isQuery
  | .window _ child _ _ => child.isQuery
  | .expand _ _ child => child.isQuery
  | .join left right _ _ => left.isQuery && right.isQuery
  | .union branches _ => Plan.areQueries branches
  | .relation .. => true
  | .localRelation .. => true
  | .oneRow => true
  | .view _ _ body _ => body.isQuery
  | .cached .. => true
  | .operator _ [child] _ => child.isQuery
  | _ => false

/-- All plans are built of query operators. -/
def Plan.areQueries : List Plan → Bool
  | [] => true
  | plan :: rest => plan.isQuery && Plan.areQueries rest

end

mutual

/-- The identities of the columns of a plan and of the plans that it hands a request on to. A union
with columns of its own, a view and a stored result hand nothing on. -/
def Plan.columnIds : Plan → List Int
  | .project items child => items.map (·.toAttribute.id) ++ child.columnIds
  | .aggregate _ items child => items.map (·.toAttribute.id) ++ child.columnIds
  | .window functions child _ _ =>
    functions.map Alias.id ++ (child.output.map Attribute.id ++ child.columnIds)
  | .expand _ output child => output.map Attribute.id ++ child.columnIds
  | .join left right type _ =>
    if type.exposesRight then left.columnIds ++ right.columnIds else left.columnIds
  | .union branches [] => Plan.columnIdsOfAll branches
  | .operator _ children output => output.map Attribute.id ++ Plan.columnIdsOfAll children
  | plan => plan.output.map Attribute.id

/-- The identities of the columns of all plans. -/
def Plan.columnIdsOfAll : List Plan → List Int
  | [] => []
  | plan :: rest => plan.columnIds ++ Plan.columnIdsOfAll rest

end

/-- What becomes of a column that is none of the plan's columns, where the plan is asked for it. -/
def Plan.handedBack? (settings : Settings) : Plan → Attribute → Option Attribute
  | .project _ child, a => a.uncounted?.bind (child.handedBack? settings)
  | .aggregate _ _ child, a => a.uncounted?.bind (child.handedBack? settings)
  | .expand _ _ child, a => a.uncounted?.bind (child.handedBack? settings)
  | .window _ child _ _, a => child.handedBack? settings a
  | .operator _ [child] _, a => child.handedBack? settings a
  | .join left right type _, a =>
    if type.exposesRight then prefer (right.handedBack? settings a) (left.handedBack? settings a)
    else left.handedBack? settings a
  | .union .., a => a.uncounted?
  | .relation _ table, a => LineageMap.answer? [] (Lineage.relationQualifier table) a
  | .localRelation .., a => LineageMap.answer? [] [localQualifier] a
  | .oneRow, a => some (if a.isSubqueryMarked then a.dropLastSegment else a)
  | .view name _ _ temporary, a =>
    if !temporary && settings.skipPersistedViews then LineageMap.answer? [] [name.qualifiedName] a
    else a.uncounted?
  | .cached _ physical table, a =>
    match PhysicalNode.findLink [physical] with
    | some _ => a.uncounted?
    | none => LineageMap.answer? [] (table.toList.filter (· != "")) a
  | _, _ => none

/-- Plans are queries if each of them is one. -/
theorem Plan.areQueries_iff {plans : List Plan} :
    Plan.areQueries plans = true ↔ ∀ plan ∈ plans, plan.isQuery = true := by
  induction plans with
  | nil => simp [Plan.areQueries]
  | cons plan rest ih => simp [Plan.areQueries, ih]

/-- An identity is known to plans if one of them knows it. -/
theorem Plan.mem_columnIdsOfAll {plans : List Plan} {id : Int} :
    id ∈ Plan.columnIdsOfAll plans ↔ ∃ plan ∈ plans, id ∈ plan.columnIds := by
  induction plans with
  | nil => simp [Plan.columnIdsOfAll]
  | cons plan rest ih => simp [Plan.columnIdsOfAll, ih]

/-- A union knows its own columns only. -/
theorem Plan.columnIds_union {branches : List Plan} {output : List Attribute}
    (h : output ≠ []) : (Plan.union branches output).columnIds = output.map Attribute.id := by
  cases output with
  | nil => exact absurd rfl h
  | cons a rest => rfl

/-- A query under an unmodelled operator is its only child. -/
theorem Plan.exists_child_of_isQuery {name : String} {children : List Plan}
    {output : List Attribute} (h : (Plan.operator name children output).isQuery = true) :
    ∃ child, children = [child] ∧ child.isQuery = true := by
  match children, h with
  | [child], h => exact ⟨child, rfl, h⟩

namespace Lineage

open Traced

/-! ## The columns of what operators compute -/

/-- The sources of an entry are those of its column. -/
theorem itemSources_fst {below : Below} {item : SelectItem} {entry : Attribute × AttributeSet}
    (h : (itemSources below item).result = .ok entry) : entry.1 = item.toAttribute := by
  cases item with
  | column a => exact congrArg Prod.fst (Except.ok.inj h).symm
  | aliased a =>
    obtain ⟨sources, -, hentry⟩ := result_bind_eq_ok.1 h
    exact congrArg Prod.fst (Except.ok.inj hentry).symm

/-- The entries of a select list, in order, with their sources. -/
theorem ofSelectList_eq_ok {below : Below} {items : List SelectItem} {selected : LineageMap} :
    (ofSelectList below items).result = .ok selected ↔
      ∃ pairs, List.Forall₂ (fun item pair => (itemSources below item).result = .ok pair)
          items pairs ∧ selected = .ofList pairs := by
  rw [ofSelectList, result_bind_eq_ok]
  constructor
  · rintro ⟨pairs, hpairs, hselected⟩
    exact ⟨pairs, result_mapM_eq_ok.1 hpairs, (Except.ok.inj hselected).symm⟩
  · rintro ⟨pairs, hpairs, rfl⟩
    exact ⟨pairs, result_mapM_eq_ok.2 hpairs, rfl⟩

/-- The sources of a select list are those of its columns, in order. -/
theorem map_fst_of_itemSources {below : Below} {items : List SelectItem}
    {pairs : List (Attribute × AttributeSet)}
    (h : List.Forall₂ (fun item pair => (itemSources below item).result = .ok pair) items pairs) :
    pairs.map Prod.fst = items.map SelectItem.toAttribute := by
  induction h with
  | nil => rfl
  | cons hitem _ ih => rw [List.map_cons, List.map_cons, itemSources_fst hitem, ih]

/-- A select list has the columns of its entries. -/
theorem mem_keys_ofSelectList {below : Below} {items : List SelectItem} {selected : LineageMap}
    (h : (ofSelectList below items).result = .ok selected) {key : Attribute} :
    key ∈ selected.keys ↔ key ∈ items.map SelectItem.toAttribute := by
  obtain ⟨pairs, hpairs, rfl⟩ := ofSelectList_eq_ok.1 h
  rw [OrderedMap.mem_keys_ofList, map_fst_of_itemSources hpairs]

/-- An expansion has columns of its own only. -/
theorem mem_output_of_mem_ofProjections {projections : List (List Expr)}
    {output : List Attribute} {key : Attribute}
    (h : key ∈ (ofProjections projections output).keys) : key ∈ output := by
  rw [ofProjections, OrderedMap.mem_keys_ofList, List.map_map] at h
  obtain ⟨pair, hpair, rfl⟩ := List.mem_map.1 h
  exact (List.of_mem_zip hpair).1

/-- Window functions have their columns. -/
theorem mem_keys_ofWindowFunctions {functions : List Alias} {key : Attribute} :
    key ∈ (ofWindowFunctions functions).keys ↔ key ∈ functions.map Alias.toAttribute := by
  rw [ofWindowFunctions, OrderedMap.mem_keys_ofList, List.map_map]
  rfl

/-- A union with columns of its own answers for these. -/
theorem mem_output_of_mem_ofBranches {output : List Attribute} {answers : List LineageMap}
    (houtput : output ≠ []) {key : Attribute} (h : key ∈ (ofBranches output answers).keys) :
    key ∈ output := by
  match output, answers, houtput with
  | _ :: _, [], _ => cases h
  | a :: rest, first :: others, _ =>
    obtain ⟨pair, hpair, rfl⟩ := List.mem_map.1 (OrderedMap.mem_keys_ofList.1 h)
    exact (List.of_mem_zip hpair).1

/-- Only columns that are paired with values have an entry. -/
theorem mem_output_of_mem_zip {output : List Attribute} {values : List AttributeSet}
    {key : Attribute} (h : key ∈ (OrderedMap.ofList (output.zip values)).keys) :
    key ∈ output := by
  obtain ⟨pair, hpair, rfl⟩ := List.mem_map.1 (OrderedMap.mem_keys_ofList.1 h)
  exact (List.of_mem_zip hpair).1

/-- A window keeps the columns that it is asked for. -/
theorem keys_windowRequest {functions : List Alias} {input : List Attribute}
    {parent : LineageMap} (h : parent.isEmpty = false) :
    (windowRequest functions input parent).keys = parent.keys := by
  rw [windowRequest, h, if_neg Bool.false_ne_true, OrderedMap.keys_mapValues]

/-- A window that is asked for nothing asks for its input and its functions. -/
theorem mem_keys_windowRequest_of_isEmpty {functions : List Alias} {input : List Attribute}
    {parent : LineageMap} (h : parent.isEmpty = true) {key : Attribute} :
    key ∈ (windowRequest functions input parent).keys ↔
      key ∈ input ∨ key ∈ functions.map Alias.toAttribute := by
  rw [windowRequest, if_pos h, OrderedMap.mem_keys_insertAll, LineageMap.identity,
    OrderedMap.mem_keys_ofList, List.map_map]
  refine or_congr ?_ mem_keys_ofWindowFunctions
  simp

/-- A table answers for the columns that it is asked for. -/
theorem keys_answerOf {parent : LineageMap} (h : parent.isEmpty = false)
    (output : List Attribute) (qualifier : List String) :
    (parent.answerOf output qualifier).keys = parent.keys := by
  rw [LineageMap.answerOf, h, if_neg Bool.false_ne_true, OrderedMap.keys_mapValues]

/-- A table that is asked for nothing answers for its own columns. -/
theorem mem_output_of_mem_answerOf {parent : LineageMap} (h : parent.isEmpty = true)
    {output : List Attribute} {qualifier : List String} {key : Attribute}
    (hkey : key ∈ (parent.answerOf output qualifier).keys) : key ∈ output := by
  rw [LineageMap.answerOf, if_pos h, OrderedMap.mem_keys_ofList, List.map_map] at hkey
  simpa using hkey

/-! ## The ways to answer -/

/-- How one level of a query may answer a request, with the plans below traced by `below`. Each way
tells which identities the plan knows and what it does with a column that it does not know. -/
inductive QueryStep (settings : Settings) (below : Below) (plan : Plan) (request m : LineageMap) :
    Prop
  /-- The request is resolved against what the operator computes and handed to the child. -/
  | through (child : Plan) (computed inner : LineageMap) (hquery : child.isQuery = true)
      (hkeys : ∀ key ∈ computed.keys, key.id ∈ plan.columnIds)
      (hids : child.columnIds ⊆ plan.columnIds)
      (hback : ∀ a, plan.handedBack? settings a =
        a.uncounted?.bind (child.handedBack? settings))
      (hjoin : (request.join computed).result = .ok inner)
      (hm : (below child inner).result = .ok m)
  /-- The columns of window functions give way to what they refer to. -/
  | window (functions : List Alias) (child : Plan) (hquery : child.isQuery = true)
      (hkeys : ∀ key ∈ functions.map Alias.toAttribute, key.id ∈ plan.columnIds)
      (houtput : ∀ key ∈ child.output, key.id ∈ plan.columnIds)
      (hids : child.columnIds ⊆ plan.columnIds)
      (hback : ∀ a, plan.handedBack? settings a = child.handedBack? settings a)
      (hm : (below child (windowRequest functions child.output request)).result = .ok m)
  /-- The request is handed on as it is. -/
  | handOn (child : Plan) (hquery : child.isQuery = true)
      (hids : child.columnIds ⊆ plan.columnIds)
      (hback : ∀ a, plan.handedBack? settings a = child.handedBack? settings a)
      (hm : (below child request).result = .ok m)
  /-- The request is handed to both sides. -/
  | both (left right : Plan) (l r : LineageMap) (hleft : left.isQuery = true)
      (hright : right.isQuery = true) (hleftIds : left.columnIds ⊆ plan.columnIds)
      (hrightIds : right.columnIds ⊆ plan.columnIds)
      (hback : ∀ a, plan.handedBack? settings a =
        prefer (right.handedBack? settings a) (left.handedBack? settings a))
      (hl : (below left request).result = .ok l) (hr : (below right request).result = .ok r)
      (hm : m = l.merge r)
  /-- The request is resolved against the plan's own columns. -/
  | own (computed : LineageMap) (hkeys : ∀ key ∈ computed.keys, key.id ∈ plan.columnIds)
      (hback : ∀ a, plan.handedBack? settings a = a.uncounted?)
      (hjoin : (request.join computed).result = .ok m)
  /-- The request is resolved against the columns of all branches. -/
  | gathered (branches : List Plan) (answers : List LineageMap)
      (hqueries : ∀ branch ∈ branches, branch.isQuery = true)
      (hids : ∀ branch ∈ branches, branch.columnIds ⊆ plan.columnIds)
      (hback : ∀ a, plan.handedBack? settings a = a.uncounted?)
      (hanswers : List.Forall₂ (fun branch answer => (below branch ∅).result = .ok answer)
        branches answers)
      (hjoin : (request.join (.mergeAll answers)).result = .ok m)
  /-- The plan is read as a table. -/
  | table (output : List Attribute) (qualifier : List String)
      (hkeys : ∀ key ∈ output, key.id ∈ plan.columnIds)
      (hback : ∀ a, plan.handedBack? settings a = LineageMap.answer? [] qualifier a)
      (hm : (request.ofRelation output qualifier).result = .ok m)
  /-- The plan stands for one row. -/
  | oneRow
      (hback : ∀ a, plan.handedBack? settings a =
        some (if a.isSubqueryMarked then a.dropLastSegment else a))
      (hm : m = ofOneRow request)

variable {settings : Settings} {below : Below} {request m : LineageMap}

/-- A select list over a child, whether its rows are grouped or not. -/
theorem queryStep_of_select {plan child : Plan} {items : List SelectItem}
    (hquery : child.isQuery = true)
    (hids : plan.columnIds = items.map (·.toAttribute.id) ++ child.columnIds)
    (hback : ∀ a, plan.handedBack? settings a = a.uncounted?.bind (child.handedBack? settings))
    (hm : (step settings below (.project items child) request).result = .ok m) :
    QueryStep settings below plan request m := by
  obtain ⟨selected, inner, hselected, hjoin, hinner⟩ := step_project.1 hm
  refine .through child selected inner hquery ?_ ?_ hback hjoin hinner
  · intro key hkey
    obtain ⟨item, hitem, rfl⟩ := List.mem_map.1 ((mem_keys_ofSelectList hselected).1 hkey)
    rw [hids]
    exact List.mem_append_left _ (List.mem_map_of_mem (f := (·.toAttribute.id)) hitem)
  · rw [hids]
    exact List.subset_append_right _ _

/-- A query answers in one of the ways. -/
theorem queryStep_of_ok {plan : Plan} (hquery : plan.isQuery = true)
    (hm : (step settings below plan request).result = .ok m) :
    QueryStep settings below plan request m := by
  cases plan with
  | project items child =>
    rw [Plan.isQuery] at hquery
    exact queryStep_of_select hquery rfl (fun _ => rfl) hm
  | aggregate grouping items child =>
    rw [Plan.isQuery] at hquery
    rw [step_aggregate] at hm
    exact queryStep_of_select hquery rfl (fun _ => rfl) hm
  | window functions child partition order =>
    rw [step_window] at hm
    refine .window functions child hquery ?_ ?_ ?_ (fun _ => rfl) hm
    · intro key hkey
      obtain ⟨function, hfunction, rfl⟩ := List.mem_map.1 hkey
      exact List.mem_append_left _ (List.mem_map_of_mem (f := Alias.id) hfunction)
    · intro key hkey
      exact List.mem_append_right _ (List.mem_append_left _ (List.mem_map_of_mem hkey))
    · intro id hid
      exact List.mem_append_right _ (List.mem_append_right _ hid)
  | expand projections output child =>
    obtain ⟨inner, hjoin, hinner⟩ := step_expand.1 hm
    refine .through child _ inner hquery ?_ ?_ (fun _ => rfl) hjoin hinner
    · intro key hkey
      exact List.mem_append_left _
        (List.mem_map_of_mem (mem_output_of_mem_ofProjections hkey))
    · exact List.subset_append_right _ _
  | join left right type condition =>
    simp only [Plan.isQuery, Bool.and_eq_true] at hquery
    cases hexposes : type.exposesRight with
    | true =>
      obtain ⟨l, r, hl, hr, rfl⟩ := (step_join hexposes).1 hm
      refine .both left right l r hquery.1 hquery.2 ?_ ?_ ?_ hl hr rfl
      · rw [Plan.columnIds, if_pos hexposes]
        exact List.subset_append_left _ _
      · rw [Plan.columnIds, if_pos hexposes]
        exact List.subset_append_right _ _
      · intro a
        rw [Plan.handedBack?, if_pos hexposes]
    | false =>
      rw [step_semijoin hexposes] at hm
      refine .handOn left hquery.1 ?_ ?_ hm
      · rw [Plan.columnIds, hexposes, if_neg Bool.false_ne_true]
        exact List.Subset.refl _
      · intro a
        rw [Plan.handedBack?, hexposes, if_neg Bool.false_ne_true]
  | union branches output =>
    rw [Plan.isQuery, Plan.areQueries_iff] at hquery
    obtain ⟨answers, hanswers, hjoin⟩ := step_union.1 hm
    -- a union without columns of its own answers for all that its branches answer for
    by_cases houtput : output = []
    · subst houtput
      refine .gathered branches answers hquery ?_ (fun _ => rfl) hanswers hjoin
      intro branch hbranch id hid
      exact Plan.mem_columnIdsOfAll.2 ⟨branch, hbranch, hid⟩
    · refine .own _ ?_ (fun _ => rfl) hjoin
      intro key hkey
      rw [Plan.columnIds_union houtput]
      exact List.mem_map_of_mem (mem_output_of_mem_ofBranches houtput hkey)
  | relation output table =>
    rw [step_relation] at hm
    exact .table output _ (fun key hkey => List.mem_map_of_mem hkey) (fun _ => rfl) hm
  | localRelation output rows =>
    exact .table output _ (fun key hkey => List.mem_map_of_mem hkey) (fun _ => rfl) hm
  | oneRow => exact .oneRow (fun _ => rfl) (Except.ok.inj hm).symm
  | view name output body temporary =>
    cases hskip : (!temporary && settings.skipPersistedViews) with
    | true =>
      rw [step_view_skipped hskip] at hm
      refine .table output _ (fun key hkey => List.mem_map_of_mem hkey) (fun a => ?_) hm
      rw [Plan.handedBack?, if_pos hskip]
    | false =>
      obtain ⟨lineage, -, hplan⟩ := (step_view_opened hskip).1 hm
      refine .own _ (fun key hkey => ?_) (fun a => ?_) (result_ofRelationPlan.1 hplan).2
      · exact List.mem_map_of_mem (mem_output_of_mem_zip hkey)
      · rw [Plan.handedBack?, hskip, if_neg Bool.false_ne_true]
  | cached output physical table =>
    cases hlink : PhysicalNode.findLink [physical] with
    | none =>
      rw [step_cached_unlinked hlink] at hm
      refine .table output _ (fun key hkey => List.mem_map_of_mem hkey) (fun a => ?_) hm
      simp only [Plan.handedBack?, hlink]
    | some logical =>
      obtain ⟨lineage, -, hplan⟩ := (step_cached_linked hlink).1 hm
      refine .own _ (fun key hkey => ?_) (fun a => ?_) (result_ofRelationPlan.1 hplan).2
      · exact List.mem_map_of_mem (mem_output_of_mem_zip hkey)
      · simp only [Plan.handedBack?, hlink]
  | operator name children output =>
    obtain ⟨child, rfl, hchild⟩ := Plan.exists_child_of_isQuery hquery
    rw [step_operator] at hm
    refine .handOn child hchild ?_ (fun _ => rfl) hm
    intro id hid
    exact List.mem_append_right _ (Plan.mem_columnIdsOfAll.2 ⟨child, List.mem_cons_self, hid⟩)
  | _ => cases hquery

end Lineage

end ColumnTrace
