import ColumnTrace.Proofs.Lineage.KeyedAnswers

/-!
# Answers list columns of the plan

A query that is asked for all that it has answers with columns of its own output, in the order of
the output (`Lineage.keys_sublist_output`). Columns are missing where the output names one twice, as
an answer has one entry for a column, and where a request gets lost on the way down: an operator
without a rule of its own and without children, and a reference that is not written out, answer
whatever they are asked with nothing (`Lineage.keys_of_onlyQueries`). What an operator says of its
own columns has to be true of the plans that it asks for all they have (`Plan.listsColumns`).
-/

set_option autoImplicit false

namespace ColumnTrace

open Traced

namespace LineageMap

/-- Two maps together have the columns of the first, then those of the second. -/
theorem keys_merge_sublist (left right : LineageMap) :
    (left.merge right).keys.Sublist (left.keys ++ right.keys) := by
  rw [keys_merge]
  exact eraseDups_sublist _

/-- Answers that list columns of plans list columns of these plans one after the other. -/
theorem keys_mergeAll_sublist {plans : List Plan} {answers : List LineageMap}
    (h : List.Forall₂ (fun plan answer => answer.keys.Sublist plan.output) plans answers) :
    (mergeAll answers).keys.Sublist (plans.flatMap Plan.output) := by
  have hstart : ∀ start : LineageMap,
      (answers.foldl merge start).keys.Sublist (start.keys ++ plans.flatMap Plan.output) := by
    -- by induction on the answers that are still to be merged
    induction h with
    | nil => exact fun start => List.sublist_append_left start.keys []
    | @cons plan answer plans answers hanswer _ ih =>
      intro start
      have hmerged := (keys_merge_sublist start answer).trans (hanswer.append_left start.keys)
      have hrest := (ih (start.merge answer)).trans (hmerged.append_right _)
      rwa [List.append_assoc] at hrest
  exact hstart ∅

theorem eq_empty_of_keys_eq_nil {m : LineageMap} (h : m.keys = []) : m = ∅ :=
  OrderedMap.ext (List.map_eq_nil_iff.1 h)

end LineageMap

namespace Plan

/-- Wherever a request for columns is handed to, there is a query. -/
def OnlyQueries : Plan → Prop := Throughout handsTo (·.isQueryNode = true)

/-- A plan that asks below for all that there is has the columns of the plans that it asks, and any
other plan has a column to ask for. -/
def listsColumns : Plan → Bool
  | .project items _ => !items.isEmpty
  | .aggregate _ items _ => !items.isEmpty
  | .window functions child _ _ => !(child.output.isEmpty && functions.isEmpty)
  | .expand projections output _ => !(Lineage.ofProjections projections output).isEmpty
  | .union _ output => !output.isEmpty
  | .operator _ children output =>
    children.isEmpty || decide (output = children.flatMap Plan.output)
  | .withCte definitions body =>
    (Plan.withCte definitions body).handsTo.all fun inlined => decide (inlined.output = body.output)
  | _ => true

/-- The plans that are asked for all they have where the plan is. -/
def asksForAll : Plan → List Plan
  | .join left right type condition => (Plan.join left right type condition).handsTo
  | .operator _ children _ => children
  | .cteDefinition definition => [definition.child]
  | .withCte definitions body => (Plan.withCte definitions body).handsTo
  | _ => []

/-- Whatever is asked for all that it has lists columns. -/
def Listing : Plan → Prop := Throughout asksForAll (·.listsColumns = true)

/-- Only plans that are handed requests are asked for all. -/
theorem asksForAll_subset_handsTo (plan : Plan) : plan.asksForAll ⊆ plan.handsTo := by
  cases plan with
  | join | operator | cteDefinition | withCte => exact List.Subset.refl _
  | _ => exact List.nil_subset _

end Plan

namespace Lineage

variable {settings : Settings} {below : Below} {plan : Plan} {request m : LineageMap}

/-! ## Requests that may get lost -/

/-- Answers for these columns, or for none, are together answers for these columns or for none. -/
theorem holdsMerged_eq_or_nil (keys : List Attribute) :
    HoldsMerged fun found => found = keys ∨ found = [] := by
  have hmerge : ∀ left right : LineageMap, (left.keys = keys ∨ left.keys = []) →
      (right.keys = keys ∨ right.keys = []) →
      (left.merge right).keys = keys ∨ (left.merge right).keys = [] := by
    rintro left right hleft (hright | hright)
    · rcases hleft with hleft | hleft
      · left
        rw [LineageMap.keys_merge_of_keys_eq (hright.trans hleft.symm), hleft]
      · obtain rfl := LineageMap.eq_empty_of_keys_eq_nil hleft
        rw [LineageMap.merge_empty_left]
        exact Or.inl hright
    · obtain rfl := LineageMap.eq_empty_of_keys_eq_nil hright
      exact hleft
  intro answers hne hanswers
  clear hne
  have hstart : ∀ start : LineageMap, (start.keys = keys ∨ start.keys = []) →
      (answers.foldl LineageMap.merge start).keys = keys ∨
        (answers.foldl LineageMap.merge start).keys = [] := by
    induction answers with
    | nil => exact fun _ hstart => hstart
    | cons answer rest ih =>
      rw [List.forall_mem_cons] at hanswers
      intro start hstart
      exact ih hanswers.2 _ (hmerge start answer hstart hanswers.1)
  exact hstart ∅ (Or.inr rfl)

/-- By induction on the levels: a query answers a request with its columns, or not at all. -/
theorem keys_of_onlyQueries (n : Nat) : ∀ {plan : Plan} {request m : LineageMap},
    plan.OnlyQueries → request.isEmpty = false →
    (extractWithin settings n plan request).result = .ok m →
    m.keys = request.keys ∨ m.keys = [] := by
  induction n with
  | zero => intro plan request m _ _ hm; cases hm
  | succ n ih =>
    intro plan request m hplan hne hm
    refine holds_of_step (C := fun keys => keys = request.keys ∨ keys = [])
      (holdsMerged_eq_or_nil request.keys) (Or.inl rfl) (fun _ => Or.inr rfl) hplan.here hne ?_ hm
    intro child hchild inner answer hkeys hanswer
    have hinnerNe := (OrderedMap.isEmpty_eq_of_keys_eq hkeys).trans hne
    rw [← hkeys]
    exact ih (hplan.of_mem hchild) hinnerNe hanswer

/-! ## Plans that are asked for all they have -/

/-- The plans below answer for what they are asked for: for the columns of a request or not at all,
or else for columns of their own. -/
structure ListedBelow (below : Below) (plan : Plan) : Prop where
  asked : ∀ child ∈ plan.handsTo, ∀ {request answer : LineageMap}, request.isEmpty = false →
    (below child request).result = .ok answer → answer.keys = request.keys ∨ answer.keys = []
  all : ∀ child ∈ plan.asksForAll, ∀ {answer : LineageMap},
    (below child ∅).result = .ok answer → answer.keys.Sublist child.output

/-- A child that is asked for some of the plan's columns answers with some of these. -/
theorem ListedBelow.keys_of_passed (h : ListedBelow below plan) {child : Plan}
    (hchild : child ∈ plan.handsTo) (hne : request.keys ≠ [])
    (hkeys : request.keys.Sublist plan.output)
    (hm : (below child request).result = .ok m) : m.keys.Sublist plan.output := by
  have hasked : request.isEmpty = false := by
    rw [← OrderedMap.isEmpty_keys]
    exact List.isEmpty_eq_false_iff.2 hne
  rcases h.asked child hchild hasked hm with hsame | hnone
  · rwa [hsame]
  · rw [hnone]
    exact List.nil_sublist _

/-- A select list has none but its columns, in order. -/
theorem keys_ofSelectList_sublist {items : List SelectItem} {selected : LineageMap}
    (h : (ofSelectList below items).result = .ok selected) :
    selected.keys.Sublist (items.map SelectItem.toAttribute) := by
  obtain ⟨pairs, hpairs, rfl⟩ := ofSelectList_eq_ok.1 h
  rw [← map_fst_of_itemSources hpairs]
  exact OrderedMap.keys_ofList_sublist pairs

/-- Columns that are paired with values stay in order. -/
theorem keys_ofList_zip_sublist {ν : Type} (output : List Attribute) (values : List ν) :
    (OrderedMap.ofList (output.zip values)).keys.Sublist output :=
  (OrderedMap.keys_ofList_sublist _).trans (sublist_map_fst_zip output values)

/-- The keys of a map that is made of a list stay in order. -/
theorem keys_ofList_map_sublist {α ν : Type} (key : α → Attribute) (value : α → ν) (xs : List α) :
    (OrderedMap.ofList (xs.map fun x => (key x, value x))).keys.Sublist (xs.map key) := by
  have hkeys := OrderedMap.keys_ofList_sublist (xs.map fun x => (key x, value x))
  rwa [List.map_map] at hkeys

/-- An expansion has none but its columns, in order. -/
theorem keys_ofProjections_sublist (projections : List (List Expr)) (output : List Attribute) :
    (ofProjections projections output).keys.Sublist output := by
  have hkeys := keys_ofList_map_sublist Prod.fst
    (fun pair => AttributeSet.ofList (pair.2.flatMap fun e => e.references.attrs))
    (output.zip (columnsOf projections))
  exact hkeys.trans (sublist_map_fst_zip output (columnsOf projections))

/-- A window asks for none but the columns of its input and its own, in order. -/
theorem keys_windowRequest_sublist (functions : List Alias) (input : List Attribute) :
    (windowRequest functions input ∅).keys.Sublist
      (input ++ functions.map Alias.toAttribute) := by
  have hinput : (LineageMap.identity input).keys.Sublist input := by
    have hkeys := keys_ofList_map_sublist (fun a => a) AttributeSet.singleton input
    rwa [List.map_id'] at hkeys
  have hfunctions : ((ofWindowFunctions functions).entries.map Prod.fst).Sublist
      (functions.map Alias.toAttribute) :=
    keys_ofList_map_sublist Alias.toAttribute (fun a => a.child.references) functions
  rw [windowRequest, if_pos OrderedMap.isEmpty_empty]
  exact (OrderedMap.keys_insertAll_sublist _ _).trans (hinput.append hfunctions)

/-- A table that is asked for nothing answers for none but its columns, in order. -/
theorem keys_answerOf_sublist (output : List Attribute) (qualifier : List String) :
    (LineageMap.answerOf ∅ output qualifier).keys.Sublist output := by
  have hkeys := keys_ofList_map_sublist (fun a => a)
    (fun a => AttributeSet.singleton (a.withQualifier qualifier)) output
  rw [List.map_id'] at hkeys
  rwa [LineageMap.answerOf, if_pos OrderedMap.isEmpty_empty]

/-- A union with columns answers with those for which all its branches have an entry. -/
theorem keys_ofBranches_sublist {output : List Attribute} (houtput : output ≠ [])
    (answers : List LineageMap) : (ofBranches output answers).keys.Sublist output := by
  match output, answers, houtput with
  | _ :: _, [], _ => exact List.nil_sublist _
  | a :: rest, first :: others, _ => exact keys_ofList_zip_sublist (a :: rest) _

/-- A table answers an empty request for none but its columns, in order. -/
theorem keys_of_ofRelation_sublist {output : List Attribute} {qualifier : List String}
    (hm : (LineageMap.ofRelation ∅ output qualifier).result = .ok m) : m.keys.Sublist output := by
  rw [eq_answerOf_of_ofRelation hm]
  exact keys_answerOf_sublist output qualifier

/-- An opened view or result answers an empty request for none but its columns, in order. -/
theorem keys_of_ofRelationPlan_sublist {output : List Attribute} {lineage : LineageMap}
    (hm : (LineageMap.ofRelationPlan ∅ output lineage).result = .ok m) :
    m.keys.Sublist output := by
  obtain ⟨-, hjoin⟩ := result_ofRelationPlan.1 hm
  rw [eq_of_join_empty hjoin]
  exact keys_ofList_zip_sublist output lineage.values

/-- A select list that is not empty asks for its columns. -/
theorem ListedBelow.keys_of_project {items : List SelectItem} {child : Plan}
    (h : ListedBelow below plan) (hchild : child ∈ plan.handsTo)
    (houtput : plan.output = items.map SelectItem.toAttribute) (hitems : items.isEmpty = false)
    (hm : (step settings below (.project items child) ∅).result = .ok m) :
    m.keys.Sublist plan.output := by
  obtain ⟨selected, inner, hselected, hjoin, hm⟩ := step_project.1 hm
  obtain rfl := eq_of_join_empty hjoin
  refine h.keys_of_passed hchild ?_ (houtput ▸ keys_ofSelectList_sublist hselected) hm
  obtain ⟨item, hitem⟩ := List.exists_mem_of_ne_nil items (List.isEmpty_eq_false_iff.1 hitems)
  exact List.ne_nil_of_mem ((mem_keys_ofSelectList hselected).2 (List.mem_map_of_mem hitem))

/-- Children answer an empty request for none but their columns, in order. -/
theorem ListedBelow.keys_of_ofChildren {children : List Plan} (h : ListedBelow below plan)
    (hchildren : children ⊆ plan.asksForAll)
    (hm : (ofChildren below children ∅).result = .ok m) :
    m.keys.Sublist (children.flatMap Plan.output) := by
  obtain ⟨answers, hanswers, hmerged⟩ := result_bind_eq_ok.1 hm
  obtain rfl := Except.ok.inj hmerged
  rw [result_mapM_eq_ok] at hanswers
  apply LineageMap.keys_mergeAll_sublist
  clear hm hmerged
  induction hanswers with
  | nil => exact .nil
  | @cons child answer children answers hanswer _ ih =>
    rw [List.cons_subset] at hchildren
    exact .cons (h.all child hchildren.1 hanswer) (ih hchildren.2)

/-- One level that is asked for all that it has answers with columns of its own, in their order. -/
theorem ListedBelow.keys_of_step (h : ListedBelow below plan) (hquery : plan.isQueryNode = true)
    (hplan : plan.listsColumns = true)
    (hm : (step settings below plan ∅).result = .ok m) : m.keys.Sublist plan.output := by
  cases plan with
  | project items child =>
    exact h.keys_of_project List.mem_cons_self rfl (Bool.not_eq_true' _ ▸ hplan) hm
  | aggregate grouping items child =>
    rw [step_aggregate] at hm
    exact h.keys_of_project List.mem_cons_self rfl (Bool.not_eq_true' _ ▸ hplan) hm
  | window functions child partition order =>
    rw [step_window] at hm
    refine h.keys_of_passed List.mem_cons_self ?_ (keys_windowRequest_sublist functions _) hm
    -- the child is asked for all only if neither it nor the functions have a column
    intro hnone
    have hkey : ∀ key, key ∉ child.output ∧ key ∉ functions.map Alias.toAttribute := by
      intro key
      rw [← not_or, ← mem_keys_windowRequest_of_isEmpty OrderedMap.isEmpty_empty, hnone]
      exact List.not_mem_nil
    have hchild := List.eq_nil_iff_forall_not_mem.2 fun key => (hkey key).1
    have hfunctions := List.eq_nil_iff_forall_not_mem.2 fun key => (hkey key).2
    rw [List.map_eq_nil_iff] at hfunctions
    rw [Plan.listsColumns, hchild, hfunctions] at hplan
    cases hplan
  | expand projections output child =>
    obtain ⟨inner, hjoin, hm⟩ := step_expand.1 hm
    obtain rfl := eq_of_join_empty hjoin
    refine h.keys_of_passed List.mem_cons_self ?_ (keys_ofProjections_sublist projections _) hm
    intro hnone
    rw [Plan.output] at hnone
    rw [Plan.listsColumns, ← OrderedMap.isEmpty_keys, hnone] at hplan
    cases hplan
  | join left right type condition =>
    have hall := h.all
    rw [Plan.asksForAll, Plan.handsTo] at hall
    rw [Plan.output]
    cases hexposes : type.exposesRight with
    | true =>
      rw [if_pos hexposes] at hall
      rw [if_pos rfl]
      obtain ⟨l, r, hl, hr, rfl⟩ := (step_join hexposes).1 hm
      refine (LineageMap.keys_merge_sublist l r).trans (.append ?_ ?_)
      · exact hall left List.mem_cons_self hl
      · exact hall right (List.mem_cons_of_mem _ List.mem_cons_self) hr
    | false =>
      rw [hexposes, if_neg Bool.false_ne_true] at hall
      rw [if_neg Bool.false_ne_true]
      rw [step_semijoin hexposes] at hm
      exact hall left List.mem_cons_self hm
  | union branches output =>
    obtain ⟨answers, -, hjoin⟩ := step_union.1 hm
    rw [eq_of_join_empty hjoin]
    refine keys_ofBranches_sublist ?_ answers
    rintro rfl
    cases hplan
  | relation output table =>
    rw [step_relation] at hm
    exact keys_of_ofRelation_sublist hm
  | localRelation output rows => exact keys_of_ofRelation_sublist hm
  | oneRow =>
    obtain rfl := Except.ok.inj hm
    exact List.nil_sublist _
  | view name output body temporary =>
    rcases step_view_cases hm with hm | ⟨lineage, -, hm⟩
    · exact keys_of_ofRelation_sublist hm
    · exact keys_of_ofRelationPlan_sublist hm
  | cached output physical table =>
    rcases step_cached_cases hm with hm | ⟨logical, lineage, -, hm⟩
    · exact keys_of_ofRelation_sublist hm
    · exact keys_of_ofRelationPlan_sublist hm
  | withCte definitions body =>
    rw [step, stepAt] at hm
    obtain ⟨inlined, hinline, hm⟩ := result_bind_eq_ok.1 hm
    have hmem : inlined ∈ (Plan.withCte definitions body).handsTo := by
      rw [Plan.handsTo, hinline]
      exact List.mem_cons_self
    have houtput := of_decide_eq_true (List.all_eq_true.1 hplan inlined hmem)
    exact houtput ▸ h.all inlined hmem hm
  | cteReference id output =>
    obtain rfl := Except.ok.inj hm
    exact List.nil_sublist _
  | cteDefinition definition =>
    obtain ⟨id, child⟩ := definition
    rw [step, stepAt, result_note_bind, result_ofChildren_singleton] at hm
    exact h.all child List.mem_cons_self hm
  | operator name children output =>
    cases children with
    | nil =>
      obtain rfl := Except.ok.inj hm
      exact List.nil_sublist _
    | cons child rest =>
      rw [step, stepAt, List.isEmpty_cons, if_neg Bool.false_ne_true, result_note_bind] at hm
      have houtput : output = (child :: rest).flatMap Plan.output := of_decide_eq_true hplan
      rw [Plan.output, houtput]
      exact h.keys_of_ofChildren (List.Subset.refl _) hm
  | _ => cases hquery

/-- By induction on the levels: a query that is asked for all that it has answers with columns of
its own, in their order. -/
theorem keys_sublist_output (n : Nat) : ∀ {plan : Plan} {m : LineageMap},
    plan.OnlyQueries → plan.Listing → (extractWithin settings n plan ∅).result = .ok m →
    m.keys.Sublist plan.output := by
  induction n with
  | zero => intro plan m _ _ hm; cases hm
  | succ n ih =>
    intro plan m hqueries hlisting hm
    have hbelow : ListedBelow (extractWithin settings n) plan :=
      { asked := fun child hchild _ _ hne hanswer =>
          keys_of_onlyQueries n (hqueries.of_mem hchild) hne hanswer
        all := fun child hchild _ hanswer =>
          ih (hqueries.of_mem (plan.asksForAll_subset_handsTo hchild)) (hlisting.of_mem hchild)
            hanswer }
    exact hbelow.keys_of_step hqueries.here hlisting.here hm

end Lineage

end ColumnTrace
