import ColumnTrace.Proofs.Inlining.References
import ColumnTrace.Proofs.Lineage.TracedPlans
import ColumnTrace.Proofs.Lineage.UnknownColumns

/-!
# Answers have the columns of the request

A request for columns goes down a plan and comes back with these columns, in this order, whatever
the operators on the way make of it: each either resolves it and hands it on, hands it on as it is
and merges what comes back, or answers it itself (`Plan.handsTo`, `Lineage.keys_of_step`). What
loses the columns is an operator without a rule of its own and without children, a reference that is
not written out, and a command. Where none of these is handed the request, the answer has the
columns of the request (`Lineage.keys_of_answering`). Named queries are handed it where they are
referred to, so the plan is looked at in the scope of its `WITH` clauses
(`Plan.answering_of_within`).
-/

set_option autoImplicit false

namespace ColumnTrace

namespace Plan

/-- The plan is part of a query, not a command. -/
def isQueryNode : Plan → Bool
  | .commandResult .. => false
  | .alterView .. => false
  | .createView .. => false
  | .createTable .. => false
  | .insertTable .. => false
  | .insertDirectory .. => false
  | .saveSource .. => false
  | .merge .. => false
  | _ => true

/-- The plan is an operator without a rule of its own that has no children. -/
def isOpaqueLeaf : Plan → Bool
  | .operator _ [] _ => true
  | _ => false

/-- The plan answers a request with the columns of the request, if the plans that it hands it on to
do. -/
def isAnswering (plan : Plan) : Bool :=
  plan.isQueryNode && !plan.isOpaqueLeaf && !plan.isReference

/-- The plans that a request for columns is handed on to. A union, a view and a stored result
resolve it themselves: the plans behind them are asked for all that they have. -/
def handsTo : Plan → List Plan
  | .project _ child => [child]
  | .aggregate _ _ child => [child]
  | .window _ child _ _ => [child]
  | .expand _ _ child => [child]
  | .join left right type _ => if type.exposesRight then [left, right] else [left]
  | .operator _ children _ => children
  | .cteDefinition definition => [definition.child]
  | .withCte definitions body =>
    match ((Plan.withCte definitions body).inline []).result with
    | .ok inlined => [inlined]
    | .error _ => []
  | _ => []

/-- What a request is handed to is traced. -/
theorem handsTo_subset_tracedBelow {settings : Settings} {plan : Plan} :
    plan.handsTo ⊆ plan.tracedBelow settings := by
  cases plan with
  | project items child => exact List.cons_subset_cons child (List.nil_subset _)
  | aggregate grouping items child => exact List.cons_subset_cons child (List.nil_subset _)
  | window | expand | join | operator | cteDefinition | withCte => exact List.Subset.refl _
  | _ => exact List.nil_subset _

/-- Wherever a request for columns is handed to, it is answered with its columns. -/
def Answering : Plan → Prop := Throughout handsTo (·.isAnswering = true)

end Plan

namespace Lineage

open Traced

variable {settings : Settings} {below : Below} {plan : Plan} {request m : LineageMap}

/-! ## The columns of an answer -/

/-- What holds of the columns of answers holds of the columns of all of them together. -/
def HoldsMerged (C : List Attribute → Prop) : Prop :=
  ∀ answers : List LineageMap, answers ≠ [] → (∀ answer ∈ answers, C answer.keys) →
    C (LineageMap.mergeAll answers).keys

theorem holdsMerged_eq (keys : List Attribute) : HoldsMerged (· = keys) :=
  fun _ => LineageMap.keys_mergeAll

/-- What holds of the columns of each child's answer holds of the columns of all together. -/
theorem holds_of_ofChildren {C : List Attribute → Prop} (hmerged : HoldsMerged C)
    {children : List Plan} (hne : children ≠ [])
    (hbelow : ∀ child ∈ children, ∀ {answer : LineageMap},
      (below child request).result = .ok answer → C answer.keys)
    (hm : (ofChildren below children request).result = .ok m) : C m.keys := by
  obtain ⟨answers, hanswers, hm⟩ := result_bind_eq_ok.1 hm
  obtain rfl := Except.ok.inj hm
  have hanswers := result_mapM_eq_ok.1 hanswers
  refine hmerged answers ?_ fun answer hanswer => ?_
  · rintro rfl
    cases hanswers
    exact hne rfl
  · obtain ⟨child, hchild, hanswer⟩ := exists_left_of_forall₂ hanswers hanswer
    exact hbelow child hchild hanswer

/-- What holds of the columns of a request, and of what comes back from the plans that a request
with these columns is handed to, holds of the columns of the answer. A plan that loses the request
answers with no columns. -/
theorem holds_of_step {C : List Attribute → Prop} (hmerged : HoldsMerged C)
    (hasked : C request.keys) (hlost : plan.isAnswering = false → C [])
    (hplan : plan.isQueryNode = true) (hne : request.isEmpty = false)
    (hbelow : ∀ child ∈ plan.handsTo, ∀ {inner answer : LineageMap}, inner.keys = request.keys →
      (below child inner).result = .ok answer → C answer.keys)
    (hm : (step settings below plan request).result = .ok m) : C m.keys := by
  have hlist : ∀ {items : List SelectItem} {child : Plan}, child ∈ plan.handsTo →
      (step settings below (.project items child) request).result = .ok m → C m.keys := by
    intro items child hchild hm
    obtain ⟨selected, inner, -, hjoin, hm⟩ := step_project.1 hm
    exact hbelow child hchild (keys_of_join hne hjoin) hm
  have hown : m.keys = request.keys → C m.keys := fun hkeys => hkeys ▸ hasked
  have htable : ∀ {output : List Attribute} {qualifier : List String},
      (request.ofRelation output qualifier).result = .ok m → C m.keys := by
    intro output qualifier hm
    apply hown
    rw [eq_answerOf_of_ofRelation hm, keys_answerOf hne]
  cases plan with
  | project items child => exact hlist List.mem_cons_self hm
  | aggregate grouping items child => exact hlist List.mem_cons_self hm
  | window functions child partition order =>
    rw [step_window] at hm
    exact hbelow child List.mem_cons_self (keys_windowRequest hne) hm
  | expand projections output child =>
    obtain ⟨inner, hjoin, hm⟩ := step_expand.1 hm
    exact hbelow child List.mem_cons_self (keys_of_join hne hjoin) hm
  | join left right type condition =>
    rw [Plan.handsTo] at hbelow
    cases hexposes : type.exposesRight with
    | true =>
      rw [if_pos hexposes] at hbelow
      rw [step, stepAt, if_pos hexposes] at hm
      refine holds_of_ofChildren hmerged (List.cons_ne_nil _ _) (fun child hchild => ?_) hm
      exact hbelow child hchild rfl
    | false =>
      rw [hexposes, if_neg Bool.false_ne_true] at hbelow
      rw [step_semijoin hexposes] at hm
      exact hbelow left List.mem_cons_self rfl hm
  | union branches output =>
    obtain ⟨answers, -, hjoin⟩ := step_union.1 hm
    exact hown (keys_of_join hne hjoin)
  | relation output table =>
    rw [step_relation] at hm
    exact htable hm
  | localRelation output rows => exact htable hm
  | oneRow =>
    obtain rfl := Except.ok.inj hm
    apply hown
    rw [ofOneRow, OrderedMap.keys_mapValues]
  | view name output body temporary =>
    rcases step_view_cases hm with hm | ⟨lineage, -, hm⟩
    · exact htable hm
    · exact hown (keys_of_join hne (result_ofRelationPlan.1 hm).2)
  | cached output physical table =>
    rcases step_cached_cases hm with hm | ⟨logical, lineage, -, hm⟩
    · exact htable hm
    · exact hown (keys_of_join hne (result_ofRelationPlan.1 hm).2)
  | withCte definitions body =>
    rw [step, stepAt] at hm
    obtain ⟨inlined, hinline, hm⟩ := result_bind_eq_ok.1 hm
    refine hbelow inlined ?_ rfl hm
    rw [Plan.handsTo, hinline]
    exact List.mem_cons_self
  | cteReference id output =>
    obtain rfl := Except.ok.inj hm
    -- nothing below is asked: the request is lost here
    exact hlost rfl
  | cteDefinition definition =>
    rw [step, stepAt, result_note_bind, result_ofChildren_singleton] at hm
    exact hbelow _ List.mem_cons_self rfl hm
  | operator name children output =>
    cases children with
    | nil =>
      obtain rfl := Except.ok.inj hm
      exact hlost rfl
    | cons child rest =>
      rw [step, stepAt, List.isEmpty_cons, if_neg Bool.false_ne_true, result_note_bind] at hm
      exact holds_of_ofChildren hmerged (List.cons_ne_nil _ _) (fun _ hmem => hbelow _ hmem rfl) hm
  | _ => cases hplan

/-- One level answers with the columns of the request, where the plans that it hands a request with
these columns on to do. -/
theorem keys_of_step (hplan : plan.isAnswering = true) (hne : request.isEmpty = false)
    (hbelow : ∀ child ∈ plan.handsTo, ∀ {inner answer : LineageMap}, inner.keys = request.keys →
      (below child inner).result = .ok answer → answer.keys = request.keys)
    (hm : (step settings below plan request).result = .ok m) : m.keys = request.keys := by
  refine holds_of_step (C := (· = request.keys)) (holdsMerged_eq request.keys) rfl ?_ ?_ hne
    hbelow hm
  · intro hlost
    rw [hplan] at hlost
    cases hlost
  · simp only [Plan.isAnswering, Bool.and_eq_true] at hplan
    exact hplan.1.1

/-- By induction on the levels: an answer has the columns of the request, in its order. -/
theorem keys_of_answering (n : Nat) : ∀ {plan : Plan} {request m : LineageMap},
    plan.Answering → request.isEmpty = false →
    (extractWithin settings n plan request).result = .ok m → m.keys = request.keys := by
  induction n with
  | zero => intro plan request m _ _ hm; cases hm
  | succ n ih =>
    intro plan request m hplan hne hm
    refine keys_of_step hplan.here hne (fun child hchild inner answer hkeys hanswer => ?_) hm
    have hinnerNe := (OrderedMap.isEmpty_eq_of_keys_eq hkeys).trans hne
    rw [ih (hplan.of_mem hchild) hinnerNe hanswer, hkeys]

end Lineage

/-! ## Plans in the scope of named queries -/

namespace ScopedPlan

/-- The plan answers a request with the columns of the request where it stands: a reference does
where its number means a query in scope. -/
def isAnswering (s : ScopedPlan) : Bool :=
  s.plan.isQueryNode && !s.plan.isOpaqueLeaf && s.isNamed

/-- The property holds of the queries in scope and of whatever stands in them, each in the scope
that it was written in. -/
def HoldsInScope (P : ScopedPlan → Prop) : List CteDefinition → Prop
  | [] => True
  | definition :: earlier =>
    Throughout within P ⟨earlier, definition.child⟩ ∧ HoldsInScope P earlier

section
variable {P : ScopedPlan → Prop}

/-- What holds in a scope holds of the query that a number means there. -/
theorem HoldsInScope.namedQuery {id : Int} {query : ScopedPlan} :
    ∀ {scope : List CteDefinition}, HoldsInScope P scope → namedQuery? scope id = some query →
      Throughout within P query ∧ HoldsInScope P query.scope
  | [], _, h => by cases h
  | definition :: earlier, hscope, h => by
    rw [namedQuery?] at h
    split at h
    · obtain rfl := Option.some.inj h
      exact hscope
    · exact hscope.2.namedQuery h

/-- What holds in a clause holds of the plan under it and in the scope of that plan. -/
theorem holdsInScope_of_clause {body : Plan} {definitions : List CteDefinition} :
    ∀ {scope : List CteDefinition}, HoldsInScope P scope →
    (∀ s ∈ ofClause scope definitions body, Throughout within P s) →
    Throughout within P ⟨underClause scope definitions, body⟩ ∧
      HoldsInScope P (underClause scope definitions) := by
  induction definitions with
  | nil => exact fun hscope h => ⟨h _ (List.mem_singleton_self _), hscope⟩
  | cons definition rest ih =>
    intro scope hscope h
    rw [underClause_cons]
    exact ih ⟨h _ List.mem_cons_self, hscope⟩ fun s hs => h s (List.mem_cons_of_mem _ hs)

end

end ScopedPlan

namespace Plan

/-- A request is handed to parts that are entered. -/
theorem handsTo_subset_entered {plan : Plan} (h : plan.isScoping = false) :
    plan.handsTo ⊆ plan.entered := by
  cases plan with
  | withCte | cteReference => cases h
  | project items child => exact List.cons_subset_cons child (List.nil_subset _)
  | aggregate grouping items child => exact List.cons_subset_cons child (List.nil_subset _)
  | join left right type condition =>
    rw [handsTo]
    split
    · exact List.Subset.refl _
    · exact List.cons_subset_cons left (List.nil_subset _)
  | window | expand | operator | cteDefinition => exact List.Subset.refl _
  | _ => exact List.nil_subset _

/-- Where parts are exchanged, a request is handed to what they are exchanged for. -/
theorem handsTo_mapParts {plan : Plan} (h : plan.isScoping = false) (f : Plan → Plan) :
    (plan.mapParts f id id).handsTo = plan.handsTo.map f := by
  cases plan with
  | withCte | cteReference => cases h
  | join left right type condition =>
    simp only [mapParts, handsTo]
    split <;> rfl
  | cteDefinition definition =>
    cases definition
    rfl
  | _ => rfl

/-- Whether a plan answers does not depend on the plans that it enters. -/
theorem isAnswering_mapParts {plan : Plan} (h : plan.isScoping = false) (f : Plan → Plan) :
    (plan.mapParts f id id).isAnswering = plan.isAnswering := by
  cases plan with
  | withCte | cteReference => cases h
  | operator name children output => cases children <;> rfl
  | _ => rfl

/-- A plan that answers in its scope answers on its own, unless it is a reference. -/
theorem isAnswering_of_scoped {plan : Plan} {scope : List CteDefinition}
    (h : ScopedPlan.isAnswering ⟨scope, plan⟩ = true) (href : plan.isReference = false) :
    plan.isAnswering = true := by
  simp only [ScopedPlan.isAnswering, Bool.and_eq_true] at h
  rw [isAnswering, h.1.1, h.1.2, href]
  rfl

end Plan

namespace ScopedPlan

/-- What is written out answers requests where the plan and the queries in its scope do. -/
theorem Inlines.answering {s : ScopedPlan} {inlined : Plan} (h : Inlines s inlined) :
    Throughout within (·.isAnswering = true) s → HoldsInScope (·.isAnswering = true) s.scope →
    inlined.Answering := by
  induction h with
  | clause _ ih =>
    intro hplan hscope
    obtain ⟨hbody, hunder⟩ := holdsInScope_of_clause hscope fun s hs => hplan.of_mem hs
    exact ih hbody hunder
  | named hquery _ _ ih =>
    intro _ hscope
    obtain ⟨hbody, hearlier⟩ := hscope.namedQuery hquery
    exact .mk rfl fun child hchild => List.mem_singleton.1 hchild ▸ ih hbody hearlier
  | @unnamed scope id output hquery =>
    intro hplan _
    have hnamed : (namedQuery? scope id).isSome = true := hplan.here
    rw [hquery] at hnamed
    cases hnamed
  | @parts scope plan f hplain _ ih =>
    intro hplan hscope
    refine .mk ?_ ?_
    · rw [Plan.isAnswering_mapParts hplain]
      exact Plan.isAnswering_of_scoped hplan.here (Plan.isReference_of_not_scoping hplain)
    · rw [Plan.handsTo_mapParts hplain, List.forall_mem_map]
      intro part hpart
      have hentered := Plan.handsTo_subset_entered hplain hpart
      refine ih part hentered (hplan.of_mem ?_) hscope
      rw [within_eq_map hplain]
      exact List.mem_map_of_mem ((Plan.mem_places hplain).2 (Or.inl hentered))

end ScopedPlan

/-- A query without operators that lose a request and without references to nothing in scope answers
requests with their columns. -/
theorem Plan.answering_of_within (plan : Plan) :
    Throughout ScopedPlan.within (·.isAnswering = true) ⟨[], plan⟩ → plan.Answering := by
  induction plan using Plan.induction_on_parts with
  | h plan ih =>
    intro hplan
    cases hscoping : plan.isScoping with
    | false =>
      refine .mk (isAnswering_of_scoped hplan.here (isReference_of_not_scoping hscoping)) ?_
      intro child hchild
      have hentered := handsTo_subset_entered hscoping hchild
      refine ih child (mem_parts.2 (Or.inl hentered)) (hplan.of_mem ?_)
      rw [ScopedPlan.within_eq_map hscoping]
      exact List.mem_map_of_mem ((mem_places hscoping).2 (Or.inl hentered))
    | true =>
      cases plan with
      | withCte definitions body =>
        refine .mk rfl ?_
        rw [handsTo]
        split
        · next inlined hinline =>
          intro child hchild
          obtain rfl := List.mem_singleton.1 hchild
          exact (ScopedPlan.inlines_of_inline _ .nil hinline).answering hplan trivial
        · exact fun child hchild => absurd hchild List.not_mem_nil
      | cteReference id output => exact absurd hplan.here Bool.false_ne_true
      | _ => cases hscoping

end ColumnTrace
