import ColumnTrace.Proofs.Outcomes
import ColumnTrace.Proofs.Plans.Parts

/-!
# Writing out a plan part by part

Apart from `WITH` clauses and references, writing out a plan writes out the parts that it visits
(`Plan.visited`) one after the other, and puts what comes of them in their places
(`Plan.inline_eq`). The outline stays, and so do the parts that are not visited. The sides of a
merge are visited, but not exchanged.
-/

set_option autoImplicit false

namespace ColumnTrace

/-- What comes of writing out a plan, and the plan itself where that fails. -/
def Plan.written (scope : CteScope) (plan : Plan) : Plan :=
  match (plan.inline scope).result with
  | .ok inlined => inlined
  | .error _ => plan

section
variable {scope : CteScope}

/-- A plan that is written out is what comes of writing it out. -/
theorem Plan.written_eq {plan inlined : Plan} (h : (plan.inline scope).result = .ok inlined) :
    plan.written scope = inlined := by
  rw [Plan.written, h]

/-- A property that the plan has, and all that it can be written out to, is one of what comes of
writing it out. -/
theorem Plan.written_of_ends {P : Plan → Prop} {E : ExtractionError → Prop} {plan : Plan}
    (h : (plan.inline scope).Ends P E) (hself : P plan) : P (plan.written scope) := by
  rw [Plan.written]
  split
  · next hinline => exact h.of_ok hinline
  · exact hself

/-- Plans that are written out are what comes of writing them out. -/
theorem Plan.map_written_eq {plans inlined : List Plan}
    (h : (plans.mapM (Plan.inline scope)).result = .ok inlined) :
    plans.map (Plan.written scope) = inlined := by
  rw [← List.forall₂_eq_eq_eq, List.forall₂_map_left_iff]
  exact (Traced.result_mapM_eq_ok.1 h).imp fun _ _ => written_eq

end

section
variable (scope : CteScope)

mutual

/-- Writing out an expression writes out its subqueries one after the other. -/
theorem Expr.inline_eq : ∀ e : Expr, e.inline scope =
    e.subqueries.mapM (Plan.inline scope) >>= fun _ => pure (e.mapSubqueries (Plan.written scope))
  | .column _ => rfl
  | .literal _ => rfl
  | .call name args => by
    simp only [Expr.inline, Expr.inlineAll_eq args, bind_assoc, pure_bind]
    rfl
  | .count args distinct => by
    simp only [Expr.inline, Expr.inlineAll_eq args, bind_assoc, pure_bind]
    rfl
  | .subquery plan => by
    simp only [Expr.inline, Expr.subqueries, List.mapM_cons, List.mapM_nil, bind_assoc, pure_bind]
    refine Traced.bind_congr_of_ok fun inlined hinlined => ?_
    rw [Expr.mapSubqueries, Plan.written_eq hinlined]
  | .windowed function partition order => by
    simp only [Expr.inline, function.inline_eq, Expr.inlineAll_eq partition,
      Expr.inlineAll_eq order, Expr.subqueries, List.mapM_append, bind_assoc, pure_bind]
    rfl
  | .aliased (.mk child name id) => by
    simp only [Expr.inline, child.inline_eq, bind_assoc, pure_bind]
    rfl

/-- Writing out expressions writes out their subqueries one after the other. -/
theorem Expr.inlineAll_eq : ∀ es : List Expr, Expr.inlineAll scope es =
    (Expr.subqueriesOfAll es).mapM (Plan.inline scope) >>= fun _ =>
      pure (Expr.mapSubqueriesOfAll (Plan.written scope) es)
  | [] => rfl
  | e :: rest => by
    simp only [Expr.inlineAll, e.inline_eq, Expr.inlineAll_eq rest, Expr.subqueriesOfAll,
      List.mapM_append, bind_assoc, pure_bind]
    rfl

end

/-- Writing out a select list writes out its subqueries one after the other. -/
theorem SelectItem.inlineAll_eq (items : List SelectItem) : SelectItem.inlineAll scope items =
    (Expr.subqueriesOfAll (items.map SelectItem.toExpr)).mapM (Plan.inline scope) >>= fun _ =>
      pure (items.map (SelectItem.mapSubqueries (Plan.written scope))) := by
  induction items with
  | nil => rfl
  | cons item rest ih =>
    rcases item with a | ⟨child, name, id⟩
    · simp only [SelectItem.inlineAll, ih, bind_assoc, pure_bind]
      rfl
    · simp only [SelectItem.inlineAll, child.inline_eq, ih, List.map_cons, SelectItem.toExpr,
        Expr.subqueriesOfAll, Expr.subqueries, List.mapM_append, bind_assoc, pure_bind]
      rfl

/-- Plans are written out one after the other. -/
theorem Plan.inlineAll_eq (plans : List Plan) :
    Plan.inlineAll scope plans = plans.mapM (Plan.inline scope) := by
  induction plans with
  | nil => rfl
  | cons plan rest ih => rw [Plan.inlineAll, List.mapM_cons, ih]

end

namespace Plan

open Traced

/-- The plan is a `WITH` clause or a reference: what it means is told by the queries in scope. -/
def isScoping : Plan → Bool
  | .withCte .. => true
  | .cteReference .. => true
  | _ => false

/-- The parts that are looked at to write out a plan: those that are entered, and the sides of a
merge, though what is written out there is not used. -/
def visited : Plan → List Plan
  | .merge target source _ _ => [target, source]
  | plan => plan.entered

/-- A part that is exchanged is visited. -/
theorem entered_subset_visited (plan : Plan) : plan.entered ⊆ plan.visited := by
  cases plan with
  | merge => exact List.nil_subset _
  | _ => exact List.Subset.refl _

/-- A part that is visited is a part. -/
theorem visited_subset_parts (plan : Plan) : plan.visited ⊆ plan.parts := by
  cases plan with
  | merge => exact fun part hpart => mem_parts.2 (Or.inr (Or.inl hpart))
  | _ => exact fun part hpart => mem_parts.2 (Or.inl hpart)

/-- Writing out a plan writes out the parts that it visits, one after the other. -/
theorem inline_eq (scope : CteScope) {plan : Plan} (h : plan.isScoping = false) :
    plan.inline scope = plan.visited.mapM (Plan.inline scope) >>= fun _ =>
      pure (plan.mapParts (Plan.written scope) id id) := by
  cases plan with
  | withCte definitions body => cases h
  | cteReference number output => cases h
  | project items child =>
    simp only [inline, SelectItem.inlineAll_eq, visited, entered, List.mapM_cons, bind_assoc,
      pure_bind]
    refine bind_congr_of_ok fun inlined hinlined => ?_
    rw [mapParts, written_eq hinlined]
  | aggregate grouping items child =>
    simp only [inline, SelectItem.inlineAll_eq, visited, entered, List.mapM_cons, bind_assoc,
      pure_bind]
    refine bind_congr_of_ok fun inlined hinlined => ?_
    rw [mapParts, written_eq hinlined, Expr.mapSubqueries_id_fun, List.map_id_fun, id]
  | join left right type condition =>
    simp only [inline, visited, entered, List.mapM_cons, List.mapM_nil, bind_assoc, pure_bind]
    refine bind_congr_of_ok fun l hl => bind_congr_of_ok fun r hr => ?_
    rw [mapParts, written_eq hl, written_eq hr, Expr.mapSubqueries_id_fun, Option.map_id_fun, id]
  | union branches output =>
    rw [inline, inlineAll_eq]
    refine bind_congr_of_ok fun inlined hinlined => ?_
    rw [mapParts, map_written_eq hinlined]
  | operator name children output =>
    rw [inline, inlineAll_eq]
    refine bind_congr_of_ok fun inlined hinlined => ?_
    rw [mapParts, map_written_eq hinlined]
  -- the target and the source are visited, but what they are written out to is not kept
  | merge target source matched notMatched =>
    simp only [inline, visited, List.mapM_cons, List.mapM_nil, bind_assoc, pure_bind]
    rw [mapParts, MergeAction.mapSubqueries_id_fun, List.map_id_fun]
    rfl
  | cteDefinition definition =>
    obtain ⟨number, child⟩ := definition
    simp only [inline, visited, entered, List.mapM_cons, List.mapM_nil, bind_assoc, pure_bind]
    refine bind_congr_of_ok fun inlined hinlined => ?_
    rw [mapParts, CteDefinition.map, CteDefinition.child, written_eq hinlined]
    rfl
  | window | expand | view | createTable | insertTable | insertDirectory =>
    simp only [inline, visited, entered, List.mapM_cons, List.mapM_nil, bind_assoc, pure_bind]
    refine bind_congr_of_ok fun inlined hinlined => ?_
    simp only [mapParts, written_eq hinlined, mapSubqueries_id_alias, Expr.mapSubqueries_id_fun,
      List.map_id_fun, id]
  | relation | localRelation | oneRow | cached | commandResult | alterView | createView
  | saveSource =>
    simp only [inline, mapParts, PhysicalNode.mapLinks_id, id]
    rfl

end Plan

/-- Definitions come into scope one after the other, each query written out in the scope so far. -/
theorem CteDefinition.ends_extend {P : CteScope → Prop} {E : ExtractionError → Prop}
    {definitions : List CteDefinition}
    (h : ∀ definition ∈ definitions, ∀ scope, P scope →
      (definition.child.inline scope).Ends (fun body => P ((definition.id, body) :: scope)) E) :
    ∀ {scope : CteScope}, P scope → (CteDefinition.extend scope definitions).Ends P E := by
  induction definitions with
  | nil => exact fun hscope => Traced.ends_pure hscope
  | cons definition rest ih =>
    obtain ⟨id, child⟩ := definition
    intro scope hscope
    refine (h _ List.mem_cons_self scope hscope).bind fun body hbody => ?_
    exact ih (fun d hd => h d (List.mem_cons_of_mem _ hd)) hbody

end ColumnTrace
