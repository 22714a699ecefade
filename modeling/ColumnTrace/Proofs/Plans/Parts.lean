import ColumnTrace.Proofs.Expressions
import ColumnTrace.Proofs.Plans.Outline

/-!
# The parts of a plan

Every plan in a plan is smaller than the plan around it, so a property of all plans can be proved
from the parts up (`Plan.induction_on_parts`). `Throughout` says of a plan and of all plans in it,
however deep, that they have a property; `Plan.Corresponds` says of two plans that they have one
outline and that a relation pairs their parts. The columns of a plan depend on its outline and on
the columns of its parts (`Plan.Corresponds.output_eq`).
-/

set_option autoImplicit false

namespace ColumnTrace

/-! ## A property of a node and of everything below it -/

universe u

/-- The property holds of a node and of everything below it, however deep. -/
inductive Throughout {α : Type u} (below : α → List α) (P : α → Prop) : α → Prop
  | mk {a : α} (here : P a) (rest : ∀ b ∈ below a, Throughout below P b) : Throughout below P a

namespace Throughout

variable {α : Type u} {below : α → List α} {P Q : α → Prop} {a b : α}

/-- What holds throughout holds of the node. -/
theorem here (h : Throughout below P a) : P a := by
  cases h with
  | mk here _ => exact here

/-- What holds throughout holds throughout what is below. -/
theorem of_mem (h : Throughout below P a) (hb : b ∈ below a) : Throughout below P b := by
  cases h with
  | mk _ rest => exact rest b hb

/-- Less may be said throughout. -/
theorem imp (hPQ : ∀ a, P a → Q a) (h : Throughout below P a) : Throughout below Q a := by
  induction h with
  | mk here _ ih => exact .mk (hPQ _ here) ih

end Throughout

/-- The property holds of a node and of everything below it, and this ends within so many levels. -/
def ThroughoutWithin {α : Type u} (below : α → List α) (P : α → Bool) : Nat → α → Bool
  | 0, _ => false
  | levels + 1, a => P a && (below a).all (ThroughoutWithin below P levels)

/-- What holds within levels that are enough holds throughout. -/
theorem throughout_of_within {α : Type u} {below : α → List α} {P : α → Bool} (levels : Nat) :
    ∀ {a : α}, ThroughoutWithin below P levels a = true → Throughout below (P · = true) a := by
  induction levels with
  | zero => exact fun h => absurd h Bool.false_ne_true
  | succ levels ih =>
    intro a h
    rw [ThroughoutWithin, Bool.and_eq_true, List.all_eq_true] at h
    exact .mk h.1 fun b hb => ih (h.2 b hb)

/-! ## Sizes -/

mutual

/-- A subquery is smaller than its expression. -/
theorem Expr.sizeOf_lt_of_mem_subqueries {query : Plan} :
    ∀ e : Expr, query ∈ e.subqueries → sizeOf query < sizeOf e
  | .column _, h => absurd h List.not_mem_nil
  | .literal _, h => absurd h List.not_mem_nil
  | .call _ args, h => by
    have := Expr.sizeOf_lt_of_mem_subqueriesOfAll args h
    simp only [Expr.call.sizeOf_spec]
    omega
  | .count args _, h => by
    have := Expr.sizeOf_lt_of_mem_subqueriesOfAll args h
    simp only [Expr.count.sizeOf_spec]
    omega
  | .subquery plan, h => by
    obtain rfl := List.mem_singleton.1 h
    simp only [Expr.subquery.sizeOf_spec]
    omega
  | .windowed function partition order, h => by
    simp only [Expr.subqueries, List.mem_append] at h
    simp only [Expr.windowed.sizeOf_spec]
    rcases h with h | h | h
    · have := function.sizeOf_lt_of_mem_subqueries h
      omega
    · have := Expr.sizeOf_lt_of_mem_subqueriesOfAll partition h
      omega
    · have := Expr.sizeOf_lt_of_mem_subqueriesOfAll order h
      omega
  | .aliased (.mk child _ _), h => by
    have := child.sizeOf_lt_of_mem_subqueries h
    simp only [Expr.aliased.sizeOf_spec, Alias.mk.sizeOf_spec]
    omega

/-- A subquery is smaller than the expressions that it stands in. -/
theorem Expr.sizeOf_lt_of_mem_subqueriesOfAll {query : Plan} :
    ∀ es : List Expr, query ∈ Expr.subqueriesOfAll es → sizeOf query < sizeOf es
  | [], h => absurd h List.not_mem_nil
  | e :: rest, h => by
    simp only [List.cons.sizeOf_spec]
    rcases List.mem_append.1 h with h | h
    · have := e.sizeOf_lt_of_mem_subqueries h
      omega
    · have := Expr.sizeOf_lt_of_mem_subqueriesOfAll rest h
      omega

end

/-- A subquery is smaller than the select list that it stands in. -/
theorem SelectItem.sizeOf_lt_of_mem_subqueries {query : Plan} {items : List SelectItem}
    (h : query ∈ Expr.subqueriesOfAll (items.map SelectItem.toExpr)) :
    sizeOf query < sizeOf items := by
  obtain ⟨e, he, hquery⟩ := Expr.mem_subqueriesOfAll.1 h
  obtain ⟨item, hitem, rfl⟩ := List.mem_map.1 he
  have hlist := List.sizeOf_lt_of_mem hitem
  have hexpr := item.toExpr.sizeOf_lt_of_mem_subqueries hquery
  cases item with
  | column a => exact absurd hquery List.not_mem_nil
  | aliased definition =>
    simp only [SelectItem.toExpr, Expr.aliased.sizeOf_spec] at hexpr
    simp only [SelectItem.aliased.sizeOf_spec] at hlist
    omega

/-- A named expression is larger than its expression. -/
theorem Alias.sizeOf_child_lt (a : Alias) : sizeOf a.child < sizeOf a := by
  obtain ⟨child, name, id⟩ := a
  simp only [Alias.child, Alias.mk.sizeOf_spec]
  omega

/-- A named query is smaller than its definition. -/
theorem CteDefinition.sizeOf_child_lt (definition : CteDefinition) :
    sizeOf definition.child < sizeOf definition := by
  obtain ⟨id, child⟩ := definition
  simp only [CteDefinition.child, CteDefinition.mk.sizeOf_spec]
  omega

/-- What is there is smaller than its being there. -/
theorem Option.sizeOf_lt_of_mem_toList {α : Type} [SizeOf α] {a : α} {o : Option α}
    (h : a ∈ o.toList) : sizeOf a < sizeOf o := by
  obtain rfl := Option.mem_toList.1 h
  simp

/-- The value of an assignment is smaller than the assignment. -/
theorem Assignment.sizeOf_value_lt (a : Assignment) : sizeOf a.value < sizeOf a := by
  obtain ⟨key, value⟩ := a
  simp only [Assignment.value, Assignment.mk.sizeOf_spec]
  omega

/-- An expression of an action is smaller than the action. -/
theorem MergeAction.sizeOf_lt_of_mem_exprs {e : Expr} {action : MergeAction}
    (h : e ∈ action.exprs) : sizeOf e < sizeOf action := by
  have hassigned : ∀ {assignments : List Assignment},
      e ∈ assignments.map Assignment.value → sizeOf e < sizeOf assignments := by
    intro assignments hmem
    obtain ⟨a, ha, rfl⟩ := List.mem_map.1 hmem
    exact Nat.lt_trans a.sizeOf_value_lt (List.sizeOf_lt_of_mem ha)
  cases action with
  | update assignments condition =>
    simp only [MergeAction.update.sizeOf_spec]
    rcases List.mem_append.1 h with h | h
    · have := hassigned h
      omega
    · have := Option.sizeOf_lt_of_mem_toList h
      omega
  | insert assignments condition =>
    simp only [MergeAction.insert.sizeOf_spec]
    rcases List.mem_append.1 h with h | h
    · have := hassigned h
      omega
    · have := Option.sizeOf_lt_of_mem_toList h
      omega
  | delete condition =>
    have := Option.sizeOf_lt_of_mem_toList h
    simp only [MergeAction.delete.sizeOf_spec]
    omega

mutual

/-- A plan that a physical node remembers is smaller than the node. -/
theorem PhysicalNode.sizeOf_lt_of_mem_linkLevels {plan : Plan} :
    ∀ node : PhysicalNode, plan ∈ node.linkLevels.flatten → sizeOf plan < sizeOf node
  | .mk name children link, h => by
    simp only [PhysicalNode.mk.sizeOf_spec]
    rcases List.mem_append.1 h with h | h
    · have := Option.sizeOf_lt_of_mem_toList h
      omega
    · have := PhysicalNode.sizeOf_lt_of_mem_linkLevelsOfAll children h
      omega

/-- A plan that physical nodes remember is smaller than the nodes. -/
theorem PhysicalNode.sizeOf_lt_of_mem_linkLevelsOfAll {plan : Plan} : ∀ nodes : List PhysicalNode,
    plan ∈ (PhysicalNode.linkLevelsOfAll nodes).flatten → sizeOf plan < sizeOf nodes
  | [], h => absurd h List.not_mem_nil
  | node :: rest, h => by
    simp only [List.cons.sizeOf_spec]
    rcases mem_flatten_overlay.1 h with h | h
    · have := node.sizeOf_lt_of_mem_linkLevels h
      omega
    · have := PhysicalNode.sizeOf_lt_of_mem_linkLevelsOfAll rest h
      omega

end

namespace Plan

variable {plan part : Plan}

/-- A part that is entered is smaller than the plan. -/
theorem sizeOf_lt_of_mem_entered (h : part ∈ plan.entered) : sizeOf part < sizeOf plan := by
  cases plan with
  | project items child =>
    simp only [Plan.project.sizeOf_spec]
    rcases List.mem_cons.1 h with rfl | h
    · omega
    · have := SelectItem.sizeOf_lt_of_mem_subqueries h
      omega
  | aggregate grouping items child =>
    simp only [Plan.aggregate.sizeOf_spec]
    rcases List.mem_cons.1 h with rfl | h
    · omega
    · have := SelectItem.sizeOf_lt_of_mem_subqueries h
      omega
  | join left right type condition =>
    simp only [Plan.join.sizeOf_spec]
    rcases List.mem_cons.1 h with rfl | h
    · omega
    · obtain rfl := List.mem_singleton.1 h
      omega
  | union branches output =>
    have : sizeOf part < sizeOf branches := List.sizeOf_lt_of_mem h
    simp only [Plan.union.sizeOf_spec]
    omega
  | operator name children output =>
    have : sizeOf part < sizeOf children := List.sizeOf_lt_of_mem h
    simp only [Plan.operator.sizeOf_spec]
    omega
  | cteDefinition definition =>
    obtain rfl := List.mem_singleton.1 h
    have := definition.sizeOf_child_lt
    simp only [Plan.cteDefinition.sizeOf_spec]
    omega
  | window | expand | view | createTable | insertTable | insertDirectory =>
    obtain rfl := List.mem_singleton.1 h
    simp +arith
  | _ => exact absurd h List.not_mem_nil

/-- A part that is bypassed is smaller than the plan. -/
theorem sizeOf_lt_of_mem_bypassed (h : part ∈ plan.bypassed) : sizeOf part < sizeOf plan := by
  cases plan with
  | aggregate grouping items child =>
    have := Expr.sizeOf_lt_of_mem_subqueriesOfAll grouping h
    simp only [Plan.aggregate.sizeOf_spec]
    omega
  | window functions child partition order =>
    simp only [Plan.window.sizeOf_spec]
    obtain ⟨e, he, hquery⟩ := Expr.mem_subqueriesOfAll.1 h
    have hsize := e.sizeOf_lt_of_mem_subqueries hquery
    rcases List.mem_append.1 he with he | he
    · obtain ⟨a, ha, rfl⟩ := List.mem_map.1 he
      have := a.sizeOf_child_lt
      have := List.sizeOf_lt_of_mem ha
      omega
    · rcases List.mem_append.1 he with he | he
      · have := List.sizeOf_lt_of_mem he
        omega
      · have := List.sizeOf_lt_of_mem he
        omega
  | merge target source matched notMatched =>
    simp only [Plan.merge.sizeOf_spec]
    rcases List.mem_cons.1 h with rfl | h
    · omega
    · obtain rfl := List.mem_singleton.1 h
      omega
  | commandResult | alterView | createView | saveSource =>
    obtain rfl := List.mem_singleton.1 h
    simp +arith
  | _ => exact absurd h List.not_mem_nil

/-- A subquery that writing out leaves alone is smaller than the plan. -/
theorem sizeOf_lt_of_mem_aside (h : part ∈ plan.aside) : sizeOf part < sizeOf plan := by
  cases plan with
  | expand projections output child =>
    obtain ⟨e, he, hquery⟩ := Expr.mem_subqueriesOfAll.1 h
    obtain ⟨projection, hprojection, he⟩ := List.mem_flatten.1 he
    have := e.sizeOf_lt_of_mem_subqueries hquery
    have := List.sizeOf_lt_of_mem he
    have := List.sizeOf_lt_of_mem hprojection
    simp only [Plan.expand.sizeOf_spec]
    omega
  | join left right type condition =>
    obtain ⟨e, he, hquery⟩ := Expr.mem_subqueriesOfAll.1 h
    have := e.sizeOf_lt_of_mem_subqueries hquery
    have := Option.sizeOf_lt_of_mem_toList he
    simp only [Plan.join.sizeOf_spec]
    omega
  | merge target source matched notMatched =>
    obtain ⟨e, he, hquery⟩ := Expr.mem_subqueriesOfAll.1 h
    obtain ⟨action, haction, he⟩ := List.mem_flatMap.1 he
    have := e.sizeOf_lt_of_mem_subqueries hquery
    have := MergeAction.sizeOf_lt_of_mem_exprs he
    simp only [Plan.merge.sizeOf_spec]
    rcases List.mem_append.1 haction with haction | haction
    · have := List.sizeOf_lt_of_mem haction
      omega
    · have := List.sizeOf_lt_of_mem haction
      omega
  | _ => exact absurd h List.not_mem_nil

/-- A plan that a stored result remembers is smaller than the result. -/
theorem sizeOf_lt_of_mem_stored (h : part ∈ plan.stored) : sizeOf part < sizeOf plan := by
  cases plan with
  | cached output physical table =>
    have := physical.sizeOf_lt_of_mem_linkLevels h
    simp only [Plan.cached.sizeOf_spec]
    omega
  | _ => exact absurd h List.not_mem_nil

/-- A query of a clause is smaller than the plan. -/
theorem sizeOf_lt_of_mem_clause (h : part ∈ plan.clause) : sizeOf part < sizeOf plan := by
  cases plan with
  | withCte definitions body =>
    simp only [Plan.withCte.sizeOf_spec]
    rcases List.mem_append.1 h with h | h
    · obtain ⟨definition, hdefinition, rfl⟩ := List.mem_map.1 h
      have := definition.sizeOf_child_lt
      have := List.sizeOf_lt_of_mem hdefinition
      omega
    · obtain rfl := List.mem_singleton.1 h
      omega
  | _ => exact absurd h List.not_mem_nil

/-- The parts of a plan are of these five sorts. -/
theorem mem_parts : part ∈ plan.parts ↔ part ∈ plan.entered ∨ part ∈ plan.bypassed ∨
    part ∈ plan.aside ∨ part ∈ plan.stored ∨ part ∈ plan.clause := by
  simp only [parts, List.mem_append]

theorem mem_parts_of_clause (h : part ∈ plan.clause) : part ∈ plan.parts :=
  mem_parts.2 (Or.inr (Or.inr (Or.inr (Or.inr h))))

/-- A query that a clause names is a part. -/
theorem definition_mem_parts {definitions : List CteDefinition} {body : Plan}
    {definition : CteDefinition} (h : definition ∈ definitions) :
    definition.child ∈ (Plan.withCte definitions body).parts :=
  mem_parts_of_clause (List.mem_append_left [body] (List.mem_map_of_mem h))

/-- The plan under a clause is a part. -/
theorem body_mem_parts {definitions : List CteDefinition} {body : Plan} :
    body ∈ (Plan.withCte definitions body).parts :=
  mem_parts_of_clause (List.mem_append_right _ (List.mem_singleton_self body))

/-- A part is smaller than the plan. -/
theorem sizeOf_lt_of_mem_parts (h : part ∈ plan.parts) : sizeOf part < sizeOf plan := by
  rcases mem_parts.1 h with h | h | h | h | h
  · exact sizeOf_lt_of_mem_entered h
  · exact sizeOf_lt_of_mem_bypassed h
  · exact sizeOf_lt_of_mem_aside h
  · exact sizeOf_lt_of_mem_stored h
  · exact sizeOf_lt_of_mem_clause h

/-- A property that a plan has where all its parts have it is one of all plans. -/
theorem induction_on_parts {P : Plan → Prop}
    (h : ∀ plan : Plan, (∀ part ∈ plan.parts, P part) → P plan) (plan : Plan) : P plan :=
  h plan fun part hpart =>
    have := sizeOf_lt_of_mem_parts hpart
    induction_on_parts h part
termination_by sizeOf plan

/-! ## Plans with one outline -/

/-- The plans have one outline, and a relation pairs their parts one by one. -/
structure Corresponds (R : Plan → Plan → Prop) (p q : Plan) : Prop where
  outline : p.outline = q.outline
  entered : List.Forall₂ R p.entered q.entered
  bypassed : List.Forall₂ R p.bypassed q.bypassed
  aside : List.Forall₂ R p.aside q.aside
  stored : List.Forall₂ R p.stored q.stored
  clause : List.Forall₂ R p.clause q.clause

section
variable {R S : Plan → Plan → Prop} {p q : Plan}

/-- The parts of plans that correspond are paired. -/
theorem Corresponds.parts (h : Corresponds R p q) : List.Forall₂ R p.parts q.parts :=
  List.rel_append h.entered (List.rel_append h.bypassed
    (List.rel_append h.aside (List.rel_append h.stored h.clause)))

/-- Plans correspond if they have one outline, and each pair of parts is related. -/
theorem corresponds_iff : Corresponds R p q ↔
    p.outline = q.outline ∧ ∀ pair ∈ p.parts.zip q.parts, R pair.1 pair.2 := by
  constructor
  · exact fun h => ⟨h.outline, fun pair hpair => List.forall₂_zip h.parts hpair⟩
  · rintro ⟨houtline, hparts⟩
    have hentered := congrArg (fun plan => plan.entered.length) houtline
    have hbypassed := congrArg (fun plan => plan.bypassed.length) houtline
    have haside := congrArg (fun plan => plan.aside.length) houtline
    have hstored := congrArg (fun plan => plan.stored.length) houtline
    have hclause := congrArg (fun plan => plan.clause.length) houtline
    simp only [outline, entered_mapParts, bypassed_mapParts, aside_mapParts, stored_mapParts,
      clause_mapParts, List.length_map] at hentered hbypassed haside hstored hclause
    simp only [parts, List.zip_append hentered, List.zip_append hbypassed,
      List.zip_append haside, List.zip_append hstored, List.mem_append] at hparts
    refine ⟨houtline, ?_, ?_, ?_, ?_, ?_⟩
    · exact List.forall₂_iff_zip.2 ⟨hentered, fun h => hparts _ (Or.inl h)⟩
    · exact List.forall₂_iff_zip.2 ⟨hbypassed, fun h => hparts _ (Or.inr (Or.inl h))⟩
    · exact List.forall₂_iff_zip.2 ⟨haside, fun h => hparts _ (Or.inr (Or.inr (Or.inl h)))⟩
    · exact List.forall₂_iff_zip.2
        ⟨hstored, fun h => hparts _ (Or.inr (Or.inr (Or.inr (Or.inl h))))⟩
    · exact List.forall₂_iff_zip.2
        ⟨hclause, fun h => hparts _ (Or.inr (Or.inr (Or.inr (Or.inr h))))⟩

/-- The parts may be related by less. -/
theorem Corresponds.imp (hRS : ∀ p q, R p q → S p q) (h : Corresponds R p q) :
    Corresponds S p q :=
  ⟨h.outline, h.entered.imp hRS, h.bypassed.imp hRS, h.aside.imp hRS, h.stored.imp hRS,
    h.clause.imp hRS⟩

/-- A relation that pairs every part of a plan with itself pairs the plan with itself. -/
theorem corresponds_self (h : ∀ part ∈ p.parts, R part part) : Corresponds R p p := by
  simp only [mem_parts] at h
  refine ⟨rfl, ?_, ?_, ?_, ?_, ?_⟩
  · exact List.forall₂_same.2 fun part hpart => h part (Or.inl hpart)
  · exact List.forall₂_same.2 fun part hpart => h part (Or.inr (Or.inl hpart))
  · exact List.forall₂_same.2 fun part hpart => h part (Or.inr (Or.inr (Or.inl hpart)))
  · exact List.forall₂_same.2 fun part hpart =>
      h part (Or.inr (Or.inr (Or.inr (Or.inl hpart))))
  · exact List.forall₂_same.2 fun part hpart =>
      h part (Or.inr (Or.inr (Or.inr (Or.inr hpart))))

end

/-! ## Columns -/

/-- The columns of a plan with this outline, whose parts have these columns. -/
def outputOver (below : List (List Attribute)) : Plan → List Attribute
  | .window functions _ _ _ => below.flatten ++ functions.map Alias.toAttribute
  | .join _ _ type _ => if type.exposesRight then below.flatten else below.headD []
  | .cteDefinition _ => below.flatten
  | .withCte _ _ => below.reverse.headD []
  | plan => plan.output

/-- Other subqueries leave the columns of a select list as they are. -/
theorem map_toAttribute_mapSubqueries (f : Plan → Plan) (items : List SelectItem) :
    (items.map (SelectItem.mapSubqueries f)).map SelectItem.toAttribute =
      items.map SelectItem.toAttribute := by
  rw [List.map_map]
  exact List.map_congr_left fun item _ => by cases item <;> rfl

/-- The columns of a plan are read off its outline and the columns of its parts. -/
theorem output_eq_outputOver (plan : Plan) :
    plan.output = plan.outline.outputOver ((plan.entered ++ plan.clause).map output) := by
  cases plan with
  | project items child => exact (map_toAttribute_mapSubqueries _ items).symm
  | aggregate grouping items child => exact (map_toAttribute_mapSubqueries _ items).symm
  | window functions child partition order =>
    have hfunctions : (functions.map (Alias.mapSubqueries fun _ => .oneRow)).map Alias.toAttribute =
        functions.map Alias.toAttribute := by
      rw [List.map_map]
      rfl
    simp only [outline, mapParts, outputOver, entered, clause, output, List.append_nil,
      List.map_cons, List.map_nil, List.flatten_cons, List.flatten_nil, hfunctions]
  | join left right type condition =>
    simp only [outline, mapParts, outputOver, entered, clause, output, List.append_nil,
      List.map_cons, List.map_nil, List.flatten_cons, List.flatten_nil, List.headD_cons]
  | cteDefinition definition =>
    obtain ⟨number, child⟩ := definition
    simp only [outline, mapParts, outputOver, entered, clause, output, List.append_nil,
      List.map_cons, List.map_nil, List.flatten_cons, List.flatten_nil, CteDefinition.child]
  | withCte definitions body =>
    simp only [outline, mapParts, outputOver, entered, clause, output, List.nil_append,
      List.map_append, List.map_cons, List.map_nil, List.reverse_concat, List.headD_cons]
  | _ => rfl

/-- Parts with related columns make plans of one outline with related columns. -/
theorem forall₂_outputOver {R : Attribute → Attribute → Prop} (hrefl : ∀ a, R a a)
    {xs ys : List (List Attribute)} (h : List.Forall₂ (List.Forall₂ R) xs ys) (plan : Plan) :
    List.Forall₂ R (plan.outputOver xs) (plan.outputOver ys) := by
  have hself : ∀ columns : List Attribute, List.Forall₂ R columns columns := fun columns =>
    List.forall₂_same.2 fun a _ => hrefl a
  have hhead : ∀ {xs ys : List (List Attribute)}, List.Forall₂ (List.Forall₂ R) xs ys →
      List.Forall₂ R (xs.headD []) (ys.headD []) := by
    intro xs ys h
    cases h with
    | nil => exact .nil
    | cons hfirst _ => exact hfirst
  cases plan with
  | window functions child partition order =>
    exact List.rel_append (List.rel_flatten h) (hself _)
  | join left right type condition =>
    simp only [outputOver]
    split
    · exact List.rel_flatten h
    · exact hhead h
  | cteDefinition definition => exact List.rel_flatten h
  | withCte definitions body =>
    simp only [outputOver]
    exact hhead (List.forall₂_reverse_iff.2 h)
  | _ => exact hself _

/-- Plans with one outline have alike columns where their parts do. -/
theorem forall₂_output {R : Attribute → Attribute → Prop} (hrefl : ∀ a, R a a) {p q : Plan}
    (houtline : p.outline = q.outline)
    (hentered : List.Forall₂ (fun p q => List.Forall₂ R p.output q.output) p.entered q.entered)
    (hclause : List.Forall₂ (fun p q => List.Forall₂ R p.output q.output) p.clause q.clause) :
    List.Forall₂ R p.output q.output := by
  have hbelow : List.Forall₂ (List.Forall₂ R) ((p.entered ++ p.clause).map output)
      ((q.entered ++ q.clause).map output) := by
    rw [List.forall₂_map_left_iff, List.forall₂_map_right_iff]
    exact List.rel_append hentered hclause
  rw [p.output_eq_outputOver, q.output_eq_outputOver, houtline]
  exact forall₂_outputOver hrefl hbelow _

/-- Plans whose parts have the same columns have the same columns. -/
theorem Corresponds.output_eq {p q : Plan}
    (h : Corresponds (fun p q => p.output = q.output) p q) : p.output = q.output := by
  have heq : ∀ p q : Plan, p.output = q.output → List.Forall₂ Eq p.output q.output := fun p q h =>
    List.forall₂_eq_eq_eq ▸ h
  rw [← List.forall₂_eq_eq_eq]
  exact forall₂_output (fun _ => rfl) h.outline (h.entered.imp heq) (h.clause.imp heq)

end Plan

end ColumnTrace
