import ColumnTrace.Proofs.Inlining.Scopes

/-!
# References resolved where they stand

`ScopedPlan.Resolves` tells which plan a plan stands for where it stands: every reference, in
whatever part, gives way to the projection of what its query stands for in the scope that the query
was written in. There is one such plan (`ScopedPlan.exists_resolves`, `ScopedPlan.Resolves.unique`).

What is written out has the columns of the plan, and it is the plan that this one stands for if and
only if the parts that are passed by on the way stand for themselves: no clause and no reference to
a query in scope stands in them (`inline_resolves_iff`).
-/

set_option autoImplicit false

namespace ColumnTrace

/-- The parts that writing out leaves as they are. -/
def Plan.passedBy (plan : Plan) : List Plan := plan.bypassed ++ plan.aside

/-- The parts of an operator that stand in its own scope. A stored result brings its plans along,
and a clause has its own scope for each. -/
def Plan.ownParts (plan : Plan) : List Plan := plan.entered ++ plan.passedBy

/-- The parts that are resolved in place are parts of the plan. -/
theorem Plan.ownParts_subset_parts (plan : Plan) : plan.ownParts ⊆ plan.parts := by
  intro part hpart
  simp only [ownParts, passedBy, List.mem_append] at hpart
  simp only [mem_parts]
  tauto

namespace ScopedPlan

/-- The plan that a plan stands for. -/
inductive Resolves : ScopedPlan → Plan → Prop
  /-- A clause stands for the plan under it. -/
  | clause {scope definitions : List CteDefinition} {body resolved : Plan}
    (hbody : Resolves ⟨underClause scope definitions, body⟩ resolved) :
    Resolves ⟨scope, .withCte definitions body⟩ resolved
  /-- A reference stands for what its query stands for, with the columns of the query under those
  of the reference. -/
  | named {scope : List CteDefinition} {id : Int} {output : List Attribute} {query : ScopedPlan}
    {body : Plan} (hquery : namedQuery? scope id = some query) (hbody : Resolves query body) :
    Resolves ⟨scope, .cteReference id output⟩
      (.project ((query.plan.output.zip output).map fun pair =>
        .aliased (.mk (.column pair.1) pair.2.name pair.2.id)) body)
  /-- A reference to nothing in scope stands for itself. -/
  | unnamed {scope : List CteDefinition} {id : Int} {output : List Attribute}
    (hquery : namedQuery? scope id = none) :
    Resolves ⟨scope, .cteReference id output⟩ (.cteReference id output)
  /-- Any other plan stands for itself over what its parts stand for. -/
  | parts {scope : List CteDefinition} {plan : Plan} {f g : Plan → Plan}
    (hplan : plan.isScoping = false)
    (hentered : ∀ part ∈ plan.entered, Resolves ⟨scope, part⟩ (f part))
    (hpassed : ∀ part ∈ plan.passedBy, Resolves ⟨scope, part⟩ (g part)) :
    Resolves ⟨scope, plan⟩ (plan.mapParts f g id)

/-- The clause is resolved if and only if the plan under it is. -/
theorem resolves_clause_iff {scope definitions : List CteDefinition} {body resolved : Plan} :
    Resolves ⟨scope, .withCte definitions body⟩ resolved ↔
      Resolves ⟨underClause scope definitions, body⟩ resolved := by
  constructor
  · intro h
    cases h with
    | clause hbody => exact hbody
    | parts hplan _ _ => cases hplan
  · exact .clause

/-- A plan stands for the plan with its parts exchanged for what they stand for. -/
theorem Resolves.of_parts {scope : List CteDefinition} {plan resolved : Plan}
    (h : Resolves ⟨scope, plan⟩ resolved) (hplan : plan.isScoping = false) :
    ∃ f g, resolved = plan.mapParts f g id ∧
      (∀ part ∈ plan.entered, Resolves ⟨scope, part⟩ (f part)) ∧
      ∀ part ∈ plan.passedBy, Resolves ⟨scope, part⟩ (g part) := by
  cases h with
  | clause _ | named _ _ | unnamed _ => cases hplan
  | parts _ hentered hpassed => exact ⟨_, _, rfl, hentered, hpassed⟩

/-- A plan stands for one plan only. -/
theorem Resolves.unique {s : ScopedPlan} {p q : Plan} (hp : Resolves s p) (hq : Resolves s q) :
    p = q := by
  induction hp generalizing q with
  | clause _ ih => exact ih (resolves_clause_iff.1 hq)
  | named hquery _ ih =>
    cases hq with
    | named hquery' hbody' =>
      obtain rfl := Option.some.inj (hquery.symm.trans hquery')
      rw [ih hbody']
    | unnamed hnone => cases hquery.symm.trans hnone
    | parts hplan _ _ => cases hplan
  | unnamed hnone =>
    cases hq with
    | named hquery _ => cases hquery.symm.trans hnone
    | unnamed _ => rfl
    | parts hplan _ _ => cases hplan
  | parts hplan _ _ ihEntered ihPassed =>
    obtain ⟨f', g', rfl, hentered', hpassed'⟩ := hq.of_parts hplan
    have hpassed : ∀ part ∈ Plan.passedBy _, _ = _ := fun part hpart =>
      ihPassed part hpart (hpassed' part hpart)
    exact Plan.mapParts_congr id (fun part hpart => ihEntered part hpart (hentered' part hpart))
      (fun part hpart => hpassed part (List.mem_append_left _ hpart))
      (fun part hpart => hpassed part (List.mem_append_right _ hpart))

/-- Every query that a number means in the scope stands for a plan. -/
def StandsFor (scope : List CteDefinition) : Prop :=
  ∀ id query, namedQuery? scope id = some query → ∃ resolved, Resolves query resolved

/-- One more query that stands for a plan may come into scope. -/
theorem StandsFor.cons {scope : List CteDefinition} {definition : CteDefinition} {resolved : Plan}
    (h : StandsFor scope) (hquery : Resolves ⟨scope, definition.child⟩ resolved) :
    StandsFor (definition :: scope) := by
  intro id query hfound
  rw [namedQuery?] at hfound
  split at hfound
  · obtain rfl := Option.some.inj hfound
    exact ⟨resolved, hquery⟩
  · exact h id query hfound

/-- The queries of a clause may come into scope if each stands for a plan. -/
theorem StandsFor.underClause {definitions : List CteDefinition} :
    ∀ {scope : List CteDefinition}, (∀ definition ∈ definitions, ∀ scope, StandsFor scope →
      ∃ resolved, Resolves ⟨scope, definition.child⟩ resolved) →
    StandsFor scope → StandsFor (underClause scope definitions) := by
  induction definitions with
  | nil => exact fun _ h => h
  | cons definition rest ih =>
    intro scope hdefinitions h
    obtain ⟨resolved, hquery⟩ := hdefinitions definition List.mem_cons_self scope h
    rw [underClause_cons]
    exact ih (fun d hd => hdefinitions d (List.mem_cons_of_mem _ hd)) (h.cons hquery)

/-- Every plan stands for one, wherever it stands. -/
theorem exists_resolves (plan : Plan) : ∀ scope : List CteDefinition, StandsFor scope →
    ∃ resolved, Resolves ⟨scope, plan⟩ resolved := by
  induction plan using Plan.induction_on_parts with
  | h plan ih =>
    intro scope hscope
    cases hscoping : plan.isScoping with
    | false =>
      have hparts : ∀ part, ∃ resolved, part ∈ plan.ownParts → Resolves ⟨scope, part⟩ resolved := by
        intro part
        by_cases hpart : part ∈ plan.ownParts
        · obtain ⟨resolved, h⟩ := ih part (plan.ownParts_subset_parts hpart) scope hscope
          exact ⟨resolved, fun _ => h⟩
        · exact ⟨part, fun h => absurd h hpart⟩
      choose f hf using hparts
      exact ⟨_, .parts hscoping (fun part hpart => hf part (List.mem_append_left _ hpart))
        (fun part hpart => hf part (List.mem_append_right _ hpart))⟩
    | true =>
      cases plan with
      | withCte definitions body =>
        obtain ⟨resolved, hbody⟩ := ih body Plan.body_mem_parts (underClause scope definitions)
          (.underClause (fun definition hdefinition =>
            ih definition.child (Plan.definition_mem_parts hdefinition)) hscope)
        exact ⟨resolved, .clause hbody⟩
      | cteReference id output =>
        cases hquery : namedQuery? scope id with
        | none => exact ⟨_, .unnamed hquery⟩
        | some query =>
          obtain ⟨body, hbody⟩ := hscope id query hquery
          exact ⟨_, .named hquery hbody⟩
      | _ => cases hscoping

/-! ## Plans that stand for themselves -/

/-- A map that leaves a list as it is leaves its members as they are. -/
theorem eq_self_of_map_eq {f : Plan → Plan} {plans : List Plan} (h : plans.map f = plans) :
    ∀ plan ∈ plans, f plan = plan :=
  List.map_inj_left.1 (h.trans plans.map_id.symm)

/-- The plan is no clause, and no reference to a query in scope. -/
def isSettled (s : ScopedPlan) : Bool :=
  match s.plan with
  | .withCte .. => false
  | .cteReference id _ => (namedQuery? s.scope id).isNone
  | _ => true

/-- No clause and no reference to a query in scope stands in the plan. -/
def Settled (s : ScopedPlan) : Prop :=
  Throughout Plan.ownParts (fun plan => isSettled ⟨s.scope, plan⟩ = true) s.plan

/-- What a plan stands for is no clause. -/
theorem Resolves.ne_withCte {s : ScopedPlan} {resolved : Plan} (h : Resolves s resolved)
    (definitions : List CteDefinition) (body : Plan) : resolved ≠ .withCte definitions body := by
  induction h with
  | clause _ ih => exact ih
  | named _ _ => exact fun h => Plan.noConfusion h
  | unnamed _ => exact fun h => Plan.noConfusion h
  | @parts scope plan f g hplan _ _ =>
    cases plan with
    | withCte | cteReference => cases hplan
    | _ => exact fun h => Plan.noConfusion h

/-- What is neither a clause nor a reference is settled on its own. -/
theorem isSettled_of_not_scoping {scope : List CteDefinition} {plan : Plan}
    (h : plan.isScoping = false) : isSettled ⟨scope, plan⟩ = true := by
  cases plan with
  | withCte | cteReference => cases h
  | _ => rfl

/-- A plan that stands for itself has no clause and no reference that means a query in scope. -/
theorem Resolves.settled {s : ScopedPlan} {resolved : Plan} (h : Resolves s resolved)
    (hself : resolved = s.plan) : Settled s := by
  induction h with
  | clause hbody _ => exact absurd hself (hbody.ne_withCte _ _)
  | named _ _ => cases hself
  | unnamed hquery =>
    refine .mk ?_ fun part hpart => absurd hpart List.not_mem_nil
    simp only [isSettled, hquery, Option.isNone_none]
  | @parts scope plan f g hplan _ _ ihEntered ihPassed =>
    have hentered := congrArg Plan.entered hself
    have hbypassed := congrArg Plan.bypassed hself
    have haside := congrArg Plan.aside hself
    rw [Plan.entered_mapParts] at hentered
    rw [Plan.bypassed_mapParts] at hbypassed
    rw [Plan.aside_mapParts] at haside
    have hpassed : plan.passedBy.map g = plan.passedBy := by
      rw [Plan.passedBy, List.map_append, hbypassed, haside]
    refine .mk (isSettled_of_not_scoping hplan) fun part hpart => ?_
    rcases List.mem_append.1 hpart with hpart | hpart
    · exact ihEntered part hpart (eq_self_of_map_eq hentered part hpart)
    · exact ihPassed part hpart (eq_self_of_map_eq hpassed part hpart)

/-- A plan without clauses and without references that mean a query in scope stands for itself. -/
theorem Settled.resolves {scope : List CteDefinition} {plan : Plan}
    (h : Settled ⟨scope, plan⟩) : Resolves ⟨scope, plan⟩ plan := by
  unfold Settled at h
  dsimp only at h
  induction h with
  | @mk plan hhere _ ih =>
    cases hscoping : plan.isScoping with
    | false =>
      have hself := Resolves.parts (f := id) (g := id) hscoping
        (fun part hpart => ih part (List.mem_append_left _ hpart))
        (fun part hpart => ih part (List.mem_append_right _ hpart))
      rwa [plan.mapParts_id] at hself
    | true =>
      cases plan with
      | withCte definitions body => cases hhere
      | cteReference id output => exact .unnamed (Option.isNone_iff_eq_none.1 hhere)
      | _ => cases hscoping

/-- What an operator is written out to is what it stands for if and only if that holds of the parts
that are entered and the others stand for themselves. -/
theorem resolves_mapParts_iff {scope : List CteDefinition} {plan : Plan} {f : Plan → Plan}
    (hplan : plan.isScoping = false) : Resolves ⟨scope, plan⟩ (plan.mapParts f id id) ↔
      (∀ part ∈ plan.entered, Resolves ⟨scope, part⟩ (f part)) ∧
        ∀ part ∈ plan.passedBy, Settled ⟨scope, part⟩ := by
  constructor
  · intro h
    obtain ⟨f', g', heq, hentered, hpassed⟩ := h.of_parts hplan
    have hmapEntered := congrArg Plan.entered heq
    have hmapBypassed := congrArg Plan.bypassed heq
    have hmapAside := congrArg Plan.aside heq
    rw [Plan.entered_mapParts, Plan.entered_mapParts] at hmapEntered
    rw [Plan.bypassed_mapParts, Plan.bypassed_mapParts, List.map_id] at hmapBypassed
    rw [Plan.aside_mapParts, Plan.aside_mapParts, List.map_id] at hmapAside
    have hmapPassed : plan.passedBy.map g' = plan.passedBy := by
      rw [Plan.passedBy, List.map_append, ← hmapBypassed, ← hmapAside]
    refine ⟨fun part hpart => ?_, fun part hpart => ?_⟩
    · rw [List.map_inj_left.1 hmapEntered part hpart]
      exact hentered part hpart
    · exact (hpassed part hpart).settled (eq_self_of_map_eq hmapPassed part hpart)
  · rintro ⟨hentered, hpassed⟩
    exact .parts hplan hentered fun part hpart => (hpassed part hpart).resolves

/-- A reference stands for the projection of what its query stands for, and for nothing else. -/
theorem resolves_named_iff {scope : List CteDefinition} {id : Int} {output : List Attribute}
    {query : ScopedPlan} {body : Plan} (hquery : namedQuery? scope id = some query)
    (houtput : body.output = query.plan.output) :
    Resolves ⟨scope, .cteReference id output⟩ (referenceProjection output body) ↔
      Resolves query body := by
  have hresolved : ∀ {resolved}, Resolves query resolved →
      Resolves ⟨scope, .cteReference id output⟩ (.project ((body.output.zip output).map fun pair =>
        .aliased (.mk (.column pair.1) pair.2.name pair.2.id)) resolved) := by
    intro resolved h
    rw [houtput]
    exact .named hquery h
  refine ⟨fun h => ?_, hresolved⟩
  obtain ⟨resolved, hbody⟩ : ∃ resolved, Resolves query resolved := by
    generalize referenceProjection output body = projection at h
    cases h with
    | named hfound hbody =>
      obtain rfl := Option.some.inj (hquery.symm.trans hfound)
      exact ⟨_, hbody⟩
    | unnamed hnone => cases hquery.symm.trans hnone
    | parts hplan _ _ => cases hplan
  have heq := h.unique (hresolved hbody)
  rw [referenceProjection, Plan.project.injEq] at heq
  rwa [heq.2]

/-- What is written out has the columns of the plan where references have columns without
qualifiers. -/
theorem Inlines.output_eq {s : ScopedPlan} {inlined : Plan} (h : Inlines s inlined)
    (hunqualified : ∀ b, s.Reaches b → ∀ a ∈ b.plan.referenced, a.qualifier = []) :
    inlined.output = s.plan.output := by
  rw [← List.forall₂_eq_eq_eq]
  refine h.forall₂_output (fun _ => rfl) fun b hb a ha => ?_
  rw [← hunqualified b hb a ha]

/-- What is written out is the plan that is stood for if and only if the parts that are passed by on
the way stand for themselves. -/
theorem Inlines.resolves_iff {s : ScopedPlan} {inlined : Plan} (h : Inlines s inlined)
    (hunqualified : ∀ b, s.Reaches b → ∀ a ∈ b.plan.referenced, a.qualifier = []) :
    Resolves s inlined ↔ ∀ b, s.Reaches b → ∀ part ∈ b.plan.passedBy, Settled ⟨b.scope, part⟩ := by
  induction h with
  | @clause scope definitions body inlined _ ih =>
    have hbody := (forall_reaches.1 hunqualified).2 _ (List.mem_singleton_self _)
    rw [resolves_clause_iff, ih hbody, forall_reaches (s := ⟨scope, .withCte definitions body⟩)]
    simp [next, Plan.passedBy, Plan.bypassed, Plan.aside]
  | @named scope id output query body hquery hbody harity ih =>
    have hreached : ∀ b, query.Reaches b → ∀ a ∈ b.plan.referenced, a.qualifier = [] :=
      (forall_reaches.1 hunqualified).2 query (Option.mem_toList.2 hquery)
    rw [resolves_named_iff hquery (hbody.output_eq hreached), ih hreached,
      forall_reaches (s := ⟨scope, .cteReference id output⟩)]
    simp [next, hquery, Plan.passedBy, Plan.bypassed, Plan.aside]
  | @unnamed scope id output hquery =>
    rw [forall_reaches]
    simp [Resolves.unnamed hquery, next, hquery, Plan.passedBy, Plan.bypassed, Plan.aside]
  | @parts scope plan f hplan _ ih =>
    have hreached : ∀ part ∈ plan.entered, ∀ b, Reaches ⟨scope, part⟩ b →
        ∀ a ∈ b.plan.referenced, a.qualifier = [] := by
      have hnext := (forall_reaches.1 hunqualified).2
      rwa [next_eq_map hplan, List.forall_mem_map] at hnext
    rw [resolves_mapParts_iff hplan, forall_reaches, next_eq_map hplan, List.forall_mem_map,
      and_comm]
    refine and_congr_right fun _ => forall₂_congr fun part hpart => ?_
    exact ih part hpart (hreached part hpart)

end ScopedPlan

/-! ## The references of a plan -/

/-- If the plan is a reference, its columns have no qualifier. -/
def Plan.isUnqualified (plan : Plan) : Bool := plan.referenced.all fun a => a.qualifier.isEmpty

/-- What a plan is written out to has the columns of the plan. It is the plan with every reference
resolved where it stands if and only if nothing is to be resolved in the parts that are passed by
on the way: in the subqueries of a grouping term, a window function, an expansion or a join
condition, and in the queries that commands and merges bypass. -/
theorem inline_resolves_iff {plan inlined : Plan}
    (hunqualified : Throughout Plan.parts (·.isUnqualified = true) plan)
    (h : (plan.inline []).result = .ok inlined) :
    inlined.output = plan.output ∧ (ScopedPlan.Resolves ⟨[], plan⟩ inlined ↔
      ∀ b, ScopedPlan.Reaches ⟨[], plan⟩ b →
        ∀ part ∈ b.plan.passedBy, ScopedPlan.Settled ⟨b.scope, part⟩) := by
  have hinlines := ScopedPlan.inlines_of_inline plan .nil h
  have hthroughout : ScopedPlan.HoldsThroughout (·.isUnqualified = true) ⟨[], plan⟩ :=
    ⟨hunqualified, fun _ hdefinition => absurd hdefinition List.not_mem_nil⟩
  have hreached : ∀ b, ScopedPlan.Reaches ⟨[], plan⟩ b →
      ∀ a ∈ b.plan.referenced, a.qualifier = [] := fun b hb a ha =>
    List.isEmpty_iff.1 (List.all_eq_true.1 (hthroughout.of_reaches hb) a ha)
  exact ⟨hinlines.output_eq hreached, hinlines.resolves_iff hreached⟩

/-- `WITH c AS (TABLE t), d AS (TABLE c) WITH c AS (TABLE u) TABLE d`, where both queries with the
name `c` have the number 1. -/
def shadowedName : Plan :=
  .withCte [.mk 1 (.relation [⟨1, some "a", []⟩] (some ⟨"t", none, none⟩)),
      .mk 2 (.cteReference 1 [⟨2, some "a", []⟩])]
    (.withCte [.mk 1 (.relation [⟨3, some "x", []⟩] (some ⟨"u", none, none⟩))]
      (.cteReference 2 [⟨4, some "b", []⟩]))

/-- A reference means the inner one of two queries of its number. -/
theorem shadowedName_resolves : ∃ inlined, (shadowedName.inline []).result = .ok inlined ∧
    inlined.output = [⟨4, some "b", []⟩] ∧ ScopedPlan.Resolves ⟨[], shadowedName⟩ inlined := by
  have hreached : Throughout ScopedPlan.next (fun b => b.plan.passedBy.isEmpty = true)
      ⟨[], shadowedName⟩ := throughout_of_within 9 (by decide)
  have hunqualified : Throughout Plan.parts (·.isUnqualified = true) shadowedName :=
    throughout_of_within 9 (by decide)
  obtain ⟨houtput, hiff⟩ := inline_resolves_iff hunqualified rfl
  refine ⟨_, rfl, houtput, hiff.2 fun b hb part hpart => ?_⟩
  have hempty := List.isEmpty_iff.1 (ScopedPlan.of_throughout_next hreached hb)
  exact absurd (hempty ▸ hpart) List.not_mem_nil

/-- `SELECT d FROM u GROUP BY (TABLE c)` with the query `c` of the number 1. -/
def groupedBySubquery : Plan :=
  .aggregate [.subquery (.cteReference 1 [⟨2, some "b", []⟩])] [.column ⟨3, some "d", []⟩]
    (.relation [⟨3, some "d", []⟩] (some ⟨"u", none, none⟩))

/-- `WITH c AS (TABLE t)` around the grouping. -/
def groupedUnderClause : Plan :=
  .withCte [.mk 1 (.relation [⟨1, some "a", []⟩] (some ⟨"t", none, none⟩))] groupedBySubquery

/-- The subquery of a grouping term is left as it is. -/
theorem groupedUnderClause_keeps_reference :
    Throughout Plan.parts (·.isUnqualified = true) groupedUnderClause ∧
      ∃ inlined, (groupedUnderClause.inline []).result = .ok inlined ∧
        ¬ ScopedPlan.Resolves ⟨[], groupedUnderClause⟩ inlined := by
  refine ⟨throughout_of_within 5 (by decide), groupedBySubquery, rfl, fun h => ?_⟩
  have hsettled := (ScopedPlan.resolves_clause_iff.1 h).settled rfl
  have hquery := hsettled.of_mem (b := .cteReference 1 [⟨2, some "b", []⟩])
    (List.mem_cons_of_mem _ List.mem_cons_self)
  exact Bool.noConfusion hquery.here

end ColumnTrace
