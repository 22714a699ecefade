import ColumnTrace.Proofs.Inlining.Scopes

/-!
# References that are left

A reference may stand in the plans below an operator, in the query of a command and in the scalar
subqueries of a projection, a grouping or a window (`Plan.places`). Where every reference has as
many columns as the query that it means, the plan is written out, and what comes of it has no
reference if and only if those that are reached mean something and the parts that are bypassed on
the way have no reference (`inline_referenceFree_iff`).
-/

set_option autoImplicit false

namespace ColumnTrace


namespace Plan

/-- The query of a command that writes no rows of its own. -/
def command? : Plan → Option Plan
  | .commandResult _ command => some command
  | .alterView _ query => some query
  | .createView _ query _ _ => some query
  | .saveSource query _ => some query
  | _ => none

/-- The expressions of a projection, a grouping or a window. -/
def blockExprs : Plan → List Expr
  | .project items _ => items.map SelectItem.toExpr
  | .aggregate grouping items _ => grouping ++ items.map SelectItem.toExpr
  | .window functions _ partition order => functions.map Alias.child ++ (partition ++ order)
  | _ => []

/-- Where references may stand: in the plans below, in the query of a command, and in the scalar
subqueries of a projection, a grouping or a window. -/
def places (plan : Plan) : List Plan :=
  plan.children ++ (plan.command?.toList ++ Expr.subqueriesOfAll plan.blockExprs)

/-- The places of an operator are those that are entered and those that are bypassed. -/
theorem mem_places {plan part : Plan} (h : plan.isScoping = false) :
    part ∈ plan.places ↔ part ∈ plan.entered ∨ part ∈ plan.bypassed := by
  cases plan with
  | withCte | cteReference => cases h
  | aggregate grouping items child =>
    simp only [places, children, command?, blockExprs, entered, bypassed, Option.toList_none,
      List.nil_append, List.mem_append, List.mem_cons, List.not_mem_nil,
      Expr.subqueriesOfAll_append]
    tauto
  | _ => simp [places, children, command?, blockExprs, entered, bypassed, Expr.subqueriesOfAll]

end Plan

namespace ScopedPlan

/-- The queries of a clause, each in the scope of those before it, and the plan under the clause. -/
def ofClause (scope : List CteDefinition) : List CteDefinition → Plan → List ScopedPlan
  | [], body => [⟨scope, body⟩]
  | definition :: rest, body =>
    ⟨scope, definition.child⟩ :: ofClause (definition :: scope) rest body

/-- What stands in a plan: the queries of a clause and the plan under it, or the places of an
operator. -/
def within (s : ScopedPlan) : List ScopedPlan :=
  match s.plan with
  | .withCte definitions body => ofClause s.scope definitions body
  | plan => plan.places.map fun part => ⟨s.scope, part⟩

/-- If the plan is a reference to a query in scope, it has as many columns as the query. -/
def fits (s : ScopedPlan) : Bool :=
  match s.plan with
  | .cteReference id output =>
    (namedQuery? s.scope id).all fun query => query.plan.output.length == output.length
  | _ => true

/-- If the plan is a reference, its number means a query in scope. -/
def isNamed (s : ScopedPlan) : Bool :=
  match s.plan with
  | .cteReference id _ => (namedQuery? s.scope id).isSome
  | _ => true

/-- Where there is no clause and no reference, the parts of a plan stand in its scope. -/
theorem within_eq_map {scope : List CteDefinition} {plan : Plan} (h : plan.isScoping = false) :
    within ⟨scope, plan⟩ = plan.places.map fun part => ⟨scope, part⟩ := by
  cases plan with
  | withCte | cteReference => cases h
  | _ => rfl

end ScopedPlan

/-- What is written out may hold references. -/
theorem Plan.visited_subset_places {plan : Plan} (h : plan.isScoping = false) :
    plan.visited ⊆ plan.places := by
  intro part hpart
  refine (mem_places h).2 ?_
  cases plan with
  | merge => exact Or.inr hpart
  | _ => exact Or.inl hpart

namespace ScopedPlan

/-- The definitions of a clause can be added where their queries can be written out. -/
theorem exists_extend {body : Plan} {definitions : List CteDefinition} :
    ∀ {scope : List CteDefinition} {written : CteScope},
    (∀ definition ∈ definitions, ∀ {scope : List CteDefinition} {written : CteScope},
      Writes scope written → Throughout within (·.fits = true) ⟨scope, definition.child⟩ →
      ∃ inlined, (definition.child.inline written).result = .ok inlined) →
    Writes scope written → (∀ s ∈ ofClause scope definitions body,
      Throughout within (·.fits = true) s) →
    ∃ extended, (CteDefinition.extend written definitions).result = .ok extended ∧
      Writes (underClause scope definitions) extended ∧
      Throughout within (·.fits = true) ⟨underClause scope definitions, body⟩ := by
  induction definitions with
  | nil =>
    intro scope written _ hwrites hfits
    exact ⟨written, rfl, hwrites, hfits _ (List.mem_singleton_self _)⟩
  | cons definition rest ih =>
    intro scope written hinline hwrites hfits
    obtain ⟨inlined, hinlined⟩ :=
      hinline definition List.mem_cons_self hwrites (hfits _ List.mem_cons_self)
    have hhead := inlines_of_inline definition.child hwrites hinlined
    obtain ⟨extended, hextended, hrest, hbody⟩ := ih
      (fun d hd => hinline d (List.mem_cons_of_mem _ hd)) (.cons hwrites hhead)
      (fun s hs => hfits s (List.mem_cons_of_mem _ hs))
    rw [← underClause_cons] at hrest hbody
    refine ⟨extended, ?_, hrest, hbody⟩
    obtain ⟨number, child⟩ := definition
    exact (Traced.result_bind_of_ok hinlined).trans hextended

/-- A plan is written out where its references fit what they mean. -/
theorem exists_inline (plan : Plan) : ∀ {scope : List CteDefinition} {written : CteScope},
    Writes scope written → Throughout within (·.fits = true) ⟨scope, plan⟩ →
    ∃ inlined, (plan.inline written).result = .ok inlined := by
  induction plan using Plan.induction_on_parts with
  | h plan ih =>
    intro scope written hwrites hfits
    cases hscoping : plan.isScoping with
    | false =>
      have hvisited : ∀ part ∈ plan.visited, ∃ inlined,
          (part.inline written).result = .ok inlined := by
        intro part hpart
        refine ih part (plan.visited_subset_parts hpart) hwrites (hfits.of_mem ?_)
        rw [within_eq_map hscoping]
        exact List.mem_map_of_mem (Plan.visited_subset_places hscoping hpart)
      obtain ⟨inlined, hinlined⟩ := exists_forall₂ hvisited
      rw [Plan.inline_eq written hscoping, Traced.result_bind_of_ok
        (Traced.result_mapM_eq_ok.2 hinlined)]
      exact ⟨_, rfl⟩
    | true =>
      cases plan with
      | withCte definitions body =>
        obtain ⟨extended, hextended, hscope, hbody⟩ := exists_extend
          (fun definition hdefinition =>
            ih definition.child (Plan.definition_mem_parts hdefinition)) hwrites
          (fun s hs => hfits.of_mem hs)
        obtain ⟨inlined, hinlined⟩ := ih body Plan.body_mem_parts hscope hbody
        exact ⟨inlined, by rw [Plan.inline, Traced.result_bind_of_ok hextended, hinlined]⟩
      | cteReference id output =>
        have hlookup := hwrites.lookup id
        have hhere := hfits.here
        simp only [Plan.inline, resolveReference]
        simp only [fits] at hhere
        generalize written.lookup id = found at hlookup
        cases hquery : namedQuery? scope id with
        | none =>
          rw [hquery] at hlookup
          cases hlookup
          exact ⟨_, rfl⟩
        | some query =>
          rw [hquery] at hlookup hhere
          cases hlookup with
          | some hbody =>
            -- writing out keeps the number of columns, so the reference fits the written query
            have harity := hbody.length_output.trans (beq_iff_eq.1 hhere)
            dsimp only
            rw [if_neg (not_not.2 harity)]
            exact ⟨_, rfl⟩
      | _ => cases hscoping

end ScopedPlan

/-! ## References -/

/-- The plan is a reference. -/
def Plan.isReference : Plan → Bool
  | .cteReference .. => true
  | _ => false

/-- No reference stands in the plan, at whatever place. -/
def Plan.ReferenceFree (plan : Plan) : Prop := Throughout Plan.places (·.isReference = false) plan

/-- A plan that is neither a clause nor a reference is no reference. -/
theorem Plan.isReference_of_not_scoping {plan : Plan} (h : plan.isScoping = false) :
    plan.isReference = false := by
  cases plan with
  | withCte | cteReference => cases h
  | _ => rfl

/-- A plan without references is no reference, and its parts have none. -/
theorem Plan.referenceFree_iff {plan : Plan} : plan.ReferenceFree ↔
    plan.isReference = false ∧ ∀ part ∈ plan.places, part.ReferenceFree :=
  ⟨fun h => ⟨h.here, fun _ => h.of_mem⟩, fun h => .mk h.1 h.2⟩

/-- What is put in the place of a reference has no references beside those of the query. -/
theorem Plan.referenceFree_referenceProjection {output : List Attribute} {body : Plan} :
    (referenceProjection output body).ReferenceFree ↔ body.ReferenceFree := by
  have hplain : (referenceProjection output body).isScoping = false := rfl
  rw [referenceFree_iff]
  simp only [mem_places hplain, entered_referenceProjection, List.mem_singleton]
  constructor
  · exact fun h => h.2 body (Or.inl rfl)
  · rintro h
    refine ⟨rfl, fun part hpart => ?_⟩
    rcases hpart with rfl | hpart
    · exact h
    · exact absurd hpart List.not_mem_nil

/-- An operator whose entered parts are exchanged has no reference if and only if these parts and
the bypassed ones have none. -/
theorem Plan.referenceFree_mapParts {plan : Plan} {f : Plan → Plan}
    (h : plan.isScoping = false) : (plan.mapParts f id id).ReferenceFree ↔
      (∀ part ∈ plan.entered, (f part).ReferenceFree) ∧
        ∀ part ∈ plan.bypassed, part.ReferenceFree := by
  have hmapped : (plan.mapParts f id id).isScoping = false := by
    cases plan with
    | withCte | cteReference => cases h
    | _ => rfl
  rw [referenceFree_iff]
  simp only [mem_places hmapped, entered_mapParts, bypassed_mapParts, List.map_id_fun, id,
    isReference_of_not_scoping hmapped, true_and, or_imp, forall_and, List.forall_mem_map]

namespace ScopedPlan

/-- What is written out has no reference if and only if all that are reached mean something and
the parts that are bypassed have none. -/
theorem Inlines.referenceFree_iff {s : ScopedPlan} {inlined : Plan} (h : Inlines s inlined) :
    inlined.ReferenceFree ↔ ∀ b, s.Reaches b →
      b.isNamed = true ∧ ∀ part ∈ b.plan.bypassed, part.ReferenceFree := by
  induction h with
  | @clause scope definitions body inlined _ ih =>
    rw [ih, forall_reaches (s := ⟨scope, .withCte definitions body⟩)]
    simp [next, isNamed, Plan.bypassed]
  | @named scope id output query body hquery _ _ ih =>
    rw [Plan.referenceFree_referenceProjection, ih,
      forall_reaches (s := ⟨scope, .cteReference id output⟩)]
    simp [next, isNamed, Plan.bypassed, hquery]
  | @unnamed scope id output hquery =>
    rw [forall_reaches, Plan.referenceFree_iff]
    simp [isNamed, Plan.isReference, hquery]
  | @parts scope plan f hplan _ ih =>
    have hnamed : isNamed ⟨scope, plan⟩ = true := by
      cases plan with
      | withCte | cteReference => cases hplan
      | _ => rfl
    rw [Plan.referenceFree_mapParts hplan, forall_reaches, next_eq_map hplan, hnamed,
      List.forall_mem_map, and_comm]
    exact and_congr ⟨fun h => ⟨rfl, h⟩, And.right⟩ (forall₂_congr ih)

end ScopedPlan

/-- Writing out takes all references away, unless one that is reached means nothing in its scope or
one stands in a part that is bypassed: in a subquery of a grouping term or of a window function, in
a side of a merge, or in the query of a command that writes no rows of its own. -/
theorem inline_referenceFree_iff {plan : Plan}
    (hfits : Throughout ScopedPlan.within (·.fits = true) ⟨[], plan⟩) :
    ∃ inlined, (plan.inline []).result = .ok inlined ∧
      (inlined.ReferenceFree ↔ ∀ b, ScopedPlan.Reaches ⟨[], plan⟩ b →
        b.isNamed = true ∧ ∀ part ∈ b.plan.bypassed, part.ReferenceFree) := by
  obtain ⟨inlined, hinlined⟩ := ScopedPlan.exists_inline plan .nil hfits
  exact ⟨inlined, hinlined, (ScopedPlan.inlines_of_inline plan .nil hinlined).referenceFree_iff⟩

/-- `WITH c AS (TABLE t)` around a plan that knows `c` by the number 1. -/
def overNamedTable (body : Plan) : Plan :=
  .withCte [.mk 1 (.relation [⟨1, some "a", []⟩] (some ⟨"t", none, none⟩))] body

/-- The named query under the column `b`. -/
def namedTable : Plan := .cteReference 1 [⟨2, some "b", []⟩]

/-- `INSERT INTO u TABLE c` -/
def insertNamedTable : Plan := .insertTable (some ⟨"u", none, none⟩) namedTable .append

/-- `MERGE INTO u USING c ON TRUE WHEN MATCHED THEN UPDATE SET d = b` -/
def mergeNamedTable : Plan :=
  .merge (.relation [⟨3, some "d", []⟩] (some ⟨"u", none, none⟩)) namedTable
    [.update [.mk ⟨3, some "d", []⟩ (.column ⟨2, some "b", []⟩)] none] []

/-- An insert of a named query is written out without references. -/
theorem insertNamedTable_referenceFree : ∃ inlined,
    ((overNamedTable insertNamedTable).inline []).result = .ok inlined ∧
      inlined.ReferenceFree := by
  obtain ⟨inlined, hinlined, hiff⟩ := inline_referenceFree_iff
    (throughout_of_within 5 (by decide) :
      Throughout ScopedPlan.within (·.fits = true) ⟨[], overNamedTable insertNamedTable⟩)
  have hreached : Throughout ScopedPlan.next
      (fun b => (b.isNamed && b.plan.bypassed.isEmpty) = true)
      ⟨[], overNamedTable insertNamedTable⟩ := throughout_of_within 5 (by decide)
  refine ⟨inlined, hinlined, hiff.2 fun b hb => ?_⟩
  have hb := ScopedPlan.of_throughout_next hreached hb
  rw [Bool.and_eq_true, List.isEmpty_iff] at hb
  exact ⟨hb.1, fun part hpart => absurd (hb.2 ▸ hpart) List.not_mem_nil⟩

/-- The source of a merge is left as it is. -/
theorem mergeNamedTable_keeps_reference :
    Throughout ScopedPlan.within (fun s => (s.fits && s.isNamed) = true)
        ⟨[], overNamedTable mergeNamedTable⟩ ∧
      ∃ inlined, ((overNamedTable mergeNamedTable).inline []).result = .ok inlined ∧
        ¬ inlined.ReferenceFree := by
  refine ⟨throughout_of_within 5 (by decide), mergeNamedTable, rfl, fun h => ?_⟩
  have hsource := h.of_mem (b := namedTable) (List.mem_cons_of_mem _ List.mem_cons_self)
  exact Bool.noConfusion hsource.here

end ColumnTrace
