import ColumnTrace.Proofs.Inlining.Traversal
import Mathlib.Logic.Relation

/-!
# Plans in the scope of named queries

A plan stands in the scope of the `WITH` clauses around it (`ScopedPlan`). A reference means the
latest definition of its number, and the query of a definition is read in the scope that it was
written in: the clauses around its own and the earlier definitions of its own, never the scope of
the reference (`ScopedPlan.namedQuery?`).

`ScopedPlan.Inlines` tells what comes of writing out a plan where it stands. A plan that is written
out at all is written out so (`ScopedPlan.inlines_of_inline`). What is looked at on the way is what
the plan reaches (`ScopedPlan.Reaches`).
-/

set_option autoImplicit false

namespace ColumnTrace

/-- The columns of a reference. -/
def Plan.referenced : Plan → List Attribute
  | .cteReference _ output => output
  | _ => []

/-- A plan where it stands: the definitions of the `WITH` clauses around it, the latest first. -/
structure ScopedPlan where
  scope : List CteDefinition
  plan : Plan

namespace ScopedPlan

/-- The query that a number means in a scope: that of the latest definition of the number, in the
scope of the definitions before it. -/
def namedQuery? : List CteDefinition → Int → Option ScopedPlan
  | [], _ => none
  | definition :: earlier, id =>
    if id = definition.id then some ⟨earlier, definition.child⟩ else namedQuery? earlier id

/-- The scope under a clause. -/
def underClause (scope definitions : List CteDefinition) : List CteDefinition :=
  definitions.reverse ++ scope

/-- The definitions of a clause come into scope one after the other. -/
theorem underClause_cons (scope : List CteDefinition) (definition : CteDefinition)
    (rest : List CteDefinition) :
    underClause scope (definition :: rest) = underClause (definition :: scope) rest := by
  rw [underClause, underClause, List.reverse_cons, List.append_assoc, List.singleton_append]

/-- Where writing out goes on from a plan: the plan under a clause, the query that a reference
means, the parts that are entered. -/
def next (s : ScopedPlan) : List ScopedPlan :=
  match s.plan with
  | .withCte definitions body => [⟨underClause s.scope definitions, body⟩]
  | .cteReference id _ => (namedQuery? s.scope id).toList
  | plan => plan.entered.map fun part => ⟨s.scope, part⟩

/-- Writing out the first plan comes to the second. -/
def Reaches : ScopedPlan → ScopedPlan → Prop := Relation.ReflTransGen fun a b => b ∈ a.next

theorem Reaches.refl (s : ScopedPlan) : s.Reaches s := Relation.ReflTransGen.refl

theorem Reaches.of_mem {s t b : ScopedPlan} (ht : t ∈ s.next) (hb : t.Reaches b) : s.Reaches b :=
  Relation.ReflTransGen.head ht hb

/-- What holds of all that a plan reaches holds of the plan and of all that is reached from the next
ones. -/
theorem forall_reaches {P : ScopedPlan → Prop} {s : ScopedPlan} :
    (∀ b, s.Reaches b → P b) ↔ P s ∧ ∀ t ∈ s.next, ∀ b, t.Reaches b → P b := by
  constructor
  · exact fun h => ⟨h s (.refl s), fun t ht b hb => h b (.of_mem ht hb)⟩
  · rintro ⟨hs, hnext⟩ b hb
    rcases Relation.ReflTransGen.cases_head hb with rfl | ⟨t, ht, htb⟩
    · exact hs
    · exact hnext t ht b htb

/-- What holds at each step from a plan on holds of all that it reaches. -/
theorem of_throughout_next {P : ScopedPlan → Prop} {s b : ScopedPlan}
    (h : Throughout next P s) (hb : s.Reaches b) : P b := by
  induction h with
  | mk here _ ih =>
    rcases Relation.ReflTransGen.cases_head hb with rfl | ⟨t, ht, htb⟩
    · exact here
    · exact ih t ht htb

/-- Where there is no clause and no reference, the parts that are entered come next, in the same
scope. -/
theorem next_eq_map {scope : List CteDefinition} {plan : Plan} (h : plan.isScoping = false) :
    next ⟨scope, plan⟩ = plan.entered.map fun part => ⟨scope, part⟩ := by
  cases plan with
  | withCte | cteReference => cases h
  | _ => rfl

/-! ## What is looked at on the way -/

/-- The property holds of all plans in the plan and in the queries in scope. -/
structure HoldsThroughout (P : Plan → Prop) (s : ScopedPlan) : Prop where
  plan : Throughout Plan.parts P s.plan
  scope : ∀ definition ∈ s.scope, Throughout Plan.parts P definition.child

/-- What holds throughout the queries in scope holds throughout the one that a number means. -/
theorem HoldsThroughout.namedQuery {P : Plan → Prop} {id : Int} {query : ScopedPlan} :
    ∀ {scope : List CteDefinition}, (∀ definition ∈ scope,
      Throughout Plan.parts P definition.child) → namedQuery? scope id = some query →
      query.HoldsThroughout P
  | [], _, h => by cases h
  | definition :: earlier, hscope, h => by
    rw [namedQuery?] at h
    split at h
    · obtain rfl := Option.some.inj h
      exact ⟨hscope _ List.mem_cons_self, fun d hd => hscope d (List.mem_cons_of_mem _ hd)⟩
    · exact namedQuery (fun d hd => hscope d (List.mem_cons_of_mem _ hd)) h

/-- What is looked at on the way stands in the plan or in a query in scope. -/
theorem HoldsThroughout.next {P : Plan → Prop} {s t : ScopedPlan} (h : s.HoldsThroughout P)
    (ht : t ∈ s.next) : t.HoldsThroughout P := by
  obtain ⟨scope, plan⟩ := s
  obtain ⟨hplan, hscope⟩ := h
  cases hscoping : plan.isScoping with
  | false =>
    rw [next_eq_map hscoping] at ht
    obtain ⟨part, hpart, rfl⟩ := List.mem_map.1 ht
    exact ⟨hplan.of_mem (Plan.mem_parts.2 (Or.inl hpart)), hscope⟩
  | true =>
    cases plan with
    | withCte definitions body =>
      obtain rfl := List.mem_singleton.1 ht
      refine ⟨hplan.of_mem Plan.body_mem_parts, fun definition hdefinition => ?_⟩
      rcases List.mem_append.1 hdefinition with hdefinition | hdefinition
      · exact hplan.of_mem (Plan.definition_mem_parts (List.mem_reverse.1 hdefinition))
      · exact hscope definition hdefinition
    | cteReference id output => exact .namedQuery hscope (Option.mem_toList.1 ht)
    | _ => cases hscoping

/-- What holds throughout a plan and its scope holds of all that the plan reaches. -/
theorem HoldsThroughout.of_reaches {P : Plan → Prop} {s b : ScopedPlan}
    (h : s.HoldsThroughout P) (hb : s.Reaches b) : P b.plan := by
  induction hb using Relation.ReflTransGen.head_induction_on with
  | refl => exact h.plan.here
  | head ht _ ih => exact ih (h.next ht)

/-! ## What is written out -/

/-- What comes of writing out a plan where it stands. -/
inductive Inlines : ScopedPlan → Plan → Prop
  /-- A clause gives way to the plan under it. -/
  | clause {scope definitions : List CteDefinition} {body inlined : Plan}
    (hbody : Inlines ⟨underClause scope definitions, body⟩ inlined) :
    Inlines ⟨scope, .withCte definitions body⟩ inlined
  /-- A reference gives way to what its query comes to, under the reference's columns. -/
  | named {scope : List CteDefinition} {id : Int} {output : List Attribute} {query : ScopedPlan}
    {body : Plan} (hquery : namedQuery? scope id = some query) (hbody : Inlines query body)
    (harity : body.output.length = output.length) :
    Inlines ⟨scope, .cteReference id output⟩ (referenceProjection output body)
  /-- A reference to nothing in scope stays. -/
  | unnamed {scope : List CteDefinition} {id : Int} {output : List Attribute}
    (hquery : namedQuery? scope id = none) :
    Inlines ⟨scope, .cteReference id output⟩ (.cteReference id output)
  /-- Any other plan stays, and the parts that are entered give way to what they come to. -/
  | parts {scope : List CteDefinition} {plan : Plan} {f : Plan → Plan}
    (hplan : plan.isScoping = false)
    (hparts : ∀ part ∈ plan.entered, Inlines ⟨scope, part⟩ (f part)) :
    Inlines ⟨scope, plan⟩ (plan.mapParts f id id)

/-- The definitions of a scope with what their queries come to. -/
inductive Writes : List CteDefinition → CteScope → Prop
  | nil : Writes [] []
  | cons {earlier : List CteDefinition} {written : CteScope} {definition : CteDefinition}
    {body : Plan} (hearlier : Writes earlier written)
    (hbody : Inlines ⟨earlier, definition.child⟩ body) :
    Writes (definition :: earlier) ((definition.id, body) :: written)

/-- A number is known to both or to none, and what is written is what its query comes to. -/
theorem Writes.lookup {scope : List CteDefinition} {written : CteScope} (h : Writes scope written)
    (id : Int) : Option.Rel Inlines (namedQuery? scope id) (written.lookup id) := by
  induction h with
  | nil => exact .none
  | @cons earlier written definition body _ hbody ih =>
    rw [namedQuery?, List.lookup_cons]
    by_cases hid : id = definition.id
    · rw [if_pos hid, hid, beq_self_eq_true]
      exact .some hbody
    · rw [if_neg hid, beq_false_of_ne hid]
      exact ih

/-- The definitions of a clause are added one by one. -/
theorem writes_of_extend {definitions : List CteDefinition} :
    ∀ {scope : List CteDefinition} {written extended : CteScope},
    (∀ definition ∈ definitions, ∀ {scope : List CteDefinition} {written : CteScope} {body : Plan},
      Writes scope written → (definition.child.inline written).result = .ok body →
      Inlines ⟨scope, definition.child⟩ body) →
    Writes scope written → (CteDefinition.extend written definitions).result = .ok extended →
    Writes (underClause scope definitions) extended := by
  induction definitions with
  | nil =>
    intro scope written extended _ hwrites hextend
    obtain rfl := Except.ok.inj hextend
    exact hwrites
  | cons definition rest ih =>
    intro scope written extended hinline hwrites hextend
    obtain ⟨number, child⟩ := definition
    rw [CteDefinition.extend, Traced.result_bind_eq_ok] at hextend
    obtain ⟨body, hbody, hrest⟩ := hextend
    have hhead := hinline _ List.mem_cons_self hwrites hbody
    rw [underClause_cons]
    exact ih (fun d hd => hinline d (List.mem_cons_of_mem _ hd)) (.cons hwrites hhead) hrest

end ScopedPlan

namespace ScopedPlan

/-- A plan that is written out is written out as `Inlines` says. -/
theorem inlines_of_inline (plan : Plan) : ∀ {scope : List CteDefinition} {written : CteScope}
    {inlined : Plan}, Writes scope written → (plan.inline written).result = .ok inlined →
    Inlines ⟨scope, plan⟩ inlined := by
  induction plan using Plan.induction_on_parts with
  | h plan ih =>
    intro scope written inlined hwrites hinline
    cases hscoping : plan.isScoping with
    | false =>
      rw [Plan.inline_eq written hscoping, Traced.result_bind_eq_ok] at hinline
      obtain ⟨inlinedParts, hparts, hinlined⟩ := hinline
      obtain rfl := Except.ok.inj hinlined
      refine .parts hscoping fun part hpart => ?_
      have hvisited := plan.entered_subset_visited hpart
      obtain ⟨body, hbody⟩ := Traced.exists_ok_of_mapM hparts hvisited
      rw [Plan.written_eq hbody]
      exact ih part (plan.visited_subset_parts hvisited) hwrites hbody
    | true =>
      cases plan with
      | withCte definitions body =>
        obtain ⟨extended, hextend, hbody⟩ := Traced.result_bind_eq_ok.1 hinline
        refine .clause (ih body ?_ (writes_of_extend ?_ hwrites hextend) hbody)
        · exact Plan.body_mem_parts
        · intro definition hdefinition scope written query hscope hquery
          exact ih definition.child (Plan.definition_mem_parts hdefinition) hscope hquery
      | cteReference id output =>
        have hlookup := hwrites.lookup id
        simp only [Plan.inline, resolveReference] at hinline
        -- the scope has an entry for the number if and only if a definition has the number
        generalize hfound : written.lookup id = found at hlookup hinline
        cases hquery : namedQuery? scope id with
        | none =>
          rw [hquery] at hlookup
          cases hlookup
          rw [Traced.result_note_bind] at hinline
          obtain rfl := Except.ok.inj hinline
          exact .unnamed hquery
        | some query =>
          rw [hquery] at hlookup
          cases hlookup with
          | some hbody =>
            dsimp only at hinline
            split at hinline
            · cases hinline
            · next harity =>
              obtain rfl := Except.ok.inj hinline
              exact .named hquery hbody (not_not.1 harity)
      | _ => cases hscoping

end ScopedPlan

/-! ## The projection that stands for a reference -/

/-- The columns have lost their qualifier. -/
theorem output_referenceProjection {output : List Attribute} {body : Plan}
    (h : body.output.length = output.length) :
    (referenceProjection output body).output = output.map fun a => ⟨a.id, a.name, []⟩ := by
  have hpair : SelectItem.toAttribute ∘ (fun pair : Attribute × Attribute =>
      SelectItem.aliased (.mk (.column pair.1) pair.2.name pair.2.id)) =
        (fun a => ⟨a.id, a.name, []⟩) ∘ Prod.snd := rfl
  rw [referenceProjection, Plan.output, List.map_map, hpair, ← List.map_map,
    List.map_snd_zip (Nat.le_of_eq h.symm)]

/-- Only the body is a part of the projection. -/
theorem entered_referenceProjection (output : List Attribute) (body : Plan) :
    (referenceProjection output body).entered = [body] := by
  refine congrArg (body :: ·) (List.eq_nil_iff_forall_not_mem.2 fun query hquery => ?_)
  obtain ⟨e, he, hmem⟩ := Expr.mem_subqueriesOfAll.1 hquery
  simp only [List.map_map, List.mem_map, Function.comp_apply] at he
  obtain ⟨pair, -, rfl⟩ := he
  exact List.not_mem_nil hmem

namespace ScopedPlan

/-! ## Columns -/

/-- What is written out has the columns of the plan one by one, up to what the references that are
reached do to theirs: these lose their qualifier. -/
theorem Inlines.forall₂_output {R : Attribute → Attribute → Prop} (hrefl : ∀ a, R a a)
    {s : ScopedPlan} {inlined : Plan} (h : Inlines s inlined)
    (hreference : ∀ b, s.Reaches b → ∀ a ∈ b.plan.referenced, R ⟨a.id, a.name, []⟩ a) :
    List.Forall₂ R inlined.output s.plan.output := by
  have hself : ∀ columns : List Attribute, List.Forall₂ R columns columns := fun columns =>
    List.forall₂_same.2 fun a _ => hrefl a
  induction h with
  | clause _ ih => exact ih (forall_reaches.1 hreference |>.2 _ (List.mem_singleton_self _))
  | named hquery _ harity _ =>
    rw [output_referenceProjection harity, List.forall₂_map_left_iff]
    exact List.forall₂_same.2 (hreference _ (.refl _))
  | unnamed _ => exact hself _
  | @parts scope plan f hplan _ ih =>
    refine Plan.forall₂_output hrefl (plan.outline_mapParts _ _ _) ?_ ?_
    · rw [Plan.entered_mapParts, List.forall₂_map_left_iff]
      refine List.forall₂_same.2 fun part hpart => ih part hpart ?_
      refine forall_reaches.1 hreference |>.2 _ ?_
      rw [next_eq_map hplan]
      exact List.mem_map_of_mem hpart
    · rw [Plan.clause_mapParts, List.forall₂_map_left_iff]
      exact List.forall₂_same.2 fun part _ => hself part.output

/-- A plan that is written out is as wide as before. -/
theorem Inlines.length_output {s : ScopedPlan} {inlined : Plan} (h : Inlines s inlined) :
    inlined.output.length = s.plan.output.length :=
  (h.forall₂_output (R := fun _ _ => True) (fun _ => trivial) fun _ _ _ _ => trivial).length_eq

/-! ## What writing out keeps -/

/-- What can be told of outlines and holds of all plans in a plan still does once the plan is
written out, if it holds of projections: these stand for the references. -/
theorem Inlines.throughout {α : Type} {f : Plan → α} {value : α}
    (houtline : ∀ plan, f plan.outline = f plan)
    (hproject : ∀ items child, f (.project items child) = value) {s : ScopedPlan} {inlined : Plan}
    (h : Inlines s inlined) (hs : s.HoldsThroughout (f · = value)) :
    Throughout Plan.parts (f · = value) inlined := by
  induction h with
  | clause _ ih => exact ih (hs.next (List.mem_singleton_self _))
  | @named scope id output query body hquery _ _ ih =>
    have hbody := ih (hs.next (Option.mem_toList.2 hquery))
    refine .mk (hproject _ _) fun part hpart => ?_
    rcases Plan.mem_parts.1 hpart with hpart | hpart | hpart | hpart | hpart
    · rw [entered_referenceProjection, List.mem_singleton] at hpart
      exact hpart ▸ hbody
    · exact absurd hpart List.not_mem_nil
    · exact absurd hpart List.not_mem_nil
    · exact absurd hpart List.not_mem_nil
    · exact absurd hpart List.not_mem_nil
  | unnamed _ => exact hs.plan
  | @parts scope plan g hplan _ ih =>
    have hhere := hs.plan.here
    rw [← Plan.eq_of_outline houtline (plan.outline_mapParts g id id)] at hhere
    refine .mk hhere fun part hpart => ?_
    simp only [Plan.mem_parts, Plan.entered_mapParts, Plan.bypassed_mapParts, Plan.aside_mapParts,
      Plan.stored_mapParts, Plan.clause_mapParts, List.map_id] at hpart
    rcases hpart with hpart | hpart
    · obtain ⟨query, hquery, rfl⟩ := List.mem_map.1 hpart
      exact ih query hquery (hs.next (next_eq_map hplan ▸ List.mem_map_of_mem hquery))
    · exact hs.plan.of_mem (Plan.mem_parts.2 (Or.inr hpart))

end ScopedPlan

end ColumnTrace
