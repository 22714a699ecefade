import ColumnTrace.Proofs.Lineage.Replacements

/-!
# Operators that pass everything through

Filters, sorts, limits and other operators without a rule of their own may stand anywhere in a plan.
Put over any number of the plans in a plan, at any places, they change neither its lineage nor the
cause for which it has none, as long as the plan does not get too deep (`extract_of_wrapped`).

An operator carries the columns of the plan under it, as they were when it was put there. Writing
out takes the qualifiers of a reference's columns away, and an operator over the reference does not
learn of it. Hence the references declare their columns without qualifiers; it is enough that those
do which the operator's columns come from (`Plan.KeepsColumns`).
-/

set_option autoImplicit false

namespace ColumnTrace

namespace Plan

/-! ## Columns that writing out keeps -/

/-- The columns of references that are columns of the plan. -/
def referenceColumns : Plan → List Attribute
  | .window _ child _ _ => child.referenceColumns
  | .join left right _ _ => left.referenceColumns ++ right.referenceColumns
  | .cteDefinition (.mk _ child) => child.referenceColumns
  | .cteReference _ output => output
  | .withCte _ body => body.referenceColumns
  | _ => []

/-- Of the plan's columns, those of references have no qualifiers. -/
def KeepsColumns (plan : Plan) : Prop := ∀ a ∈ plan.referenceColumns, a.qualifier = []

/-- A join keeps its columns if both sides do. -/
theorem keepsColumns_join {left right : Plan} {type : JoinType} {condition : Option Expr} :
    (Plan.join left right type condition).KeepsColumns ↔
      left.KeepsColumns ∧ right.KeepsColumns :=
  List.forall_mem_append

/-- The references in the plan, however deep, declare their columns without qualifiers. -/
def ReferencesUnqualified : Plan → Prop :=
  Throughout parts fun plan => ∀ a ∈ plan.referenced, a.qualifier = []

/-- A plan whose references have no qualifiers keeps its columns. -/
theorem ReferencesUnqualified.keepsColumns {plan : Plan} (h : plan.ReferencesUnqualified) :
    plan.KeepsColumns := by
  induction h with
  | @mk plan here _ ih =>
    cases plan with
    | cteReference => exact here
    | window functions child =>
      exact ih child (mem_parts.2 (Or.inl (List.mem_singleton_self child)))
    | cteDefinition definition =>
      obtain ⟨id, child⟩ := definition
      exact ih child (mem_parts.2 (Or.inl (List.mem_singleton_self child)))
    | join left right =>
      refine keepsColumns_join.2 ⟨ih left (mem_parts.2 (Or.inl List.mem_cons_self)), ?_⟩
      exact ih right (mem_parts.2 (Or.inl (List.mem_cons_of_mem left List.mem_cons_self)))
    | withCte definitions body =>
      exact ih body body_mem_parts
    | _ => exact fun a ha => absurd ha List.not_mem_nil

/-- Exchanging the parts that are entered keeps such a plan and its columns, where it does for those
of the parts that are such plans. -/
theorem keepsColumns_mapParts {plan : Plan} {f : Plan → Plan} (hscoping : plan.isScoping = false)
    (hparts : ∀ part ∈ plan.entered, part.KeepsColumns →
      (f part).output = part.output ∧ (f part).KeepsColumns) (hkeeps : plan.KeepsColumns) :
    (plan.mapParts f id id).output = plan.output ∧ (plan.mapParts f id id).KeepsColumns := by
  cases plan with
  | withCte | cteReference => cases hscoping
  | window functions child partition order =>
    obtain ⟨houtput, hchild⟩ := hparts child (List.mem_singleton_self child) hkeeps
    refine ⟨?_, hchild⟩
    simp only [mapParts, output, houtput, mapSubqueries_id_alias, List.map_id_fun, id]
  | cteDefinition definition =>
    obtain ⟨id, child⟩ := definition
    exact hparts child (List.mem_singleton_self child) hkeeps
  | join left right type condition =>
    obtain ⟨hleft, hright⟩ := keepsColumns_join.1 hkeeps
    obtain ⟨houtput, hleft⟩ := hparts left List.mem_cons_self hleft
    obtain ⟨houtput', hright⟩ :=
      hparts right (List.mem_cons_of_mem left List.mem_cons_self) hright
    refine ⟨?_, keepsColumns_join.2 ⟨hleft, hright⟩⟩
    simp only [mapParts, output, houtput, houtput']
  | project items child =>
    exact ⟨map_toAttribute_mapSubqueries f items, fun a ha => absurd ha List.not_mem_nil⟩
  | aggregate grouping items child =>
    exact ⟨map_toAttribute_mapSubqueries f items, fun a ha => absurd ha List.not_mem_nil⟩
  | _ => exact ⟨rfl, fun a ha => absurd ha List.not_mem_nil⟩

/-- What is put in the place of a reference has its columns and keeps them. -/
theorem ends_resolveReference_of_keepsColumns (scope : CteScope) {id : Int}
    {output : List Attribute} (hkeeps : (Plan.cteReference id output).KeepsColumns) :
    (resolveReference scope id output).Ends
      (fun inlined => inlined.output = output ∧ inlined.KeepsColumns) fun _ => True := by
  rw [resolveReference]
  split
  · exact Traced.ends_of_result_eq (Traced.result_note_bind _ _) (Traced.ends_pure ⟨rfl, hkeeps⟩)
  · split
    · exact Traced.ends_fail trivial
    · next harity =>
      refine Traced.ends_pure ⟨?_, fun a ha => absurd ha List.not_mem_nil⟩
      rw [output_referenceProjection (not_not.1 harity)]
      refine (List.map_congr_left fun a ha => ?_).trans (List.map_id output)
      rw [← hkeeps a ha]
      rfl

/-- Such a plan has the same columns after writing out, and is such a plan again. -/
theorem ends_inline_of_keepsColumns (plan : Plan) : ∀ scope : CteScope, plan.KeepsColumns →
    (plan.inline scope).Ends
      (fun inlined => inlined.output = plan.output ∧ inlined.KeepsColumns) fun _ => True := by
  induction plan using induction_on_parts with
  | h plan ih =>
    intro scope hkeeps
    cases hscoping : plan.isScoping with
    | false =>
      refine Traced.ends_iff.2 ⟨fun inlined hinlined => ?_, fun _ _ => trivial⟩
      rw [inline_eq scope hscoping, Traced.result_bind_eq_ok] at hinlined
      obtain ⟨inlinedParts, hparts, hinlined⟩ := hinlined
      obtain rfl := Except.ok.inj hinlined
      refine keepsColumns_mapParts hscoping (fun part hpart hkeeps => ?_) hkeeps
      have hvisited := plan.entered_subset_visited hpart
      obtain ⟨inlined, hinlined⟩ := Traced.exists_ok_of_mapM hparts hvisited
      rw [written_eq hinlined]
      exact (ih part (plan.visited_subset_parts hvisited) scope hkeeps).of_ok hinlined
    | true =>
      cases plan with
      | withCte definitions body =>
        have hbody := ih body body_mem_parts
        exact (Traced.ends_trivial _).bind fun inner _ => hbody inner hkeeps
      | cteReference id output => exact ends_resolveReference_of_keepsColumns scope hkeeps
      | _ => cases hscoping

/-! ## Wrapped plans -/

/-- The second plan is the first under an operator without a rule of its own that leaves the columns
as they are. -/
def Wrapped (p q : Plan) : Prop := ∃ name, q = p.wrap name

/-- The plan that is wrapped keeps its columns where it is written out. -/
def WrappedKept (p q : Plan) : Prop := p.KeepsColumns ∧ Wrapped p q

/-- A plan that is wrapped has its columns. -/
theorem WrappedKept.output_eq (p q : Plan) (h : WrappedKept p q) : p.output = q.output := by
  obtain ⟨-, name, rfl⟩ := h
  rfl

/-- Writing out a plan under an operator comes to what the plan is written out to, under the
operator. -/
theorem WrappedKept.inline (p q : Plan) (h : WrappedKept p q) (scope : CteScope) :
    Traced.Matches (Replaced WrappedKept) (p.inline scope) (q.inline scope) := by
  obtain ⟨hkeeps, name, rfl⟩ := h
  have hself : Traced.Matches Eq (p.inline scope) (p.inline scope) :=
    Traced.matches_of_eq rfl fun _ _ => rfl
  have hmatches : Traced.Matches (Replaced WrappedKept) (p.inline scope >>= pure)
      (p.inline scope >>= fun inlined => pure (.operator name [inlined] p.output)) := by
    refine hself.bind fun inlined _ hinlined _ heq => Traced.matches_pure ?_
    obtain ⟨houtput, hkept⟩ := (ends_inline_of_keepsColumns p scope hkeeps).of_ok hinlined
    rw [← heq, ← houtput]
    exact .here ⟨hkept, name, rfl⟩
  simpa only [wrap, Plan.inline, inlineAll, bind_pure, bind_assoc, pure_bind] using hmatches

theorem referenced_outline (plan : Plan) : plan.outline.referenced = plan.referenced := by
  cases plan <;> rfl

/-- Where the references declare their columns without qualifiers, they do so after plans are
wrapped as well, and every plan that is wrapped keeps its columns. -/
theorem Replaced.wrappedKept {p q : Plan} (h : Replaced Wrapped p q) :
    p.ReferencesUnqualified → Replaced WrappedKept p q ∧ q.ReferencesUnqualified := by
  refine h.rec_on_parts
    (P := fun p q => p.ReferencesUnqualified →
      Replaced WrappedKept p q ∧ q.ReferencesUnqualified)
    (fun p q hwrapped hp => ?_) (fun p q h hp => ?_) fun p q r _ _ hpq hqr hp => ?_
  · refine ⟨.here ⟨hp.keepsColumns, hwrapped⟩, ?_⟩
    obtain ⟨name, rfl⟩ := hwrapped
    refine .mk (fun a ha => absurd ha List.not_mem_nil) fun part hpart => ?_
    obtain rfl := List.mem_singleton.1 hpart
    exact hp
  · have hkept : Corresponds (fun p q => Replaced WrappedKept p q ∧ q.ReferencesUnqualified) p q :=
      corresponds_iff.2 ⟨h.outline, fun pair hpair =>
        ((corresponds_iff.1 h).2 pair hpair).2 (hp.of_mem (List.of_mem_zip hpair).1)⟩
    refine ⟨.of_corresponds (hkept.imp fun _ _ h => h.1), .mk ?_ fun part hpart => ?_⟩
    · rw [← eq_of_outline referenced_outline h.outline]
      exact hp.here
    · obtain ⟨other, -, -, hunqualified⟩ := exists_left_of_forall₂ hkept.parts hpart
      exact hunqualified
  · obtain ⟨hkept, hq⟩ := hpq hp
    obtain ⟨hkept', hr⟩ := hqr hq
    exact ⟨hkept.trans hkept', hr⟩

end Plan

namespace Lineage

open Plan Traced

/-! ## Tracing wrapped plans -/

/-- The computations end alike, unless the second runs out of levels. -/
def EndsAs {α : Type} (x y : Traced ExtractionError α) : Prop := ¬ RanOut y → x.result = y.result

/-- Ending alike is kept step by step. -/
theorem sequential_endsAs : Sequential fun _ x y => EndsAs x y where
  self := fun _ _ => rfl
  bind := by
    intro α β x y f g hxy hfg hran
    have hresult := hxy fun hy => hran (hy.bind g)
    rw [result_bind, result_bind, hresult]
    cases hy : y.result with
    | error e => rfl
    | ok a => exact hfg a fun hg => hran (.of_ok hy hg)

/-- A plan under an operator ends as the plan does, one level higher. -/
theorem endsAs_wrap (settings : Settings) (n : Nat) (name : String) (plan : Plan)
    (request : LineageMap) : EndsAs (extractWithin settings (n + 1) plan request)
      (extractWithin settings (n + 1) (plan.wrap name) request) := by
  intro hran
  have hstep : (extractWithin settings (n + 1) (plan.wrap name) request).result =
      (extractWithin settings n plan request).result := step_operator
  have hbelow : ¬ RanOut (extractWithin settings n plan request) := fun ⟨depth, limit, hlimit⟩ =>
    hran ⟨depth, limit, hstep.trans hlimit⟩
  rw [extends_succ n plan request hbelow, hstep]

/-- Ending alike may be chained. -/
theorem EndsAs.trans {α : Type} {x y z : Traced ExtractionError α} (hxy : EndsAs x y)
    (hyz : EndsAs y z) : EndsAs x z := by
  intro hz
  have hresult := hyz hz
  have hy : ¬ RanOut y := fun ⟨depth, limit, hlimit⟩ =>
    hz ⟨depth, limit, hresult.symm.trans hlimit⟩
  rw [hxy hy, hresult]

/-- A plan with wrapped plans in it ends as the plan does. -/
theorem endsAs_of_wrappedKept (settings : Settings) (n : Nat) : ∀ p q,
    Replaced WrappedKept p q → ∀ request,
      EndsAs (extractWithin settings n p request) (extractWithin settings n q request) := by
  refine related_of_replaced sequential_endsAs (fun _ _ => rfl) EndsAs.trans
    WrappedKept.output_eq WrappedKept.inline (fun n p q hpq request => ?_) n
  cases n with
  | zero => exact fun _ => rfl
  | succ n =>
    obtain ⟨-, name, rfl⟩ := hpq
    exact endsAs_wrap settings n name p request

/-- Operators without a rule of their own are transparent. Where the references in a plan declare
their columns without qualifiers, and plans in it are put under such operators, any number of them
and however deep, the plan has the lineage or the failure that it had, as long as it does not get
too deep. -/
theorem extract_of_wrapped {p q : Plan} (h : Replaced Wrapped p q) (hp : p.ReferencesUnqualified)
    (settings : Settings) (request : LineageMap)
    (hlimit : ∀ e, (q.extract settings request).result = .error e → e.kind ≠ .depth) :
    (q.extract settings request).result = (p.extract settings request).result := by
  have hran : ¬ RanOut (q.extract settings request) := by
    rw [ranOut_iff]
    rintro ⟨e, he, hkind⟩
    exact hlimit e he hkind
  rw [extract_eq] at hran ⊢
  rw [extract_eq]
  exact (endsAs_of_wrappedKept settings _ p q (h.wrappedKept hp).1 request hran).symm

/-- `WITH q AS (SELECT a FROM t) SELECT b FROM q`, with operators over the table, over the reference
and over the whole. -/
def selectFromClause (overTable overReference overAll : Plan → Plan) : Plan :=
  overAll (.withCte [.mk 1 (overTable (.relation [⟨1, some "a", []⟩] (some ⟨"t", none, none⟩)))]
    (overReference (.cteReference 1 [⟨2, some "b", []⟩])))

/-- The named query is filtered, the reference to it is sorted, and the whole is limited. -/
def limitedFromClause : Plan := selectFromClause (wrap "Filter") (wrap "Sort") (wrap "Limit")

/-- A filter, a sort and a limit leave the lineage as it is. -/
theorem extract_limitedFromClause :
    (limitedFromClause.extract ⟨false, 9, by decide⟩ ∅).result =
        ((selectFromClause id id id).extract ⟨false, 9, by decide⟩ ∅).result ∧
      (limitedFromClause.extract ⟨false, 9, by decide⟩ ∅).result =
        .ok (.ofList [(⟨2, some "b", []⟩, .ofList [⟨1, some "a", ["t"]⟩])]) := by
  have hunder : Replaced Wrapped (selectFromClause id id id)
      (selectFromClause (wrap "Filter") (wrap "Sort") id) :=
    .of_corresponds ⟨rfl, .nil, .nil, .nil, .nil,
      .cons (.here ⟨"Filter", rfl⟩) (.cons (.here ⟨"Sort", rfl⟩) .nil)⟩
  have hreferences : Throughout parts (fun plan => plan.referenced.all (·.qualifier = []) = true)
      (selectFromClause id id id) := throughout_of_within 9 (by decide)
  have hanswer : (limitedFromClause.extract ⟨false, 9, by decide⟩ ∅).result =
      .ok (.ofList [(⟨2, some "b", []⟩, .ofList [⟨1, some "a", ["t"]⟩])]) := by decide +kernel
  refine ⟨extract_of_wrapped (hunder.trans (.here ⟨"Limit", rfl⟩)) ?_ _ ∅ fun e he => ?_, hanswer⟩
  · exact hreferences.imp fun _ h => by simpa using h
  · cases hanswer.symm.trans he

end Lineage

end ColumnTrace
