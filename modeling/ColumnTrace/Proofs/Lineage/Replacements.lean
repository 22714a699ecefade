import ColumnTrace.Proofs.Lineage.RelatedTraces
import ColumnTrace.Proofs.Plans.Replacement

/-!
# Plans with parts that are traced alike

One level of tracing reads an operator's outline, the columns of its parts and what is found out
about the parts on the level below. Where two plans agree in all three, they are traced alike
(`step_congr`). A `WITH` clause is written out first and is left out here.

With plans in it that give way to others, a plan is traced as a relation between computations says
where this is so for the plans that give way (`related_of_replaced`).
-/

set_option autoImplicit false

namespace ColumnTrace

namespace Lineage

open Plan

/-! ## One level -/

/-- The plans have the same columns and are traced alike. -/
structure TracedAlike (below below' : Below) (p q : Plan) : Prop where
  output : p.output = q.output
  answer : ∀ request, below p request = below' q request

/-- One level of plans that agree in outline, with parts that are traced alike. -/
theorem step_congr {settings settings' : Settings} {below below' : Below} {p q : Plan}
    {parent : LineageMap} (h : Corresponds (TracedAlike below below') p q)
    (hclause : ∀ definitions body, p ≠ .withCte definitions body)
    (hskips : settings.skips p = settings'.skips q) :
    step settings below p parent = step settings' below' q parent :=
  related_step sequential_eq (h.imp fun _ _ h => ⟨h.output, h.answer⟩) hclause hskips

/-! ## All levels -/

/-- A replacement of plans that tracing does not see: it keeps the columns, it is the same before
and after writing out, and one level is traced alike. -/
structure Unseen (settings : Settings) (B : Plan → Plan → Prop) : Prop where
  output : ∀ p q, B p q → p.output = q.output
  inline : ∀ p q, B p q → ∀ scope : CteScope,
    Traced.Matches (Replaced B) (p.inline scope) (q.inline scope)
  step : ∀ p q, B p q → ∀ below parent,
    step settings below p parent = step settings below q parent

/-- Whether a view is opened is seen in the outline. -/
theorem skips_outline (settings : Settings) (plan : Plan) :
    settings.skips plan.outline = settings.skips plan := by
  cases plan <;> rfl

section
variable {settings : Settings} {B : Plan → Plan → Prop} {T : TraceRelation} {p q : Plan}

/-- One level over parts with replacements is traced as a relation says where the levels below are.
-/
theorem related_under (hT : Sequential T) (houtput : ∀ p q, B p q → p.output = q.output)
    (hinline : ∀ p q, B p q → ∀ scope : CteScope,
      Traced.Matches (Replaced B) (p.inline scope) (q.inline scope)) {below : Below}
    (hbelow : ∀ p q, Replaced B p q → ∀ request, T (below p request) (below q request))
    (h : Corresponds (Replaced B) p q) (parent : LineageMap) :
    T (step settings below p parent) (step settings below q parent) := by
  have hskips := eq_of_outline (skips_outline settings) h.outline
  have hrelated := h.imp fun p q hpq =>
    (⟨hpq.output_eq houtput, hbelow p q hpq⟩ : Related T below below p q)
  have hmatches := (Replaced.of_corresponds h).inlinesAlike houtput hinline [] [] .nil
  cases p with
  | withCte definitions body =>
    cases q with
    | withCte definitions' body' =>
      exact hT.bind_of_matches hmatches (not_ranOut_inline [] _) fun inlined inlined' hinlined =>
        hbelow inlined inlined' hinlined parent
    | _ => cases h.outline
  | _ => exact related_step hT hrelated (fun _ _ h => Plan.noConfusion h) hskips

/-- Plans with replacements are traced as a relation says where this is so for the plans that are
replaced. -/
theorem related_of_replaced (hT : Sequential T)
    (hrefl : ∀ {α : Type} (x : Traced ExtractionError α), T x x)
    (htrans : ∀ {α : Type} {x y z : Traced ExtractionError α}, T x y → T y z → T x z)
    (houtput : ∀ p q, B p q → p.output = q.output)
    (hinline : ∀ p q, B p q → ∀ scope : CteScope,
      Traced.Matches (Replaced B) (p.inline scope) (q.inline scope))
    (hhere : ∀ n p q, B p q → ∀ request,
      T (extractWithin settings n p request) (extractWithin settings n q request)) (n : Nat) :
    ∀ p q, Replaced B p q → ∀ request,
      T (extractWithin settings n p request) (extractWithin settings n q request) := by
  induction n with
  | zero => exact fun _ _ _ _ => hrefl _
  | succ n ih =>
    intro p q h
    refine h.rec_on_parts (hhere (n + 1)) (fun p q h request => ?_)
      fun p q r _ _ hpq hqr request => htrans (hpq request) (hqr request)
    exact related_under hT houtput hinline ih (h.imp fun _ _ h => h.1) request

/-- What tracing does not see on one level, it does not see at all. -/
theorem extractWithin_eq_of_replaced (hB : Unseen settings B) (levels : Nat) :
    ∀ p q, Replaced B p q → ∀ request,
      extractWithin settings levels p request = extractWithin settings levels q request := by
  refine related_of_replaced sequential_eq (fun _ => rfl) Eq.trans hB.output hB.inline
    (fun n p q hpq request => ?_) levels
  cases n with
  | zero => rfl
  | succ n => exact hB.step p q hpq _ request

end

end Lineage

end ColumnTrace
