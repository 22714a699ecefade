import ColumnTrace.Proofs.Lineage.Replacements

/-!
# Views that are not opened

A setting tells persisted views not to be opened. With it no body of such a view is seen, however
deep in a plan the view stands, and without persisted views it changes nothing
(`extract_skipPersistedViews`).
-/

set_option autoImplicit false

namespace ColumnTrace

/-- The plan is a view that lasts. -/
def Plan.isPersistedView : Plan → Bool
  | .view _ _ _ temporary => !temporary
  | _ => false

/-- Whether a view lasts is seen in the outline. -/
theorem Plan.isPersistedView_outline (plan : Plan) :
    plan.outline.isPersistedView = plan.isPersistedView := by
  cases plan <;> rfl

/-- Only views that last are skipped. -/
theorem Settings.skips_of_not_persisted (settings : Settings) {plan : Plan}
    (h : plan.isPersistedView = false) : settings.skips plan = false := by
  cases plan with
  | view name output body temporary =>
    rw [Plan.isPersistedView] at h
    rw [Settings.skips, h, Bool.false_and]
  | _ => rfl

namespace Lineage

open Plan

/-- The second plan is the first, a persisted view, with another body. Neither of the bodies has to
do with named queries. -/
inductive PersistedBody : Plan → Plan → Prop
  | mk {name : TableName} {output : List Attribute} {body other : Plan} (hbody : body.CteFree)
    (hother : other.CteFree) :
    PersistedBody (.view name output body false) (.view name output other false)

/-- Another body of a view that is skipped is not seen by a trace. -/
theorem unseen_persistedBody {settings : Settings} (hskip : settings.skipPersistedViews = true) :
    Unseen settings PersistedBody where
  output := by
    rintro _ _ ⟨-, -⟩
    rfl
  inline := by
    rintro _ _ ⟨hbody, hother⟩ scope
    simp only [Plan.inline, hbody.inline_eq, hother.inline_eq, pure_bind]
    exact Traced.matches_pure (.here ⟨hbody, hother⟩)
  step := by
    rintro _ _ ⟨-, -⟩ below parent
    have hskipped : (!false && settings.skipPersistedViews) = true := by rw [hskip]; rfl
    rw [step_view_skipped hskipped, step_view_skipped hskipped]

/-- Where no view in a plan lasts, settings that differ in nothing but the treatment of persisted
views trace the plan alike. -/
theorem extractWithin_eq_of_not_persisted {settings settings' : Settings}
    (hdepth : settings.maxPlanDepth = settings'.maxPlanDepth) (levels : Nat) :
    ∀ plan, Throughout parts (·.isPersistedView = false) plan → ∀ request,
      extractWithin settings levels plan request = extractWithin settings' levels plan request := by
  induction levels with
  | zero =>
    intro plan _ request
    rw [extractWithin, extractWithin, hdepth]
  | succ levels ih =>
    intro plan h request
    have hself : Corresponds (TracedAlike (extractWithin settings levels)
        (extractWithin settings' levels)) plan plan :=
      corresponds_self fun part hpart => ⟨rfl, ih part (h.of_mem hpart)⟩
    have hskips : settings.skips plan = settings'.skips plan := by
      rw [settings.skips_of_not_persisted h.here, settings'.skips_of_not_persisted h.here]
    cases plan with
    | withCte definitions body =>
      refine Traced.bind_congr_of_ok fun inlined hinlined => ih inlined ?_ request
      exact (ScopedPlan.inlines_of_inline _ .nil hinlined).throughout isPersistedView_outline
        (fun _ _ => rfl) ⟨h, fun _ hdefinition => absurd hdefinition List.not_mem_nil⟩
    | _ => exact step_congr hself (fun _ _ h => Plan.noConfusion h) hskips

/-- With the setting on, plans that differ only in the bodies of persisted views have one lineage or
fail alike; a plan in which no view lasts has one lineage, or fails alike, with the setting on and
off. -/
theorem extract_skipPersistedViews (settings : Settings) (request : LineageMap) :
    (settings.skipPersistedViews = true → ∀ p q, Replaced PersistedBody p q →
      p.extract settings request = q.extract settings request) ∧
    ∀ plan, Throughout parts (·.isPersistedView = false) plan →
      plan.extract { settings with skipPersistedViews := true } request =
        plan.extract { settings with skipPersistedViews := false } request := by
  refine ⟨fun hskip p q h => ?_, fun plan h => ?_⟩
  · rw [extract_eq, extract_eq]
    exact extractWithin_eq_of_replaced (unseen_persistedBody hskip) _ p q h request
  · have hdepth : ({ settings with skipPersistedViews := true } : Settings).maxPlanDepth =
        ({ settings with skipPersistedViews := false } : Settings).maxPlanDepth := rfl
    rw [extract_eq, extract_eq]
    exact extractWithin_eq_of_not_persisted hdepth _ plan h request

/-- `SELECT x FROM v` over a view `v` of `SELECT a AS x` from a table. -/
def filteredView (table : String) (temporary : Bool) : Plan :=
  .operator "Filter" [.view ⟨"v", none, none⟩ [⟨2, some "x", []⟩]
    (.relation [⟨1, some "a", []⟩] (some ⟨table, none, none⟩)) temporary] [⟨2, some "x", []⟩]

/-- A view that lasts is skipped, whatever its body, and a temporary one is opened. -/
theorem extract_filteredView :
    (filteredView "t" false).extract ⟨true, 9, by decide⟩ ∅ =
        (filteredView "u" false).extract ⟨true, 9, by decide⟩ ∅ ∧
      ((filteredView "t" false).extract ⟨true, 9, by decide⟩ ∅).result =
        .ok (.ofList [(⟨2, some "x", []⟩, .ofList [⟨2, some "x", ["v"]⟩])]) ∧
      (filteredView "t" true).extract ⟨true, 9, by decide⟩ ∅ =
        (filteredView "t" true).extract ⟨false, 9, by decide⟩ ∅ ∧
      ((filteredView "t" true).extract ⟨true, 9, by decide⟩ ∅).result =
        .ok (.ofList [(⟨2, some "x", []⟩, .ofList [⟨1, some "a", ["t"]⟩])]) := by
  obtain ⟨hskipped, htemporary⟩ := extract_skipPersistedViews ⟨true, 9, by decide⟩ ∅
  have hfree : ∀ table, (Plan.relation [⟨1, some "a", []⟩] table).CteFree := fun _ =>
    .mk rfl fun part hpart => absurd hpart List.not_mem_nil
  have hnotPersisted : Throughout parts (fun plan => (!plan.isPersistedView) = true)
      (filteredView "t" true) := throughout_of_within 9 (by decide)
  refine ⟨hskipped rfl _ _ (.of_corresponds ⟨rfl, ?_, .nil, .nil, .nil, .nil⟩), by decide +kernel,
    htemporary _ (hnotPersisted.imp fun _ h => by simpa using h), by decide +kernel⟩
  exact .cons (.here ⟨hfree _, hfree _⟩) .nil

end Lineage

end ColumnTrace
