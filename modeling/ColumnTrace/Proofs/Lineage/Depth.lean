import ColumnTrace.Proofs.Lineage.Levels
import ColumnTrace.Proofs.Outcomes

/-!
# Levels that tracing may go down

A trace that does not run out of levels ends the same with more levels (`extends_of_le`): the limit
decides whether there is an answer, and never which one.
-/

set_option autoImplicit false

namespace ColumnTrace

namespace Lineage

open Traced

variable {α β γ : Type}

/-- The computation ran out of levels. -/
def RanOut (x : Traced ExtractionError α) : Prop :=
  ∃ depth limit, x.result = .error (.tooDeep depth limit)

/-- What ran out of levels stays so, whatever would follow. -/
theorem RanOut.bind {x : Traced ExtractionError α} (h : RanOut x)
    (f : α → Traced ExtractionError β) : RanOut (x >>= f) := by
  obtain ⟨depth, limit, hlimit⟩ := h
  exact ⟨depth, limit, by rw [bind_of_error hlimit]⟩

/-- A computation runs out of levels where its second part does. -/
theorem RanOut.of_ok {x : Traced ExtractionError α} {a : α} (hx : x.result = .ok a)
    {f : α → Traced ExtractionError β} (h : RanOut (f a)) : RanOut (x >>= f) := by
  obtain ⟨depth, limit, hlimit⟩ := h
  exact ⟨depth, limit, by rw [bind_of_ok hx, hlimit]⟩

/-- What ends in a value did not run out of levels. -/
theorem not_ranOut_of_ok {x : Traced ExtractionError α} {a : α} (hx : x.result = .ok a) :
    ¬ RanOut x := by
  rintro ⟨depth, limit, hlimit⟩
  rw [hx] at hlimit
  cases hlimit

/-- The second computation ends as the first, unless the first ran out of levels. -/
def Extends (x y : Traced ExtractionError α) : Prop := ¬ RanOut x → y = x

theorem Extends.refl (x : Traced ExtractionError α) : Extends x x := fun _ => rfl

/-- Ending as before may be chained. -/
theorem Extends.trans {x y z : Traced ExtractionError α} (hxy : Extends x y) (hyz : Extends y z) :
    Extends x z := by
  intro h
  have hy := hxy h
  rw [hyz (hy ▸ h), hy]

/-- A value stays with more levels. -/
theorem Extends.of_ok {x y : Traced ExtractionError α} {a : α} (h : Extends x y)
    (hx : x.result = .ok a) : y = x :=
  h (not_ranOut_of_ok hx)

/-- Two steps end as before if each does. -/
theorem Extends.bind {x y : Traced ExtractionError α} {f g : α → Traced ExtractionError β}
    (hxy : Extends x y) (hfg : ∀ a, Extends (f a) (g a)) : Extends (x >>= f) (y >>= g) := by
  intro h
  cases hx : x.result with
  | error e =>
    have hy : y = x := hxy fun hran => h (hran.bind f)
    rw [hy, bind_of_error hx, bind_of_error hx]
  | ok a =>
    have hf : ¬ RanOut (f a) := fun hran => h (.of_ok hx hran)
    rw [hxy.of_ok hx, bind_of_ok hx, bind_of_ok hx, hfg a hf]

/-- What follows ends as before if what comes first does. -/
theorem Extends.bind_left {x y : Traced ExtractionError α} (hxy : Extends x y)
    (f : α → Traced ExtractionError β) : Extends (x >>= f) (y >>= f) :=
  hxy.bind fun a => .refl (f a)

/-- What is run on a list ends as before if it does on each member. -/
theorem Extends.mapM {f g : γ → Traced ExtractionError α} (hfg : ∀ c, Extends (f c) (g c))
    (xs : List γ) : Extends (xs.mapM f) (xs.mapM g) := by
  induction xs with
  | nil => exact .refl _
  | cons x rest ih =>
    rw [List.mapM_cons, List.mapM_cons]
    exact (hfg x).bind fun a => ih.bind_left _

/-! ## One level -/

variable {below more : Below}

/-- Children are traced as before where each of them is. -/
theorem extends_ofChildren (h : ∀ plan request, Extends (below plan request) (more plan request))
    (children : List Plan) (request : LineageMap) :
    Extends (ofChildren below children request) (ofChildren more children request) :=
  (Extends.mapM (fun child => h child request) children).bind_left _

/-- A select list is traced as before where each plan in it is. -/
theorem extends_ofSelectList
    (h : ∀ plan request, Extends (below plan request) (more plan request))
    (items : List SelectItem) : Extends (ofSelectList below items) (ofSelectList more items) := by
  have hitem : ∀ item, Extends (itemSources below item) (itemSources more item) := by
    intro item
    cases item with
    | column a => exact .refl _
    | aliased a =>
      refine Extends.bind_left ?_ _
      simp only [aliasSources]
      split
      · exact (Extends.mapM (fun plan => h plan ∅) _).bind_left _
      · exact .refl _
  exact (Extends.mapM hitem items).bind_left _

/-- A level of a plan that does not run out of levels ends the same where the plans below it do. -/
theorem extends_step (h : ∀ plan request, Extends (below plan request) (more plan request))
    (settings : Settings) (plan : Plan) (parent : LineageMap) :
    Extends (step settings below plan parent) (step settings more plan parent) := by
  cases plan with
  | commandResult output command => exact h command parent
  | alterView name query => exact (h query parent).bind_left _
  | createView name query type columns =>
    simp only [step, stepAt]
    split
    · exact .refl _
    · exact (h query parent).bind_left _
  | createTable name query replace => exact (h query parent).bind_left _
  | insertTable table query mode =>
    cases table with
    | none => exact .refl _
    | some table => exact (h query parent).bind_left _
  | insertDirectory location query overwrite =>
    simp only [step, stepAt]
    split
    · exact .refl _
    · exact .refl _
    · exact (h query parent).bind_left _
  | saveSource query provider => exact h query parent
  | merge target source matched notMatched =>
    exact (h target _).bind fun _ => (h source _).bind_left _
  | withCte definitions body =>
    -- writing out goes down no levels
    exact (Extends.refl _).bind fun inlined => h inlined parent
  | project items child =>
    exact (extends_ofSelectList h items).bind fun _ =>
      (Extends.refl _).bind fun request => extends_ofChildren h [child] request
  | aggregate grouping items child =>
    exact (extends_ofSelectList h items).bind fun _ =>
      (Extends.refl _).bind fun request => extends_ofChildren h [child] request
  | expand projections output child =>
    exact (Extends.refl _).bind fun request => extends_ofChildren h [child] request
  | window functions child partition order => exact extends_ofChildren h [child] _
  | join left right type condition =>
    simp only [step, stepAt]
    split
    · exact extends_ofChildren h [left, right] parent
    · exact h left parent
  | union branches output =>
    exact (Extends.mapM (fun branch => h branch ∅) branches).bind_left _
  | relation output table => cases table <;> exact .refl _
  | localRelation output rows => exact .refl _
  | oneRow => exact .refl _
  | view name output body temporary =>
    simp only [step, stepAt]
    split
    · exact .refl _
    · exact (h body ∅).bind_left _
  | cached output physical table =>
    simp only [step, stepAt]
    split
    · exact (h _ ∅).bind_left _
    · exact .refl _
  | cteReference id output => exact .refl _
  | cteDefinition definition =>
    exact (Extends.refl _).bind fun _ => extends_ofChildren h [definition.child] parent
  | operator name children output =>
    simp only [step, stepAt]
    split
    · exact .refl _
    · exact (Extends.refl _).bind fun _ => extends_ofChildren h children parent

/-! ## All levels -/

variable {settings : Settings}

/-- One more level changes no trace that had enough. -/
theorem extends_succ (n : Nat) : ∀ (plan : Plan) (request : LineageMap),
    Extends (extractWithin settings n plan request)
      (extractWithin settings (n + 1) plan request) := by
  induction n with
  | zero => exact fun plan request h => absurd ⟨_, settings.maxPlanDepth, rfl⟩ h
  | succ n ih => exact fun plan request => extends_step ih settings plan request

/-- More levels change no answer. -/
theorem extends_of_le {n k : Nat} (h : n ≤ k) (plan : Plan) (request : LineageMap) :
    Extends (extractWithin settings n plan request) (extractWithin settings k plan request) := by
  induction h with
  | refl => exact .refl _
  | step _ ih => exact ih.trans (extends_succ _ plan request)

/-- A plan that is traced within fewer levels than allowed has that lineage. -/
theorem extract_of_extractWithin {n : Nat} (h : n ≤ settings.maxPlanDepth + 1) {plan : Plan}
    {request m : LineageMap} (hm : (extractWithin settings n plan request).result = .ok m) :
    (plan.extract settings request).result = .ok m := by
  rw [extract_eq, (extends_of_le h plan request).of_ok hm, hm]

/-- A plan with a lineage has it already one level lower, unless the levels run out there. -/
theorem extractWithin_of_extract {plan : Plan} {request m : LineageMap}
    (hran : ¬ RanOut (extractWithin settings settings.maxPlanDepth plan request))
    (hm : (plan.extract settings request).result = .ok m) :
    (extractWithin settings settings.maxPlanDepth plan request).result = .ok m := by
  rw [extract_eq, extends_succ _ plan request hran] at hm
  exact hm

end Lineage

end ColumnTrace
