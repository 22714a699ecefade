import ColumnTrace.Lineage.Extract

/-!
# Levels in place of depths

A trace hands the depth from each plan to the plans under it and fails with the depth that is beyond
the limit. Every entry goes exactly one level down, so that the depth can be left out: a plan may be
traced so many levels down, and where they run out the depth is the limit and one (`extract_eq`).
The levels that the trace itself is given never run out before the depth is beyond the limit
(`visit_eq`).
-/

set_option autoImplicit false

namespace ColumnTrace

namespace Lineage

/-- One level of a plan is traced, where `below` traces the plans under it. -/
def step (settings : Settings) (below : Below) : Below := stepAt settings (fun _ => below) 0

/-- Tracing that may go so many levels down. -/
def extractWithin (settings : Settings) : Nat → Below
  | 0, _, _ => .fail (.tooDeep (settings.maxPlanDepth + 1) settings.maxPlanDepth)
  | levels + 1, plan, parent => step settings (extractWithin settings levels) plan parent

/-- Every plan that an operator enters is entered at the one depth that the operator is given. -/
theorem stepAt_eq (settings : Settings) (enter : Nat → Below) (depth : Nat) :
    stepAt settings enter depth = step settings (enter depth) := by
  funext plan parent
  cases plan with
  | insertTable table query mode => cases table <;> rfl
  | relation output table => cases table <;> rfl
  | _ => rfl

variable {settings : Settings}

/-- A trace at a depth has the levels that the limit leaves, however many it may go down. -/
theorem visit_eq_extractWithin (levels : Nat) : ∀ {given depth : Nat}, levels ≤ given →
    depth + levels = settings.maxPlanDepth + 1 →
    visit settings given depth = extractWithin settings levels := by
  induction levels with
  | zero =>
    intro given depth _ hdepth
    -- the depth is beyond the limit here, whether or not the trace may go down further
    obtain rfl : depth = settings.maxPlanDepth + 1 := hdepth
    funext plan parent
    cases given with
    | zero => rfl
    | succ given => rw [visit, if_pos (Nat.lt_succ_self _), extractWithin]
  | succ levels ih =>
    intro given depth hgiven hdepth
    obtain ⟨given, rfl⟩ : ∃ n, given = n + 1 := ⟨given - 1, by omega⟩
    have hwithin : ¬ settings.maxPlanDepth < depth := by omega
    have hbelow : visit settings given (depth + 1) = extractWithin settings levels :=
      ih (by omega) (by omega)
    funext plan parent
    rw [visit, if_neg hwithin, stepAt_eq, hbelow, extractWithin]

/-- The lineage of a plan is what is found within one level more than the limit. -/
theorem extract_eq (plan : Plan) (parent : LineageMap) :
    plan.extract settings parent =
      extractWithin settings (settings.maxPlanDepth + 1) plan parent := by
  rw [Plan.extract, visit_eq_extractWithin _ (Nat.le_refl _) (Nat.zero_add _)]

/-- A trace with the levels that the limit leaves is cut off by the limit only: a plan beyond it
fails with its depth, and any other plan is traced with the plans under it one deeper. -/
theorem visit_eq {given depth : Nat} (h : settings.maxPlanDepth + 1 ≤ depth + given) (plan : Plan)
    (parent : LineageMap) :
    visit settings given depth plan parent =
      if settings.maxPlanDepth < depth then .fail (.tooDeep depth settings.maxPlanDepth)
      else stepAt settings (visit settings given) (depth + 1) plan parent := by
  split
  · next hdeep =>
    cases given with
    | zero => rfl
    | succ given => rw [visit, if_pos hdeep]
  · next hwithin =>
    obtain ⟨levels, hlevels⟩ : ∃ n, depth + (n + 1) = settings.maxPlanDepth + 1 :=
      ⟨settings.maxPlanDepth - depth, by omega⟩
    have hhere : visit settings given depth = extractWithin settings (levels + 1) :=
      visit_eq_extractWithin _ (by omega) hlevels
    have hbelow : visit settings given (depth + 1) = extractWithin settings levels :=
      visit_eq_extractWithin _ (by omega) (by omega)
    rw [hhere, stepAt_eq, hbelow, extractWithin]

end Lineage

end ColumnTrace
