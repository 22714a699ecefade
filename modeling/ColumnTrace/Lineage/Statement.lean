import ColumnTrace.Lineage.Extract
import ColumnTrace.Lineage.Record

/-!
# The record of a plan

`Plan.record` traces a plan and makes its record. `Plan.recordOrWarn` never fails: a plan without
lineage leaves a warning that names the statement.
-/

set_option autoImplicit false

namespace ColumnTrace

/-- The record of a plan. -/
def Plan.record (settings : Settings) (plan : Plan) : Traced ExtractionError LineageRecord := do
  let lineage ← plan.extract settings ∅
  ⟨[], lineage.record⟩

/-- The record of a statement's plan and the log; without lineage the log ends in a warning. -/
def Plan.recordOrWarn (settings : Settings) (statement : String) (plan : Plan) :
    Log × Option LineageRecord :=
  let traced := plan.record settings
  match traced.result with
  | .ok record => (traced.log, some record)
  | .error e =>
    (traced.log ++ [.warning ("Extract statement[" ++ statement ++ "] columns lineage failed: " ++
      e.message)], none)

end ColumnTrace
