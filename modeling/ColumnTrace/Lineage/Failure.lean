import ColumnTrace.Plan.Basic

/-!
# Why lineage cannot be traced

An `ExtractionError` is a cause for which a plan has no lineage. Its kind says whether the plan
lacks something that its operator needs, whether it is too deep, whether two parts of it do not fit,
or whether a column lacks a name that is needed.
-/

set_option autoImplicit false

namespace ColumnTrace

/-- What a log says of a failure that has no words of its own. -/
def wordlessMark : String := "<InternalError>"

/-- A cause for which a plan has no lineage. -/
inductive ExtractionError where
  /-- A plan stands at a depth beyond the limit. -/
  | tooDeep (depth limit : Nat)
  /-- A relation has more columns than the plan behind it. -/
  | unresolvedColumns (exposed resolved : Nat)
  /-- A reference to a named query has another number of columns. -/
  | referenceArity (id : Int) (defined referenced : Nat)
  /-- The target of an insert is no table of a catalog. -/
  | insertWithoutTable (mode : WriteMode)
  /-- The target of an insert is no place. -/
  | directoryWithoutLocation
  /-- A view names fewer columns than its query has. -/
  | viewColumns (view : String) (listed produced : Nat)
  /-- A column without a name would have to be shown or compared by name. -/
  | namelessColumn
deriving DecidableEq

/-- The kinds of cause. -/
inductive ExtractionError.Kind where
  | planShape
  | mismatch
  | depth
  | nameless
deriving DecidableEq

namespace ExtractionError

/-- The kind of a cause. -/
def kind : ExtractionError → Kind
  | .tooDeep .. => .depth
  | .unresolvedColumns .. => .mismatch
  | .referenceArity .. => .mismatch
  | .insertWithoutTable _ => .planShape
  | .directoryWithoutLocation => .planShape
  | .viewColumns .. => .planShape
  | .namelessColumn => .nameless

/-- The text of the error. -/
def message : ExtractionError → String
  | .tooDeep depth limit =>
    "plan depth " ++ Text.writeNat depth ++ " exceeds the configured limit of " ++
      Text.writeNat limit
  | .unresolvedColumns exposed resolved =>
    "relation exposes " ++ Text.writeNat exposed ++ " columns but its plan resolved only " ++
      Text.writeNat resolved
  | .referenceArity id defined referenced =>
    "CTE " ++ Text.writeInt id ++ " defines " ++ Text.writeNat defined ++
      " columns but is referenced with " ++ Text.writeNat referenced
  | .insertWithoutTable mode => "InsertIntoTable (" ++ mode.label ++ ") has no catalog table"
  | .directoryWithoutLocation => "InsertIntoDirectory has no storage location"
  | .viewColumns view listed produced =>
    "view " ++ view ++ " lists " ++ Text.writeNat listed ++ " columns but its query produces " ++
      Text.writeNat produced
  | .namelessColumn => wordlessMark

end ExtractionError

end ColumnTrace
