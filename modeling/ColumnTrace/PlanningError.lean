import ColumnTrace.Label
import ColumnTrace.Text.Case
import ColumnTrace.Text.Numeral

/-!
# Why a statement cannot be planned

A `PlanningError` is a cause for which a statement has no plan. Its kind says whether a clause is
missing, whether a name or a shape cannot be resolved, or whether the text of a stored query could
not be read.
-/

set_option autoImplicit false

namespace ColumnTrace

/-- A cause for which a text has no syntax tree. -/
inductive ParseFailure where
  /-- The text is no statement. -/
  | notStatement
  /-- The text does not fall into tokens. -/
  | notTokens
  /-- The engine or an option of it is unknown; the reader's own words say which. -/
  | unsupported (message : String)
deriving DecidableEq

/-- The reader's words for an engine that it does not know. -/
def ParseFailure.unknownEngine (engine : String) : ParseFailure :=
  .unsupported ("Unknown dialect '" ++ engine ++ "'.")

/-- A cause for which a statement has no plan. -/
inductive PlanningError where
  | createWithoutTable (kind : String)
  | mergeWithoutSource
  | cacheWithoutTable
  | insertWithoutQuery
  | mergeTargetNotTable
  | unexpectedAssignment (sql : String)
  | joinWithoutFrom
  | ambiguousColumn (name : Label)
  | tooManyColumns (target : String) (named produced : Nat)
  | mergeInsertArity (columns values : Nat)
  | missingColumn (table : String) (name : Label)
  | missingInSource (names : List String)
  /-- A merge would have to say that its source lacks a column without a name. -/
  | namelessInSource
  | recursiveCte
  | notQuery (kind : String)
  | branchArity (kind : String) (left right : Nat)
  | unsupportedSource (kind : String)
  | valuesArity (width names : Nat)
  | recursiveView (name : String)
  | recursiveCache (name : String)
  | viewArity (name : String) (declared produced : Nat)
  | aliasArity (names columns : Nat)
  | windowOverAggregate
  | groupingNotColumn
  | groupPosition (position : Int)
  | unresolvedStar (qualifier : String)
  | starOverInferred (source : String)
  | unresolvedColumn (qualifier : Option String) (name : Label)
  | misplacedStar (sql : String)
  | misplacedWindow
  /-- A stored query's text could not be read. -/
  | unreadable (cause : ParseFailure)
  /-- The tree is none that a statement can have. -/
  | malformed
deriving DecidableEq

/-- The kinds of cause. -/
inductive PlanningError.Kind where
  | planShape
  | analysis
  | unreadable (cause : ParseFailure)
  | malformed
deriving DecidableEq

namespace PlanningError

/-- The kind of a cause. -/
def kind : PlanningError → Kind
  | .createWithoutTable _ => .planShape
  | .mergeWithoutSource => .planShape
  | .cacheWithoutTable => .planShape
  | .insertWithoutQuery => .planShape
  | .mergeTargetNotTable => .planShape
  | .unexpectedAssignment _ => .planShape
  | .joinWithoutFrom => .planShape
  | .unreadable cause => .unreadable cause
  | .namelessInSource => .malformed
  | .malformed => .malformed
  | _ => .analysis

/-- The text of the error. -/
def message : PlanningError → String
  | .createWithoutTable kind => "CREATE " ++ kind ++ " without a table name"
  | .mergeWithoutSource => "MERGE without a USING source"
  | .cacheWithoutTable => "CACHE TABLE without a table name"
  | .insertWithoutQuery => "INSERT without a query"
  | .mergeTargetNotTable => "MERGE target is not a table"
  | .unexpectedAssignment sql => "unexpected MERGE UPDATE assignment " ++ sql
  | .joinWithoutFrom => "JOIN without FROM"
  | .ambiguousColumn name => "column " ++ name.text ++ " is ambiguous"
  | .tooManyColumns target named produced =>
    target ++ " has " ++ Text.writeNat named ++ " columns but the query produces " ++
      Text.writeNat produced
  | .mergeInsertArity columns values =>
    "MERGE INSERT lists " ++ Text.writeNat columns ++ " columns but " ++ Text.writeNat values ++
      " values"
  | .missingColumn table name => table ++ " has no column " ++ name.text
  | .missingInSource names => "MERGE source does not provide " ++ ", ".intercalate names
  | .namelessInSource => ""
  | .recursiveCte => "recursive CTEs are not supported"
  | .notQuery kind => "expected a query, got " ++ kind
  | .branchArity kind left right =>
    Text.upper kind ++ " branches have " ++ Text.writeNat left ++ " and " ++ Text.writeNat right ++
      " columns"
  | .unsupportedSource kind => "unsupported FROM item " ++ kind
  | .valuesArity width names =>
    "VALUES rows have " ++ Text.writeNat width ++ " columns but " ++ Text.writeNat names ++
      " names are given"
  | .recursiveView name => "recursive view " ++ name
  | .recursiveCache name => "recursive cached query " ++ name
  | .viewArity name declared produced =>
    "view " ++ name ++ " declares " ++ Text.writeNat declared ++
      " columns but its query produces " ++ Text.writeNat produced
  | .aliasArity names columns =>
    Text.writeNat names ++ " column aliases given for " ++ Text.writeNat columns ++ " columns"
  | .windowOverAggregate => "window functions over aggregated queries are not supported"
  | .groupingNotColumn => "grouping sets support column references only"
  | .groupPosition position =>
    "GROUP BY position " ++ Text.writeInt position ++ " is not in the select list"
  | .unresolvedStar qualifier => "cannot resolve " ++ qualifier ++ ".*"
  | .starOverInferred source =>
    "cannot expand * over " ++ source ++ ": table is not in the catalog"
  | .unresolvedColumn none name => "cannot resolve column " ++ name.text
  | .unresolvedColumn (some qualifier) name =>
    "cannot resolve column " ++ qualifier ++ "." ++ name.text
  | .misplacedStar sql => sql ++ " is only allowed in the select list"
  | .misplacedWindow => "window functions are not allowed here"
  | .unreadable (.unsupported message) => message
  | .unreadable _ => ""
  | .malformed => ""

end PlanningError

end ColumnTrace
