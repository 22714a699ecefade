import ColumnTrace.Attribute
import ColumnTrace.AttributeSet
import ColumnTrace.Catalog
import ColumnTrace.Command.Bundle
import ColumnTrace.Command.Options
import ColumnTrace.Command.Results
import ColumnTrace.Command.Run
import ColumnTrace.Command.SchemaSource
import ColumnTrace.Command.Stop
import ColumnTrace.Csv.Reader
import ColumnTrace.Csv.Writer
import ColumnTrace.Decimal.Shortest
import ColumnTrace.Files.Pattern
import ColumnTrace.Files.Search
import ColumnTrace.Files.Tree
import ColumnTrace.Identifier
import ColumnTrace.Json.Basic
import ColumnTrace.Json.Printer
import ColumnTrace.Json.Reader
import ColumnTrace.Json.Token
import ColumnTrace.Label
import ColumnTrace.Levels
import ColumnTrace.Lineage.Extract
import ColumnTrace.Lineage.Failure
import ColumnTrace.Lineage.Inline
import ColumnTrace.Lineage.Map
import ColumnTrace.Lineage.Record
import ColumnTrace.Lineage.Report
import ColumnTrace.Lineage.Statement
import ColumnTrace.Log
import ColumnTrace.Loggers
import ColumnTrace.Main
import ColumnTrace.OrderedMap
import ColumnTrace.Plan.Basic
import ColumnTrace.Plan.Expr
import ColumnTrace.Planner.Expression
import ColumnTrace.Planner.Grouping
import ColumnTrace.Planner.Merge
import ColumnTrace.Planner.Monad
import ColumnTrace.Planner.Query
import ColumnTrace.Planner.Relation
import ColumnTrace.Planner.Scope
import ColumnTrace.Planner.SelectList
import ColumnTrace.Planner.Statement
import ColumnTrace.PlanningError
import ColumnTrace.Proofs.Accounts
import ColumnTrace.Proofs.BareNames
import ColumnTrace.Proofs.CatalogKeys
import ColumnTrace.Proofs.Expressions
import ColumnTrace.Proofs.FittingTrees
import ColumnTrace.Proofs.Inlining.References
import ColumnTrace.Proofs.Inlining.Resolution
import ColumnTrace.Proofs.Inlining.Scopes
import ColumnTrace.Proofs.Inlining.Traversal
import ColumnTrace.Proofs.Lineage.Agreement
import ColumnTrace.Proofs.Lineage.AnsweredBranches
import ColumnTrace.Proofs.Lineage.AnsweredJoins
import ColumnTrace.Proofs.Lineage.AnsweredRequests
import ColumnTrace.Proofs.Lineage.AssignedColumns
import ColumnTrace.Proofs.Lineage.BorrowedColumns
import ColumnTrace.Proofs.Lineage.CombinedExpressions
import ColumnTrace.Proofs.Lineage.CorrelatedColumns
import ColumnTrace.Proofs.Lineage.CountedJoins
import ColumnTrace.Proofs.Lineage.DeclaredColumns
import ColumnTrace.Proofs.Lineage.Depth
import ColumnTrace.Proofs.Lineage.DepthLimits
import ColumnTrace.Proofs.Lineage.EverySource
import ColumnTrace.Proofs.Lineage.GroupingSets
import ColumnTrace.Proofs.Lineage.HiddenSides
import ColumnTrace.Proofs.Lineage.JoinIsolation
import ColumnTrace.Proofs.Lineage.KeyedAnswers
import ColumnTrace.Proofs.Lineage.ListedColumns
import ColumnTrace.Proofs.Lineage.MapSources
import ColumnTrace.Proofs.Lineage.MarksTakenOff
import ColumnTrace.Proofs.Lineage.NamedColumns
import ColumnTrace.Proofs.Lineage.Operators
import ColumnTrace.Proofs.Lineage.PairedColumns
import ColumnTrace.Proofs.Lineage.PassedRequests
import ColumnTrace.Proofs.Lineage.PlainColumns
import ColumnTrace.Proofs.Lineage.PositionalUnions
import ColumnTrace.Proofs.Lineage.QuerySteps
import ColumnTrace.Proofs.Lineage.Reference
import ColumnTrace.Proofs.Lineage.ReferenceSources
import ColumnTrace.Proofs.Lineage.RelatedTraces
import ColumnTrace.Proofs.Lineage.RenumberedMaps
import ColumnTrace.Proofs.Lineage.RenumberedPlans
import ColumnTrace.Proofs.Lineage.Replacements
import ColumnTrace.Proofs.Lineage.SelectedSources
import ColumnTrace.Proofs.Lineage.SkippedViews
import ColumnTrace.Proofs.Lineage.SubRequests
import ColumnTrace.Proofs.Lineage.SubqueryMarks
import ColumnTrace.Proofs.Lineage.TracedPlans
import ColumnTrace.Proofs.Lineage.TransparentOperators
import ColumnTrace.Proofs.Lineage.UnknownColumns
import ColumnTrace.Proofs.Lineage.UnmarkedAnswers
import ColumnTrace.Proofs.Lineage.WrittenTables
import ColumnTrace.Proofs.LowerCase
import ColumnTrace.Proofs.MapEntries
import ColumnTrace.Proofs.Marks
import ColumnTrace.Proofs.Namespaces
import ColumnTrace.Proofs.Outcomes
import ColumnTrace.Proofs.Planner.AgreeingExpressions
import ColumnTrace.Proofs.Planner.AgreeingQueries
import ColumnTrace.Proofs.Planner.AgreeingRuns
import ColumnTrace.Proofs.Planner.AnsweredQueries
import ColumnTrace.Proofs.Planner.CatalogObjects
import ColumnTrace.Proofs.Planner.ClosedStatements
import ColumnTrace.Proofs.Planner.DerivedColumns
import ColumnTrace.Proofs.Planner.Ensures
import ColumnTrace.Proofs.Planner.Expansion
import ColumnTrace.Proofs.Planner.ExpansionDepth
import ColumnTrace.Proofs.Planner.ExtractedQueries
import ColumnTrace.Proofs.Planner.FreshExpressions
import ColumnTrace.Proofs.Planner.FreshQueries
import ColumnTrace.Proofs.Planner.FreshRuns
import ColumnTrace.Proofs.Planner.FreshStatements
import ColumnTrace.Proofs.Planner.GroupingNumbers
import ColumnTrace.Proofs.Planner.InferredColumns
import ColumnTrace.Proofs.Planner.PlacedExpressions
import ColumnTrace.Proofs.Planner.PlacedQueries
import ColumnTrace.Proofs.Planner.PlanRequests
import ColumnTrace.Proofs.Planner.RenumberedExpressions
import ColumnTrace.Proofs.Planner.RenumberedQueries
import ColumnTrace.Proofs.Planner.RenumberedRuns
import ColumnTrace.Proofs.Planner.RenumberedStatements
import ColumnTrace.Proofs.Planner.RolledGroups
import ColumnTrace.Proofs.Planner.ScalarExpressions
import ColumnTrace.Proofs.Planner.Sites
import ColumnTrace.Proofs.Planner.SoundExpressions
import ColumnTrace.Proofs.Planner.SoundPlans
import ColumnTrace.Proofs.Planner.SoundQueries
import ColumnTrace.Proofs.Planner.TraceablePlans
import ColumnTrace.Proofs.Plans.Introduced
import ColumnTrace.Proofs.Plans.Outline
import ColumnTrace.Proofs.Plans.Parts
import ColumnTrace.Proofs.Plans.Renumbering
import ColumnTrace.Proofs.Plans.Replacement
import ColumnTrace.Proofs.Representatives
import ColumnTrace.Proofs.Schemas.DraftTables
import ColumnTrace.Proofs.Schemas.Drafts
import ColumnTrace.Proofs.Schemas.KeptRows
import ColumnTrace.Proofs.Sessions.LatestDefinitions
import ColumnTrace.Scalar
import ColumnTrace.Schema
import ColumnTrace.Schema.Rows
import ColumnTrace.Session
import ColumnTrace.Settings
import ColumnTrace.Sql.Grouping
import ColumnTrace.Sql.Json
import ColumnTrace.Sql.Library
import ColumnTrace.Sql.Query
import ColumnTrace.Sql.Statement
import ColumnTrace.Sql.Tree
import ColumnTrace.Text.Blank
import ColumnTrace.Text.Case
import ColumnTrace.Text.CaseTable
import ColumnTrace.Text.Half
import ColumnTrace.Text.Lines
import ColumnTrace.Text.Numeral
import ColumnTrace.Text.Printable
import ColumnTrace.Text.Quoted
import ColumnTrace.Text.Ranges
import ColumnTrace.Text.Segments
import ColumnTrace.Traced
import ColumnTrace.Proofs.Unions
import ColumnTrace.Proofs.Lineage.MergedMaps
import ColumnTrace.Proofs.Lineage.ResolvedSteps
import ColumnTrace.Proofs.Lineage.QualifiedNames
import ColumnTrace.Proofs.Lineage.RecordedSources
import ColumnTrace.Proofs.TableNames
import ColumnTrace.Proofs.NormalForms
import ColumnTrace.Proofs.Plans.Operands
import ColumnTrace.Proofs.Plans.RememberedPlans
