import ColumnTrace.Attribute
import ColumnTrace.Identifier

/-!
# Resolved query plans

A plan is a tree of operators over relations whose columns are attributes. Expressions name columns
by attribute and may hold whole plans as scalar subqueries, so the two are one mutual family. An
operator for which lineage has no rule of its own (a filter, a sort, a limit) is an `operator` node
that is known by its name.
-/

set_option autoImplicit false

namespace ColumnTrace

/-- How the rows of two relations are put together. -/
inductive JoinType where
  | inner
  | leftOuter
  | rightOuter
  | fullOuter
  | cross
  | leftSemi
  | leftAnti
deriving DecidableEq, Inhabited

/-- The columns of the right side are columns of the join. -/
def JoinType.exposesRight : JoinType → Bool
  | .leftSemi => false
  | .leftAnti => false
  | _ => true

/-- The name by which a kind of join is known. -/
def JoinType.label : JoinType → String
  | .inner => "inner"
  | .leftOuter => "left_outer"
  | .rightOuter => "right_outer"
  | .fullOuter => "full_outer"
  | .cross => "cross"
  | .leftSemi => "left_semi"
  | .leftAnti => "left_anti"

/-- How long a view lasts. -/
inductive ViewType where
  | persisted
  | temporary
  | globalTemporary
deriving DecidableEq, Inhabited

/-- The name by which a kind of view is known. -/
def ViewType.label : ViewType → String
  | .persisted => "persisted"
  | .temporary => "temporary"
  | .globalTemporary => "global_temporary"

/-- What a write does with the rows that are there. -/
inductive WriteMode where
  | append
  | overwrite
  | overwriteDynamic
deriving DecidableEq, Inhabited

/-- The name by which a write mode is known. -/
def WriteMode.label : WriteMode → String
  | .append => "append"
  | .overwrite => "overwrite"
  | .overwriteDynamic => "overwrite_dynamic"

mutual

/-- A resolved expression. Only what lineage needs is told apart: attributes, scalar subqueries,
counts, and every other function or operator as a call. -/
inductive Expr where
  | column (a : Attribute)
  | literal (text : String)
  | call (name : String) (args : List Expr)
  | count (args : List Expr) (distinct : Bool)
  | subquery (plan : Plan)
  | windowed (function : Expr) (partition : List Expr) (order : List Expr)
  | aliased (definition : Alias)

/-- An expression that is given a name and an identity. -/
inductive Alias where
  | mk (child : Expr) (name : Label) (id : Int)

/-- An entry of a select list: a column as it is, or an expression under a name. -/
inductive SelectItem where
  | column (a : Attribute)
  | aliased (definition : Alias)

/-- The value that a merge gives to a column of its target. -/
inductive Assignment where
  | mk (key : Attribute) (value : Expr)

/-- What a merge does with a row. -/
inductive MergeAction where
  | update (assignments : List Assignment) (condition : Option Expr)
  | insert (assignments : List Assignment) (condition : Option Expr)
  | delete (condition : Option Expr)

/-- A node of an executed plan; the link leads back to the plan it was made for, where one was
recorded. -/
inductive PhysicalNode where
  | mk (name : String) (children : List PhysicalNode) (link : Option Plan)

/-- A named query of a `WITH` clause, known by a number. -/
inductive CteDefinition where
  | mk (id : Int) (child : Plan)

/-- A resolved plan. -/
inductive Plan where
  /-- Computes the columns of a select list. -/
  | project (items : List SelectItem) (child : Plan)
  /-- Groups rows and computes the columns of a select list. -/
  | aggregate (grouping : List Expr) (items : List SelectItem) (child : Plan)
  /-- Adds the columns of window functions. -/
  | window (functions : List Alias) (child : Plan) (partition : List Expr) (order : List Expr)
  /-- Gives one row for each projection; a projection has one entry for each column. -/
  | expand (projections : List (List Expr)) (output : List Attribute) (child : Plan)
  | join (left : Plan) (right : Plan) (type : JoinType) (condition : Option Expr)
  /-- Puts the rows of the branches together by position. Branches without a common output are
  statements of their own. -/
  | union (branches : List Plan) (output : List Attribute)
  /-- Reads a table; a relation without a name belongs to no catalog. -/
  | relation (output : List Attribute) (table : Option TableName)
  | localRelation (output : List Attribute) (rows : List (List String))
  | oneRow
  | view (name : TableName) (output : List Attribute) (body : Plan) (temporary : Bool)
  | cteDefinition (definition : CteDefinition)
  | cteReference (id : Int) (output : List Attribute)
  | withCte (definitions : List CteDefinition) (body : Plan)
  /-- Reads a stored result. -/
  | cached (output : List Attribute) (physical : PhysicalNode) (table : Option String)
  /-- An operator without a rule of its own. -/
  | operator (name : String) (children : List Plan) (output : List Attribute)
  | commandResult (output : List Attribute) (command : Plan)
  | alterView (name : TableName) (query : Plan)
  | createView (name : TableName) (query : Plan) (type : ViewType) (columns : List Label)
  | createTable (name : TableName) (query : Plan) (replace : Bool)
  | insertTable (table : Option TableName) (query : Plan) (mode : WriteMode)
  | insertDirectory (location : Option String) (query : Plan) (overwrite : Bool)
  | saveSource (query : Plan) (provider : Option String)
  | merge (target : Plan) (source : Plan) (matched : List MergeAction)
      (notMatched : List MergeAction)

end

instance : Inhabited Expr := ⟨.literal ""⟩

instance : Inhabited Plan := ⟨.oneRow⟩

namespace Alias

/-- The expression that is named. -/
def child : Alias → Expr
  | .mk child _ _ => child

/-- The name that is given. -/
def name : Alias → Label
  | .mk _ name _ => name

/-- The identity that is given. -/
def id : Alias → Int
  | .mk _ _ id => id

/-- The column that the alias makes. -/
def toAttribute (a : Alias) : Attribute := ⟨a.id, a.name, []⟩

end Alias

namespace SelectItem

/-- The column that the entry makes. -/
def toAttribute : SelectItem → Attribute
  | .column a => a
  | .aliased definition => definition.toAttribute

/-- The entry as an expression. -/
def toExpr : SelectItem → Expr
  | .column a => .column a
  | .aliased definition => .aliased definition

end SelectItem

namespace Assignment

/-- The column that is assigned. -/
def key : Assignment → Attribute
  | .mk key _ => key

/-- The value that it gets. -/
def value : Assignment → Expr
  | .mk _ value => value

end Assignment

/-- The assignments of an update or an insert; a deletion has none. -/
def MergeAction.assignments : MergeAction → List Assignment
  | .update assignments _ => assignments
  | .insert assignments _ => assignments
  | .delete _ => []

namespace PhysicalNode

/-- The nodes below. -/
def children : PhysicalNode → List PhysicalNode
  | .mk _ children _ => children

/-- The plan that the node was made for. -/
def link : PhysicalNode → Option Plan
  | .mk _ _ link => link

end PhysicalNode

namespace CteDefinition

/-- The number that references use. -/
def id : CteDefinition → Int
  | .mk id _ => id

/-- The named query. -/
def child : CteDefinition → Plan
  | .mk _ child => child

end CteDefinition

namespace Plan

/-- The columns of a plan's rows, in order. Commands have none. -/
def output : Plan → List Attribute
  | .project items _ => items.map SelectItem.toAttribute
  | .aggregate _ items _ => items.map SelectItem.toAttribute
  | .window functions child _ _ => child.output ++ functions.map Alias.toAttribute
  | .expand _ output _ => output
  | .join left right type _ =>
    if type.exposesRight then left.output ++ right.output else left.output
  | .union _ output => output
  | .relation output _ => output
  | .localRelation output _ => output
  | .oneRow => []
  | .view _ output _ _ => output
  | .cteDefinition (.mk _ child) => child.output
  | .cteReference _ output => output
  | .withCte _ body => body.output
  | .cached output _ _ => output
  | .operator _ _ output => output
  | .commandResult output _ => output
  | .alterView .. => []
  | .createView .. => []
  | .createTable .. => []
  | .insertTable .. => []
  | .insertDirectory .. => []
  | .saveSource .. => []
  | .merge .. => []

/-- The plans directly below. What a stored result or a command that writes no rows of its own holds
is not below it. -/
def children : Plan → List Plan
  | .project _ child => [child]
  | .aggregate _ _ child => [child]
  | .window _ child _ _ => [child]
  | .expand _ _ child => [child]
  | .join left right _ _ => [left, right]
  | .union branches _ => branches
  | .relation .. => []
  | .localRelation .. => []
  | .oneRow => []
  | .view _ _ body _ => [body]
  | .cteDefinition definition => [definition.child]
  | .cteReference .. => []
  | .withCte definitions body => definitions.map .cteDefinition ++ [body]
  | .cached .. => []
  | .operator _ children _ => children
  | .commandResult .. => []
  | .alterView .. => []
  | .createView .. => []
  | .createTable _ query _ => [query]
  | .insertTable _ query _ => [query]
  | .insertDirectory _ query _ => [query]
  | .saveSource .. => []
  | .merge target source _ _ => [target, source]

/-- The name by which a kind of node is known. -/
def nodeName : Plan → String
  | .project .. => "Project"
  | .aggregate .. => "Aggregate"
  | .window .. => "Window"
  | .expand .. => "Expand"
  | .join .. => "Join"
  | .union .. => "Union"
  | .relation .. => "Relation"
  | .localRelation .. => "LocalRelation"
  | .oneRow => "OneRowRelation"
  | .view .. => "View"
  | .cteDefinition _ => "CTERelationDef"
  | .cteReference .. => "CTERelationRef"
  | .withCte .. => "WithCTE"
  | .cached .. => "CachedRelation"
  | .operator name _ _ => name
  | .commandResult .. => "CommandResult"
  | .alterView .. => "AlterViewAs"
  | .createView .. => "CreateView"
  | .createTable .. => "CreateTableAsSelect"
  | .insertTable .. => "InsertIntoTable"
  | .insertDirectory .. => "InsertIntoDirectory"
  | .saveSource .. => "SaveIntoDataSource"
  | .merge .. => "MergeIntoTable"

/-- The plan under a named operator that leaves its columns as they are. -/
def wrap (name : String) (plan : Plan) : Plan := .operator name [plan] plan.output

end Plan

end ColumnTrace
