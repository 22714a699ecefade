import ColumnTrace.Planner.Merge

/-!
# Statements

A statement is planned while it stands on the stack of trees whose columns are inferred
(`runStatement`). A statement without data flow between columns has a plan that is known by its kind
only.
-/

set_option autoImplicit false

namespace ColumnTrace

namespace Planner

/-- The query under the columns of a target: a column of another name is renamed. -/
def align (target : String) (names : List Label) (query : Plan) : Planner Plan := do
  if names.length < query.output.length then
    fail (.tooManyColumns target names.length query.output.length)
  let pairs := query.output.zip names
  if pairs.all fun pair => pair.1.name == pair.2 then return query
  let items ← pairs.mapM fun pair => do
    if pair.1.name == pair.2 then return SelectItem.column pair.1
    else return .aliased (.mk (.column pair.1) pair.2 (← freshId))
  return .project items query

/-- The first of several lists that is filled. -/
def firstFilled (lists : List (List Label)) : List Label :=
  (lists.find? fun names => !names.isEmpty).getD []

/-- The rows of an insert: a query, or rows that are written out. -/
def insertRows (tier : Tier) (rows : Sql.Value) : Planner Plan := do
  let node ← ofExcept rows.toNode
  if node.is "Values" then return (← values node node).plan else tier.query [] node

/-- What an insert does with the rows that are there. -/
def insertMode (node : Sql.Node) : Sql.Reading WriteMode := do
  if !node.isOverwrite then return .append
  else return if ← node.hasDynamicPartitions then .overwriteDynamic else .overwrite

/-- An insert into a table or a directory. -/
def insert (tier : Tier) (node : Sql.Node) : Planner Plan := do
  let rows := node.arg "expression"
  if !rows.isThere then fail .insertWithoutQuery
  let query ← withClause tier.query node (insertRows tier rows)
  match node.insertDirectory with
  | some location => return .insertDirectory (some location) query node.isOverwrite
  | none =>
    let (target, columns) ← ofExcept node.insertTarget
    match target with
    | none => return .insertTable none query .append
    | some table =>
      let name := table.qualifiedName
      let names := firstFilled
        [columns, (← catalog).columns name, query.output.map Attribute.name]
      let mode ← ofExcept (insertMode node)
      return .insertTable (some table.tableName) (← align name names query) mode

/-- The creation of a view or a table from a query; any other creation has no data flow. -/
def create (tier : Tier) (node : Sql.Node) : Planner Plan := do
  let kind ← ofExcept node.createKind
  match node.expression?.filter Sql.Node.isQueryOrSubquery with
  | some query =>
    if kind = "VIEW" then do
      let (table, columns) ← ofExcept node.createTarget
      let plan ← withClause tier.query node (tier.query [] query)
      return .createView table.tableName plan (← ofExcept node.viewType) columns
    else if kind = "TABLE" then do
      let (table, _) ← ofExcept node.createTarget
      let plan ← withClause tier.query node (tier.query [] query)
      return .createTable table.tableName plan node.isReplace
    else return .operator ("Create" ++ Text.titled kind) [] []
  | none => return .operator ("Create" ++ Text.titled kind) [] []

/-- The plan of a statement, where the tier reaches its height. -/
def statement (stored : String → Planner Plan) (tier : Tier) (node : Sql.Node) : Planner Plan := do
  match ← ofExcept (node.alterView? (← context).engine) with
  | some (name, sql) => return .alterView (TableName.parse name) (← stored sql)
  | none =>
    if node.isQueryOrSubquery then tier.query [] node
    else if node.is "Insert" then insert tier node
    else if node.is "Create" then create tier node
    else if node.is "Merge" then merge stored tier node
    else if node.is "Cache" then return .operator "CacheTableAsSelect" [] []
    else
      note (.debug (node.kind ++ " statement has no column data flow"))
      return .operator node.kind [] []

end Planner

/-- The planning of a statement. -/
def Surroundings.planner (s : Surroundings) (statement : Sql.Node) : Planner Plan :=
  let stored := Planner.storedQuery (openLimit s.library statement)
  Planner.statement stored (Tier.upTo stored statement.height) statement

/-- What a planner makes of a statement, which stands on the stack of trees as long as it is
planned. -/
def runStatement (s : Surroundings) (statement : Sql.Node) : Memory → Ending Plan :=
  (Planner.within (.root statement) (s.planner statement)).action s

/-- What a planner makes of the first statement of a text. -/
def runText (s : Surroundings) (text : String) : Memory → Ending Plan :=
  match s.library.first text with
  | .ok statement => runStatement s statement
  | .error cause => (Planner.fail (.unreadable cause) : Planner Plan).action s

/-- The plan of a statement from a planner that is not planning, with numbers that go on from those
that were handed out before. -/
def planStatement (s : Surroundings) (statement : Sql.Node) (numbers : Numbers) : Outcome Plan :=
  (runStatement s statement ⟨numbers, .empty⟩).outcome

/-- The plan of the first statement of a text from a planner that is not planning. -/
def planText (s : Surroundings) (text : String) (numbers : Numbers) : Outcome Plan :=
  (runText s text ⟨numbers, .empty⟩).outcome

/-- What is known around a statement before it is planned. -/
def Surroundings.context (s : Surroundings) (statement : Sql.Node) : Context :=
  { catalog := s.catalog, library := s.library, engine := s.engine, root := statement
    ctes := [], expanding := [] }

/-- A planner plans a statement in what its stacks make known, whatever they hold, and leaves them
as they were. -/
theorem runStatement_eq (s : Surroundings) (statement : Sql.Node) (memory : Memory) :
    runStatement s statement memory =
      (s.planner statement ((Bracket.root statement).change (memory.stack.context s))
        memory.numbers).leaving memory.stack := by
  rw [runStatement, Planner.agrees]
  rfl

/-- A planner that is not planning plans a statement in what is known around it. -/
theorem planStatement_eq (s : Surroundings) (statement : Sql.Node) :
    planStatement s statement = s.planner statement (s.context statement) := by
  funext numbers
  rw [planStatement, runStatement_eq]
  rfl

end ColumnTrace
