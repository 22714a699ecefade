import ColumnTrace.Lineage.Statement
import ColumnTrace.Planner.Statement

/-!
# Sessions

A session runs the statements of scripts one after the other. A statement gets the next execution
number, is planned, is traced, and then changes the catalog, so that later statements find what
earlier ones made. A statement that cannot be planned leaves a warning and no lineage, and so does a
statement that cannot be traced; a text that falls into no tokens or an engine that is unknown ends
the run.
-/

set_option autoImplicit false

namespace ColumnTrace

/-- What one statement gave: its execution number, its text, and its lineage where it has one. -/
structure StatementLineage where
  id : Nat
  sql : String
  lineage : Option LineageRecord

/-- A session between two statements. -/
structure Session where
  catalog : Catalog
  library : Sql.Library
  engine : String
  settings : Settings
  planner : Memory
  nextId : Nat

/-- What a step of a session leaves: the session, the log, and a value or a failure. -/
structure Step (α : Type) where
  session : Session
  log : Log
  result : Except PlanningError α

/-- A failure of planning that ends the run, and does not concern the statement only: a stored
query's text falls into no tokens, an engine is unknown, or a tree is none that a statement can
have. -/
def PlanningError.endsRun (e : PlanningError) : Bool :=
  match e.kind with
  | .planShape => false
  | .analysis => false
  | .unreadable .notStatement => false
  | .unreadable _ => true
  | .malformed => true

/-- The words for a text that is no statement, in a log. -/
def notStatementMark : String := "<ParseError>"

/-- The words of a failure in a log. -/
def PlanningError.logged : PlanningError → String
  | .unreadable .notStatement => notStatementMark
  | e => e.message

namespace Session

/-- A session that has run nothing. -/
def start (catalog : Catalog) (library : Sql.Library) (engine : String) (settings : Settings) :
    Session :=
  ⟨catalog, library, Text.lower engine, settings, .new, 1⟩

/-- What the planner needs of the session. -/
def surroundings (s : Session) : Surroundings := ⟨s.catalog, s.library, s.engine⟩

/-- The catalog after a statement with this plan. -/
def applied (s : Session) (statement : Sql.Node) (plan : Plan) :
    Except PlanningError Catalog :=
  let catalog := s.catalog
  match plan with
  | .createTable name query _ =>
    .ok (catalog.registerTable name.qualifiedName (query.output.map Attribute.name))
  | .createView name _ type columns => do
    let query ← (statement.arg "expression").toNode
    return catalog.registerView name.qualifiedName (← query.write s.engine) columns
      (type ≠ .persisted)
  | .alterView name _ => do
    match ← statement.alterView? s.engine with
    | none => throw .malformed
    | some (_, sql) =>
      let existing := catalog.view? name.qualifiedName
      return catalog.registerView name.qualifiedName sql ((existing.map (·.columns)).getD [])
        ((existing.map (·.temporary)).getD false)
  | _ => do
    if statement.is "Create" then
      if (← statement.createKind) = "TABLE" then
        let columns ← statement.columnDefinitions
        if columns.isEmpty then return catalog
        let (table, _) ← statement.createTarget
        return catalog.registerTable table.qualifiedName columns
      else return catalog
    else if statement.is "Cache" then
      let (name, query) ← statement.cacheTarget
      match ← query.nodeIfThere with
      | some query => return catalog.registerCache name (← query.write s.engine)
      | none => return catalog
    else match statement.this?.filter (·.is "Table") with
      | some table =>
        if statement.is "Uncache" then return catalog.uncache table.qualifiedName
        else if statement.is "Drop" then return catalog.drop table.qualifiedName
        else return catalog
      | none => return catalog

/-- One statement is planned, traced and applied. -/
def execute (s : Session) (statement : Sql.Node) : Step StatementLineage :=
  let id := s.nextId
  let s := { s with nextId := id + 1 }
  match statement.write s.engine with
  | .error e => ⟨s, [], .error e⟩
  | .ok sql =>
    let planned := runStatement s.surroundings statement s.planner
    let s := { s with planner := planned.memory }
    match planned.result with
    | .error e =>
      if e.endsRun then ⟨s, planned.log, .error e⟩
      else
        let warning := LogEntry.warning ("Statement[" ++ Text.writeNat id ++
          "] could not be planned: " ++ e.logged)
        ⟨s, planned.log ++ [warning], .ok ⟨id, sql, none⟩⟩
    | .ok plan =>
      let (log, lineage) := plan.recordOrWarn s.settings (Text.writeNat id)
      match s.applied statement plan with
      | .error e => ⟨s, planned.log ++ log, .error e⟩
      | .ok catalog => ⟨{ s with catalog }, planned.log ++ log, .ok ⟨id, sql, lineage⟩⟩

/-- Statements are executed one after the other. -/
def executeAll (s : Session) : List Sql.Node → Step (List StatementLineage)
  | [] => ⟨s, [], .ok []⟩
  | statement :: rest =>
    let first := s.execute statement
    match first.result with
    | .error e => ⟨first.session, first.log, .error e⟩
    | .ok lineage =>
      let others := first.session.executeAll rest
      ⟨others.session, first.log ++ others.log, others.result.map (lineage :: ·)⟩

/-- The statements of a script are executed; a text that is none leaves an error in the log. -/
def run (s : Session) (script : String) : Step (List StatementLineage) :=
  match s.library.statements script with
  | .ok statements => s.executeAll statements
  | .error .notStatement => ⟨s, [.error ("Parse error: " ++ notStatementMark)], .ok []⟩
  | .error cause => ⟨s, [], .error (.unreadable cause)⟩

end Session

end ColumnTrace
