import ColumnTrace.Planner.Grouping
import ColumnTrace.Planner.Relation

/-!
# Queries

A query is planned from its `FROM` clause up. The queries below it are planned one level down: a
`Tier` plans all queries and expressions up to a height of their trees, and `Tier.upTo` makes it
from the tier below. A stored query is planned on its own tree, outside the named queries of the
statement; how many stored queries may be open at once is bounded by the number of tables that are
named anywhere, since no name is expanded inside its own expansion.
-/

set_option autoImplicit false

namespace ColumnTrace

/-- How queries and expressions up to some height are planned. -/
structure Tier where
  query : Scope → Sql.Node → Planner Plan
  resolve : Resolver

/-- The plan under a sort and a limit, where the node has them. -/
def withModifiers (node : Sql.Node) (plan : Plan) : Plan :=
  let plan := if (node.arg "order").isGiven then plan.wrap "Sort" else plan
  if (node.arg "limit").isGiven then plan.wrap "GlobalLimit" else plan

/-- The plan under an operator, where an argument of the node asks for it. -/
def wrapIf (node : Sql.Node) (argument name : String) (plan : Plan) : Plan :=
  if (node.arg argument).isGiven then plan.wrap name else plan

namespace Planner

/-- The columns of an unknown table: those that its name qualifies anywhere in the statement, and
if it is the only unknown one, the query's own columns without qualifier that nothing provides. -/
def inferredColumns (select : Sql.Node) (only : Bool) (provided : List Label)
    (term : Sql.Node) : Planner (List Label) := do
  let qualified := (← context).root.qualifiedReferences term.sourceNames
  let own := if only then select.ownUnqualified.filter (!provided.contains ·) else []
  return (qualified ++ own).eraseDups

/-- A relation of a `FROM` clause: planned, or the node of an unknown table. -/
def knownOrUnknown (stored : String → Planner Plan) (query : Scope → Sql.Node → Planner Plan)
    (outer : Scope) (term : Sql.Value) : Planner (Planned ⊕ Sql.Node) := do
  let node ← ofExcept term.toNode
  if ← isUnknownTable node then return .inr node
  else return .inl (← source stored query outer node)

/-- The relations of a `FROM` clause in order. The known ones are planned first; they and the
aliases of the select list tell which columns an unknown table need not have. -/
def relations (stored : String → Planner Plan) (query : Scope → Sql.Node → Planner Plan)
    (outer : Scope) (select : Sql.Node) (terms : List Sql.Value) : Planner (List Planned) := do
  let found ← terms.mapM (knownOrUnknown stored query outer)
  let only := found.countP Sum.isRight == 1
  let named ← ofExcept select.namedProjections
  let provided := (found.filterMap Sum.getLeft?).flatMap fun p => p.source.output.map Attribute.name
  let provided := provided ++ named.map fun p => some (normalize p.aliasName)
  found.mapM fun
    | .inl planned => pure planned
    | .inr term => do inferred term (← inferredColumns select only provided term)

/-- A relation is joined to those before it, and its source to their frame. -/
def joinNext (left : Plan × Frame) (join : Sql.Node × Planned) : Sql.Reading (Plan × Frame) := do
  let type ← join.1.joinType
  let sources := left.2.sources ++ if type.exposesRight then [join.2.source] else []
  return (.join left.1 join.2.plan type none,
    { sources, shared := left.2.shared ++ (← join.1.usingColumns) })

/-- The source of a query, with the frame in which its columns are resolved. -/
def fromClause (stored : String → Planner Plan) (query : Scope → Sql.Node → Planner Plan)
    (outer : Scope) (select : Sql.Node) : Planner (Plan × Frame) := do
  let term ← ofExcept select.fromTerm
  let joins ← ofExcept select.joins
  if !term.isThere then
    if joins.isEmpty then return (.oneRow, .ofSources []) else fail .joinWithoutFrom
  else
    let joins ← ofExcept (joins.mapM Sql.Value.toNode)
    let terms := term :: joins.map (·.arg "this")
    match ← relations stored query outer select terms with
    | first :: rest =>
      ofExcept ((joins.zip rest).foldlM joinNext (first.plan, .ofSources [first.source]))
    | [] => fail .malformed

/-- A simple query. -/
def select (stored : String → Planner Plan) (below : Tier) (outer : Scope) (node : Sql.Node) :
    Planner Plan := do
  let (source, frame) ← fromClause stored below.query outer node
  let scope := frame :: outer
  let source := wrapIf node "where" "Filter" source
  let plan ←
    if ← ofExcept node.isAggregate then do
      pure (wrapIf node "having" "Filter" (← below.resolve.aggregate node scope source))
    else do
      let (items, windows) ← (below.resolve.selectList scope node).run (some [])
      let functions := windows.getD []
      let source := if functions.isEmpty then source else .window functions source [] []
      pure (Plan.project items source)
  return withModifiers node (wrapIf node "distinct" "Distinct" plan)

/-- Two queries put together by position. -/
def setOperation (below : Tier) (outer : Scope) (node : Sql.Node) : Planner Plan := do
  let left ← below.query outer (← ofExcept (node.arg "this").toNode)
  let right ← below.query outer (← ofExcept (node.arg "expression").toNode)
  if left.output.length ≠ right.output.length then
    fail (.branchArity node.key left.output.length right.output.length)
  let plan ←
    if node.is "Intersect" then pure (Plan.join left right .leftSemi none)
    else if node.is "Except" then pure (Plan.join left right .leftAnti none)
    else pure (Plan.union [left, right] (← freshLike left.output))
  let keepsDuplicates := match node.arg "distinct" with
    | .scalar (.bool false) => true
    | _ => false
  return withModifiers node (if keepsDuplicates then plan else plan.wrap "Distinct")

/-- One named query of a `WITH` clause. -/
def cteDefinition (query : Scope → Sql.Node → Planner Plan) (cte : Sql.Node) :
    Planner (String × CteDefinition) := do
  let child ← query [] (← ofExcept (cte.arg "this").toNode)
  let child ← renameColumns (← ofExcept cte.aliasColumns) child
  return (normalize cte.aliasName, .mk (← freshCteId) child)

/-- The named queries of a `WITH` clause, each in the scope of those before it, and after them what
the clause stands over. -/
def withDefinitions (query : Scope → Sql.Node → Planner Plan) (build : Planner Plan) :
    List Sql.Value → Planner (List CteDefinition × Plan)
  | [] => do return ([], ← build)
  | cte :: rest => do
    let (name, definition) ← cteDefinition query (← ofExcept cte.toNode)
    let (definitions, body) ← within (.scope name definition) (withDefinitions query build rest)
    return (definition :: definitions, body)

/-- The named queries of a `WITH` clause go one after the other into the innermost scope, and what
the clause stands over is planned after them. -/
def defineAll (query : Scope → Sql.Node → Planner Plan) (build : Planner Plan) :
    List Sql.Value → Action (List CteDefinition × Plan)
  | [] => do return ([], ← build.action)
  | cte :: rest => do
    let node ← (ofExcept cte.toNode : Planner Sql.Node).action
    let (name, definition) ← (cteDefinition query node).action
    Action.define name definition
    let (definitions, body) ← defineAll query build rest
    return (definition :: definitions, body)

/-- The loop over named queries changes nothing on the stacks but the innermost scope, whether it
ends or fails, and means that each of them is in scope for what follows. -/
theorem exists_defineAll_eq (query : Scope → Sql.Node → Planner Plan) (build : Planner Plan)
    (s : Surroundings) (stack : Stacks) (ctes : List Sql.Value) :
    ∀ (scope : List (String × CteDefinition)) (numbers : Numbers), ∃ left,
      (∃ last, left = { stack with scopes := last :: stack.scopes }) ∧
      defineAll query build ctes s ⟨numbers, { stack with scopes := scope :: stack.scopes }⟩ =
        (withDefinitions query build ctes
          (Stacks.context { stack with scopes := scope :: stack.scopes } s) numbers).leaving
          left := by
  induction ctes with
  | nil =>
    intro scope numbers
    exact ⟨_, ⟨scope, rfl⟩,
      (do return ([], ← build) : Planner (List CteDefinition × Plan)).agrees s ⟨numbers, _⟩⟩
  | cons cte rest ih =>
    intro scope numbers
    apply exists_bind_eq_leaving
    · exact ⟨scope, rfl⟩
    intro node numbers
    apply exists_bind_eq_leaving
    · exact ⟨scope, rfl⟩
    rintro ⟨name, definition⟩ numbers
    obtain ⟨left, hlast, hrest⟩ := ih ((name, definition) :: scope) numbers
    refine ⟨left, hlast, ?_⟩
    -- one scope with the query in front looks the query up like a scope of its own for it
    show Action.bind (defineAll query build rest) _ s ⟨numbers, { stack with
      scopes := ((name, definition) :: scope) :: stack.scopes }⟩ = _
    have hscope : within (.scope name definition) (withDefinitions query build rest)
        (Stacks.context { stack with scopes := scope :: stack.scopes } s) numbers =
      withDefinitions query build rest (Stacks.context { stack with
        scopes := ((name, definition) :: scope) :: stack.scopes } s) numbers := rfl
    dsimp only
    rw [Action.bind, hrest, bind_apply, hscope, Outcome.leaving]
    dsimp only
    cases (withDefinitions query build rest (Stacks.context { stack with
      scopes := ((name, definition) :: scope) :: stack.scopes } s) numbers).result <;> rfl

/-- The named queries of a `WITH` clause and what it stands over, planned in a scope of its own. -/
def withScope (query : Scope → Sql.Node → Planner Plan) (build : Planner Plan)
    (ctes : List Sql.Value) : Planner (List CteDefinition × Plan) where
  action := (defineAll query build ctes).between
    (fun stack => { stack with scopes := [] :: stack.scopes })
    (fun _ stack => { stack with scopes := stack.scopes.tail })
  meaning := (withDefinitions query build ctes).meaning
  agrees := by
    intro s memory
    obtain ⟨_, ⟨last, rfl⟩, hloop⟩ :=
      exists_defineAll_eq query build s memory.stack ctes [] memory.numbers
    rw [Action.between_apply, hloop]
    rfl

/-- Planned in one scope, the named queries of a clause mean what each means in the scope of those
before it. -/
theorem withScope_eq (query : Scope → Sql.Node → Planner Plan) (build : Planner Plan)
    (ctes : List Sql.Value) : withScope query build ctes = withDefinitions query build ctes :=
  ext fun _ _ => rfl

/-- A plan under the `WITH` clause of a node, where it has one. -/
def withClause (query : Scope → Sql.Node → Planner Plan) (node : Sql.Node) (build : Planner Plan) :
    Planner Plan := do
  match ← ofExcept node.withClause.nodeIfThere with
  | none => build
  | some clause =>
    if (clause.arg "recursive").isGiven then fail .recursiveCte
    let (definitions, body) ← withScope query build (← ofExcept clause.expressions)
    return .withCte definitions body

/-- A query, where the tier below plans the queries and expressions in it. -/
def query (stored : String → Planner Plan) (below : Tier) (outer : Scope) (node : Sql.Node) :
    Planner Plan :=
  if node.is "Subquery" then do
    return withModifiers node (← below.query outer (← ofExcept (node.arg "this").toNode))
  else if !node.isQuery then fail (.notQuery node.key)
  else withClause below.query node
    (if node.is "Select" then select stored below outer node else setOperation below outer node)

end Planner

/-- The planning of trees up to a height. -/
def Tier.upTo (stored : String → Planner Plan) : Nat → Tier
  | 0 => ⟨fun _ _ => Planner.fail .malformed, fun _ _ => (Planner.fail .malformed : Planner Expr)⟩
  | height + 1 =>
    let below := Tier.upTo stored height
    let query := Planner.query stored below
    ⟨query, Resolver.step query below.resolve⟩

namespace Planner

/-- The plan of the text of a stored query, with so many stored queries open at once. -/
def storedQuery : Nat → String → Planner Plan
  | 0, _ => fail .malformed
  | open_ + 1, sql => do
    let node ← ofExcept (((← context).library.first sql).mapError PlanningError.unreadable)
    within (.detached node) ((Tier.upTo (storedQuery open_) node.height).query [] node)

end Planner

/-- One more than the tables that are named in a statement and in all texts that were read. -/
def openLimit (library : Sql.Library) (statement : Sql.Node) : Nat :=
  statement.tableCount + library.tableCount + 1

end ColumnTrace
