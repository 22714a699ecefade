import ColumnTrace.Catalog
import ColumnTrace.Log
import ColumnTrace.Plan.Basic
import ColumnTrace.PlanningError
import ColumnTrace.Sql.Library

/-!
# What a planner keeps

A planner keeps the next numbers and three stacks: of the trees whose columns are inferred, of the
scopes of named queries, and of the names that are being expanded. An `Action` changes them, keeps a
log, and may fail; what it changed before a failure stays changed. An entry that stands on a stack
for a part of the planning only is taken off again by an action that follows that part whether it
has a value or fails (`Action.between`).
-/

set_option autoImplicit false

namespace ColumnTrace

/-- What planning needs beside the statement: the catalog, the texts that were read, the engine. -/
structure Surroundings where
  catalog : Catalog
  library : Sql.Library
  engine : String

/-- What is known while a statement is planned: the catalog, the texts that were read, the engine,
the statement (or stored query) whose columns are inferred, the named queries in scope, the latest
first, and the views and stored results that are being expanded. -/
structure Context where
  catalog : Catalog
  library : Sql.Library
  engine : String
  root : Sql.Node
  ctes : List (String × CteDefinition)
  expanding : List String

/-- The next number for a column and for a named query. -/
structure Numbers where
  column : Nat
  cte : Nat
deriving DecidableEq

/-- The numbers that a planner starts with. -/
def Numbers.start : Numbers := ⟨1, 1⟩

instance : Inhabited Numbers := ⟨.start⟩

/-- The stacks of a planner, each with its top in front: the trees whose columns are inferred, the
scopes of `WITH` clauses with the latest of their named queries first, and the names of the views
and stored results that are being expanded. -/
structure Stacks where
  roots : List Sql.Node
  scopes : List (List (String × CteDefinition))
  expanding : List String

/-- The stacks between two requests. -/
def Stacks.empty : Stacks := ⟨[], [], []⟩

/-- What is known where the stacks stand so. Inner scopes come before outer ones, and columns are
inferred from the topmost tree. -/
def Stacks.context (stack : Stacks) (s : Surroundings) : Context :=
  { catalog := s.catalog, library := s.library, engine := s.engine
    root := stack.roots.headD default, ctes := stack.scopes.flatten
    expanding := stack.expanding }

/-- What a planner keeps while it plans, and from one request to the next. -/
structure Memory where
  numbers : Numbers
  stack : Stacks

/-- The memory of a new planner. -/
def Memory.new : Memory := ⟨.start, .empty⟩

/-- What an action leaves: the memory, the log, and a value or a failure. -/
structure Ending (α : Type) where
  memory : Memory
  log : Log
  result : Except PlanningError α

/-- Something that a planner does. -/
def Action (α : Type) : Type := Surroundings → Memory → Ending α

namespace Action

variable {α β : Type}

/-- Nothing is done. -/
protected def pure (a : α) : Action α := fun _ memory => ⟨memory, [], .ok a⟩

/-- The second action goes on from the value and the memory of the first. -/
protected def bind (x : Action α) (f : α → Action β) : Action β := fun s memory =>
  let first := x s memory
  match first.result with
  | .ok a =>
    let second := f a s first.memory
    ⟨second.memory, first.log ++ second.log, second.result⟩
  | .error e => ⟨first.memory, first.log, .error e⟩

instance : Monad Action where
  pure := Action.pure
  bind := Action.bind

/-- The stacks are changed. -/
def change (f : Stacks → Stacks) : Action PUnit := fun _ memory =>
  ⟨{ memory with stack := f memory.stack }, [], .ok ⟨⟩⟩

/-- The stacks are changed after the action, whether it has a value or fails. -/
def closing (x : Action α) (leave : Stacks → Stacks) : Action α := fun s memory =>
  let ending := x s memory
  { ending with memory := { ending.memory with stack := leave ending.memory.stack } }

/-- The stacks are changed before the action and, whether it has a value or fails, after it; the
stacks as they stood before are at hand then. -/
def between (enter : Stacks → Stacks) (leave : Stacks → Stacks → Stacks) (x : Action α) :
    Action α := fun s memory =>
  closing (do change enter; x) (leave memory.stack) s memory

/-- The action runs on the changed stacks; its log and its result are not touched. -/
theorem between_apply (enter : Stacks → Stacks) (leave : Stacks → Stacks → Stacks) (x : Action α)
    (s : Surroundings) (memory : Memory) :
    between enter leave x s memory =
      let ending := x s ⟨memory.numbers, enter memory.stack⟩
      ⟨⟨ending.memory.numbers, leave memory.stack ending.memory.stack⟩, ending.log,
        ending.result⟩ := rfl

/-- A named query is put into the innermost scope, before an older one of its name. -/
def define (name : String) (definition : CteDefinition) : Action PUnit := change fun stack =>
  match stack.scopes with
  | [] => { stack with scopes := [[(name, definition)]] }
  | scope :: outer => { stack with scopes := ((name, definition) :: scope) :: outer }

end Action

/-- Two changes of the stacks, the second of which takes back the first, and what the first comes to
for what is known. -/
structure Bracket where
  enter : Stacks → Stacks
  /-- What is left of the stacks as they stood before and as they stand now. -/
  leave : Stacks → Stacks → Stacks
  change : Context → Context
  context_enter : ∀ (stack : Stacks) (s : Surroundings),
    (enter stack).context s = change (stack.context s)
  leave_enter : ∀ stack, leave stack (enter stack) = stack

namespace Bracket

/-- The columns of unknown tables are inferred from a tree. -/
def root (node : Sql.Node) : Bracket where
  enter := fun stack => { stack with roots := node :: stack.roots }
  leave := fun _ stack => { stack with roots := stack.roots.tail }
  change := fun context => { context with root := node }
  context_enter := fun _ _ => rfl
  leave_enter := fun _ => rfl

/-- A tree stands on its own: columns are inferred from it, and the scopes are put aside. -/
def detached (node : Sql.Node) : Bracket where
  enter := fun stack => { stack with roots := node :: stack.roots, scopes := [] }
  leave := fun before stack =>
    { stack with roots := stack.roots.tail, scopes := before.scopes }
  change := fun context => { context with root := node, ctes := [] }
  context_enter := fun _ _ => rfl
  leave_enter := fun _ => rfl

/-- A name counts as being expanded. -/
def expanding (name : String) : Bracket where
  enter := fun stack => { stack with expanding := name :: stack.expanding }
  leave := fun _ stack => { stack with expanding := stack.expanding.tail }
  change := fun context => { context with expanding := name :: context.expanding }
  context_enter := fun _ _ => rfl
  leave_enter := fun _ => rfl

/-- A named query is in scope. -/
def scope (name : String) (definition : CteDefinition) : Bracket where
  enter := fun stack => { stack with scopes := [(name, definition)] :: stack.scopes }
  leave := fun _ stack => { stack with scopes := stack.scopes.tail }
  change := fun context => { context with ctes := (name, definition) :: context.ctes }
  context_enter := fun _ _ => rfl
  leave_enter := fun _ => rfl

end Bracket

end ColumnTrace
