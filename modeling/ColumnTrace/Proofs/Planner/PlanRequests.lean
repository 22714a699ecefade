import ColumnTrace.Planner.Statement

/-!
# Requests to a planner

A planner is asked for one plan after another, for statements and for texts. It goes on from the
memory that the request before left, also where that request had no plan. No request leaves an entry
on a stack or takes one off (`PlanRequest.stack_run`), so all that a planner keeps from one request
to the next are its numbers (`PlanRequest.stack_memoryAfter`).
-/

set_option autoImplicit false

namespace ColumnTrace

/-- What is asked of a planner: the plan of a statement, or of the first statement of a text. -/
inductive PlanRequest where
  | statement (node : Sql.Node)
  | text (sql : String)

namespace PlanRequest

/-- What a planner makes of a request. -/
def run (s : Surroundings) : PlanRequest → Memory → Ending Plan
  | .statement node => runStatement s node
  | .text sql => runText s sql

/-- The memory of a planner after requests, each over surroundings of its own, whatever came of
them. -/
def memoryAfter (requests : List (Surroundings × PlanRequest)) : Memory :=
  requests.foldl (fun memory request => (request.2.run request.1 memory).memory) .new

/-- The plans that a planner with this memory makes of requests, each over surroundings of its own.
A request that fails has no plan; the numbers that were handed out for it stay handed out. -/
def plansFrom : Memory → List (Surroundings × PlanRequest) → List Plan
  | _, [] => []
  | memory, (s, request) :: rest =>
    let ending := request.run s memory
    ending.result.toOption.toList ++ plansFrom ending.memory rest

/-- The plans that a new planner makes of requests. -/
def plansOf (requests : List (Surroundings × PlanRequest)) : List Plan := plansFrom .new requests

/-- The computation that a request asks for. -/
def planner (s : Surroundings) : PlanRequest → Planner Plan
  | .statement node => .within (.root node) (s.planner node)
  | .text sql =>
    match s.library.first sql with
    | .ok node => .within (.root node) (s.planner node)
    | .error cause => .fail (.unreadable cause)

/-- A planner does what the request asks for. -/
theorem run_eq_action (s : Surroundings) (request : PlanRequest) :
    request.run s = (request.planner s).action s := by
  cases request with
  | statement node => rfl
  | text sql =>
    rw [run, runText, planner]
    cases s.library.first sql <;> rfl

/-- What comes of a request is what its computation comes to in the context that the stacks make. -/
theorem run_eq_leaving (s : Surroundings) (request : PlanRequest) (memory : Memory) :
    request.run s memory =
      (request.planner s (memory.stack.context s) memory.numbers).leaving memory.stack := by
  rw [run_eq_action, Planner.agrees]

/-- A request leaves the stacks as they were, whether it has a plan or fails. -/
theorem stack_run (s : Surroundings) (request : PlanRequest) (memory : Memory) :
    (request.run s memory).memory.stack = memory.stack := by
  rw [run_eq_leaving, Outcome.leaving]

/-- Between requests nothing stands on the stacks. -/
theorem stack_memoryAfter (requests : List (Surroundings × PlanRequest)) :
    (memoryAfter requests).stack = .empty := by
  have hfold : ∀ memory : Memory, (requests.foldl (fun memory request =>
      (request.2.run request.1 memory).memory) memory).stack = memory.stack := by
    induction requests with
    | nil => exact fun _ => rfl
    | cons request rest ih => exact fun memory => (ih _).trans (stack_run _ _ memory)
  exact hfold .new

end PlanRequest

end ColumnTrace
