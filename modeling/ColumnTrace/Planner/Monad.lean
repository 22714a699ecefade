import ColumnTrace.Planner.Memory
import ColumnTrace.Sql.Query

/-!
# Planning computations

A `Planner` computation hands out numbers, keeps a log, and may fail. It is an action on the memory
of a planner, beside what the action means for someone who knows no stacks: a value, or a failure,
in a context and from numbers. The action does what it means and leaves the stacks as they were,
whether it has a value or fails (`Planner.agrees`); each way to put computations together keeps
that, so that computations may be told apart by their meanings only (`Planner.ext`).
-/

set_option autoImplicit false

namespace ColumnTrace

/-- What a planning computation leaves: the numbers that come next, the log, and a value or a
failure. -/
structure Outcome (α : Type) where
  numbers : Numbers
  log : Log
  result : Except PlanningError α

/-- The outcome as the ending of an action that leaves these stacks. -/
def Outcome.leaving {α : Type} (outcome : Outcome α) (stack : Stacks) : Ending α :=
  ⟨⟨outcome.numbers, stack⟩, outcome.log, outcome.result⟩

/-- The ending of an action without its stacks. -/
def Ending.outcome {α : Type} (ending : Ending α) : Outcome α :=
  ⟨ending.memory.numbers, ending.log, ending.result⟩

/-- A planning computation. -/
structure Planner (α : Type) where
  /-- What the computation does to the memory of a planner. -/
  action : Action α
  /-- What it comes to in a context. -/
  meaning : Context → Numbers → Outcome α
  /-- The action does what it means in the context that the stacks make, and puts the stacks back.
  -/
  agrees : ∀ s memory, action s memory =
    (meaning (memory.stack.context s) memory.numbers).leaving memory.stack

namespace Planner

variable {α β γ : Type}

instance : CoeFun (Planner α) fun _ => Context → Numbers → Outcome α := ⟨meaning⟩

/-- Computations with one meaning do the same. -/
@[ext]
theorem ext {x y : Planner α} (h : ∀ context numbers, x context numbers = y context numbers) :
    x = y := by
  obtain ⟨action, meaning, hagrees⟩ := x
  obtain ⟨action', meaning', hagrees'⟩ := y
  obtain rfl : meaning = meaning' := funext fun context => funext fun numbers => h context numbers
  obtain rfl : action = action' := by
    funext s memory
    rw [hagrees, hagrees']
  rfl

/-- A value alone. -/
protected def pure (a : α) : Planner α where
  action := pure a
  meaning := fun _ numbers => ⟨numbers, [], .ok a⟩
  agrees := fun _ _ => rfl

/-- The second computation goes on from the value and the numbers of the first. -/
protected def bind (x : Planner α) (f : α → Planner β) : Planner β where
  action := x.action >>= fun a => (f a).action
  meaning := fun context numbers =>
    let first := x context numbers
    match first.result with
    | .ok a =>
      let second := f a context first.numbers
      ⟨second.numbers, first.log ++ second.log, second.result⟩
    | .error e => ⟨first.numbers, first.log, .error e⟩
  agrees := by
    intro s memory
    show Action.bind x.action (fun a => (f a).action) s memory = _
    rw [Action.bind, x.agrees, Outcome.leaving]
    dsimp only
    cases (x (memory.stack.context s) memory.numbers).result with
    | error e => rfl
    | ok a =>
      dsimp only
      rw [(f a).agrees]
      rfl

instance : Monad Planner where
  pure := Planner.pure
  bind := Planner.bind

/-- The computation fails. -/
def fail (e : PlanningError) : Planner α where
  action := fun _ memory => ⟨memory, [], .error e⟩
  meaning := fun _ numbers => ⟨numbers, [], .error e⟩
  agrees := fun _ _ => rfl

/-- A result that needs no context. -/
def ofExcept : Except PlanningError α → Planner α
  | .ok a => pure a
  | .error e => fail e

/-- The part of a value that must be there in every statement. -/
def require : Option α → Planner α
  | some a => pure a
  | none => fail .malformed

/-- One entry is logged. -/
def note (entry : LogEntry) : Planner PUnit where
  action := fun _ memory => ⟨memory, [entry], .ok ⟨⟩⟩
  meaning := fun _ numbers => ⟨numbers, [entry], .ok ⟨⟩⟩
  agrees := fun _ _ => rfl

/-- What is known around the statement. -/
def context : Planner Context where
  action := fun s memory => ⟨memory, [], .ok (memory.stack.context s)⟩
  meaning := fun context numbers => ⟨numbers, [], .ok context⟩
  agrees := fun _ _ => rfl

/-- The catalog. -/
def catalog : Planner Catalog := do return (← context).catalog

/-- The computation in a bracket. It means what it means in the changed context. -/
def within (b : Bracket) (x : Planner α) : Planner α where
  action := x.action.between b.enter b.leave
  meaning := fun context numbers => x (b.change context) numbers
  agrees := by
    intro s memory
    rw [Action.between_apply, x.agrees, b.context_enter]
    exact congrArg (fun stack => Ending.mk ⟨_, stack⟩ _ _) (b.leave_enter memory.stack)

/-- A number that no column has yet. -/
def freshId : Planner Int where
  action := fun _ memory =>
    ⟨{ memory with numbers := { memory.numbers with column := memory.numbers.column + 1 } }, [],
      .ok (memory.numbers.column : Int)⟩
  meaning := fun _ numbers =>
    ⟨{ numbers with column := numbers.column + 1 }, [], .ok (numbers.column : Int)⟩
  agrees := fun _ _ => rfl

/-- A number that no named query has yet. -/
def freshCteId : Planner Int where
  action := fun _ memory =>
    ⟨{ memory with numbers := { memory.numbers with cte := memory.numbers.cte + 1 } }, [],
      .ok (memory.numbers.cte : Int)⟩
  meaning := fun _ numbers =>
    ⟨{ numbers with cte := numbers.cte + 1 }, [], .ok (numbers.cte : Int)⟩
  agrees := fun _ _ => rfl

/-- A new column of a name. -/
def freshColumn (name : Label) : Planner Attribute := do return ⟨← freshId, name, []⟩

/-- New columns of names, numbered from left to right. -/
def freshColumns (names : List Label) : Planner (List Attribute) := names.mapM freshColumn

/-- New columns with the names of others. -/
def freshLike (attrs : List Attribute) : Planner (List Attribute) :=
  freshColumns (attrs.map Attribute.name)

/-- The text of a node. -/
def write (n : Sql.Node) : Planner String := do ofExcept (n.write (← context).engine)

/-- The named query of a name, the latest that is in scope. -/
def findCte? (name : String) : Planner (Option CteDefinition) := do
  return (← context).ctes.lookup name

/-- The second computation starts in the same context, with the numbers that the first left. -/
theorem bind_apply (x : Planner α) (f : α → Planner β) (context : Context) (numbers : Numbers) :
    (x >>= f) context numbers =
      match (x context numbers).result with
      | .ok a =>
        ⟨(f a context (x context numbers).numbers).numbers,
          (x context numbers).log ++ (f a context (x context numbers).numbers).log,
          (f a context (x context numbers).numbers).result⟩
      | .error e => ⟨(x context numbers).numbers, (x context numbers).log, .error e⟩ := rfl

theorem pure_apply (a : α) (context : Context) (numbers : Numbers) :
    (pure a : Planner α) context numbers = ⟨numbers, [], .ok a⟩ := rfl

theorem context_bind_apply (f : Context → Planner β) (context : Context) :
    (Planner.context >>= f) context = f context context := rfl

theorem catalog_bind_apply (f : Catalog → Planner β) (context : Context) :
    (catalog >>= f) context = f context.catalog context := rfl

theorem findCte?_bind_apply (name : String) (f : Option CteDefinition → Planner β)
    (context : Context) :
    (findCte? name >>= f) context = f (context.ctes.lookup name) context := rfl

/-- An action that goes on from a computation does what its meaning is, up to the stacks that it may
leave, if the computation's own stacks are among these. -/
theorem exists_bind_eq_leaving {x : Planner α} {f : α → Action β} {g : α → Planner β}
    {s : Surroundings} {memory : Memory} {leaves : Stacks → Prop} (hkept : leaves memory.stack)
    (h : ∀ a numbers, ∃ stack, leaves stack ∧
      f a s ⟨numbers, memory.stack⟩ = (g a (memory.stack.context s) numbers).leaving stack) :
    ∃ stack, leaves stack ∧ (x.action >>= f) s memory =
      ((x >>= g) (memory.stack.context s) memory.numbers).leaving stack := by
  have hbind : (x.action >>= f) s memory = Action.bind x.action f s memory := rfl
  rw [hbind, Action.bind, x.agrees, bind_apply]
  dsimp only [Outcome.leaving]
  cases (x (memory.stack.context s) memory.numbers).result with
  | error e => exact ⟨memory.stack, hkept, rfl⟩
  | ok a =>
    obtain ⟨stack, hleaves, hrest⟩ :=
      h a (x (memory.stack.context s) memory.numbers).numbers
    refine ⟨stack, hleaves, ?_⟩
    dsimp only
    rw [hrest]
    rfl

instance : LawfulMonad Planner := LawfulMonad.mk' Planner
  (fun x => by
    ext context numbers
    show Planner.bind x (Planner.pure ∘ id) context numbers = x context numbers
    cases hx : x context numbers with
    | mk after log result => cases result <;> simp [Planner.bind, Planner.pure, hx])
  (fun a f => by
    ext context numbers
    show Planner.bind (Planner.pure a) f context numbers = f a context numbers
    simp [Planner.bind, Planner.pure])
  (fun x f g => by
    ext context numbers
    show Planner.bind (Planner.bind x f) g context numbers =
      Planner.bind x (fun a => Planner.bind (f a) g) context numbers
    cases hx : (x context numbers).result with
    | error e => simp [Planner.bind, hx]
    | ok a =>
      cases hf : (f a context (x context numbers).numbers).result <;>
        simp [Planner.bind, hx, hf])

end Planner

end ColumnTrace
