import ColumnTrace.Planner.Expression
import ColumnTrace.Proofs.Plans.Renumbering
import Mathlib.Algebra.Group.Embedding
import Mathlib.Algebra.Group.Int.Defs

/-!
# Planning that starts from other numbers

Two runs of a planning computation hand out numbers that a renumbering sends from the one to the
other. They log the same, and fail with the same error or give values that differ in their numbers
only (`Planner.Renumbers`). There is one rule for each way to build a computation; numbers come in
where they are handed out (`Planner.renumbers_freshId`, `Planner.renumbers_freshCteId`) and nowhere
else. A computation that collects window functions has rules of its own (`Projecting.Renumbers`).
-/

set_option autoImplicit false

namespace ColumnTrace

/-- The renumbering that adds one number to the identities of columns and another to the numbers of
named queries. -/
def Renumbering.shift (columns queries : Int) : Renumbering :=
  ⟨addRightEmbedding columns, addRightEmbedding queries⟩

/-- The renumbering sends the numbers that the first run has yet to hand out to those of the second
run, one by one. -/
structure Numbers.RenumberedBy (r : Renumbering) (first second : Numbers) : Prop where
  column : ∀ k : Nat, r.column (first.column + k : Nat) = (second.column + k : Nat)
  cte : ∀ k : Nat, r.query (first.cte + k : Nat) = (second.cte + k : Nat)

/-- Any numbers are those of a planner that starts anew, with constants added. -/
theorem Numbers.renumberedBy_shift (numbers : Numbers) : Numbers.RenumberedBy
    (.shift (numbers.column - 1) (numbers.cte - 1)) .start numbers := by
  constructor
  · intro k
    show ((1 + k : Nat) : Int) + (numbers.column - 1) = (numbers.column + k : Nat)
    omega
  · intro k
    show ((1 + k : Nat) : Int) + (numbers.cte - 1) = (numbers.cte + k : Nat)
    omega

/-- The second outcome is the first under the new numbers: the numbers to come are renumbered, the
log is the same, and so is the error, or the value is changed by a function. -/
structure Outcome.RenumberedBy {α β : Type} (r : Renumbering) (f : α → β) (first : Outcome α)
    (second : Outcome β) : Prop where
  numbers : first.numbers.RenumberedBy r second.numbers
  log : second.log = first.log
  result : second.result = first.result.map f

/-- What is known around a statement, with the named queries in scope under the new numbers. -/
def Context.renumber (r : Renumbering) (context : Context) : Context :=
  { context with ctes := context.ctes.map fun entry => (entry.1, entry.2.renumber r) }

variable {r : Renumbering}

namespace Planner

variable {α β γ δ : Type} {f : α → β} {g : γ → δ}

/-- Run from renumbered numbers, and with the named queries in scope under the new numbers, the
second computation does what the first does, with the value changed by a function. -/
def Renumbers (r : Renumbering) (f : α → β) (x : Planner α) (y : Planner β) : Prop :=
  ∀ context first second, Numbers.RenumberedBy r first second →
    (x context first).RenumberedBy r f (y (context.renumber r) second)

theorem renumbers_pure {a : α} {b : β} (h : f a = b) : Renumbers r f (pure a) (pure b) :=
  fun _ _ _ hnumbers => ⟨hnumbers, rfl, congrArg Except.ok h.symm⟩

theorem renumbers_fail (e : PlanningError) : Renumbers r f (fail e) (fail e) :=
  fun _ _ _ hnumbers => ⟨hnumbers, rfl, rfl⟩

/-- Two steps do under new numbers what each does. -/
theorem Renumbers.bind {x : Planner α} {y : Planner β} {k : α → Planner γ} {l : β → Planner δ}
    (h : Renumbers r f x y) (hk : ∀ a, Renumbers r g (k a) (l (f a))) :
    Renumbers r g (x >>= k) (y >>= l) := by
  intro context first second hnumbers
  have hx := h context first second hnumbers
  rw [bind_apply, bind_apply, hx.result]
  cases (x context first).result with
  | error e => exact ⟨hx.numbers, hx.log, rfl⟩
  | ok a =>
    have hnext := hk a context _ _ hx.numbers
    exact ⟨hnext.numbers, congrArg₂ _ hx.log hnext.log, hnext.result⟩

theorem renumbers_fail_bind (e : PlanningError) (k : α → Planner γ) (l : β → Planner δ) :
    Renumbers r g (fail e >>= k) (fail e >>= l) :=
  fun _ _ _ hnumbers => ⟨hnumbers, rfl, rfl⟩

/-- A result that needs no context is changed by the function alone. -/
theorem renumbers_ofExcept {x : Except PlanningError α} {y : Except PlanningError β}
    (h : y = x.map f) : Renumbers r f (ofExcept x) (ofExcept y) := by
  subst h
  cases x with
  | ok a => exact renumbers_pure rfl
  | error e => exact renumbers_fail e

/-- What is read off a statement is the same in both runs. -/
theorem renumbers_ofExcept_self (x : Except PlanningError α) :
    Renumbers r id (ofExcept x) (ofExcept x) := by
  cases x with
  | ok a => exact renumbers_pure rfl
  | error e => exact renumbers_fail e

/-- A result without numbers may come first. -/
theorem renumbers_ofExcept_bind {x : Except PlanningError α} {k : α → Planner γ} {l : α → Planner δ}
    (hk : ∀ a, Renumbers r g (k a) (l a)) :
    Renumbers r g (ofExcept x >>= k) (ofExcept x >>= l) :=
  (renumbers_ofExcept_self x).bind hk

/-- A part that is required has no numbers. -/
theorem renumbers_require (found : Option α) :
    Renumbers r id (require found) (require found) := by
  cases found with
  | some a => exact renumbers_pure rfl
  | none => exact renumbers_fail _

theorem renumbers_note (entry : LogEntry) : Renumbers r id (note entry) (note entry) :=
  fun _ _ _ hnumbers => ⟨hnumbers, rfl, rfl⟩

theorem renumbers_context : Renumbers r (Context.renumber r) Planner.context Planner.context :=
  fun _ _ _ hnumbers => ⟨hnumbers, rfl, rfl⟩

theorem renumbers_catalog : Renumbers r id catalog catalog :=
  renumbers_context.bind fun _ => renumbers_pure rfl

/-- Brackets that change the context alike, up to new numbers, may be put around. -/
theorem renumbers_within {b b' : Bracket} {x : Planner α} {y : Planner β}
    (hchange : ∀ context : Context, b'.change (context.renumber r) = (b.change context).renumber r)
    (h : Renumbers r f x y) : Renumbers r f (within b x) (within b' y) := by
  intro context first second hnumbers
  have hrun := h (b.change context) first second hnumbers
  rw [← hchange] at hrun
  exact hrun

/-- The next number for a column is the next number under the renumbering. -/
theorem renumbers_freshId : Renumbers r r.column freshId freshId := by
  intro context first second hnumbers
  refine ⟨⟨fun k => ?_, hnumbers.cte⟩, rfl, congrArg Except.ok (hnumbers.column 0).symm⟩
  show r.column (first.column + 1 + k : Nat) = (second.column + 1 + k : Nat)
  rw [Nat.add_right_comm, Nat.add_right_comm second.column]
  exact hnumbers.column (k + 1)

/-- The next number for a named query is the next number under the renumbering. -/
theorem renumbers_freshCteId : Renumbers r r.query freshCteId freshCteId := by
  intro context first second hnumbers
  refine ⟨⟨hnumbers.column, fun k => ?_⟩, rfl, congrArg Except.ok (hnumbers.cte 0).symm⟩
  show r.query (first.cte + 1 + k : Nat) = (second.cte + 1 + k : Nat)
  rw [Nat.add_right_comm, Nat.add_right_comm second.cte]
  exact hnumbers.cte (k + 1)

theorem renumbers_freshColumn (name : Label) :
    Renumbers r (Attribute.renumber r) (freshColumn name) (freshColumn name) :=
  renumbers_freshId.bind fun _ => renumbers_pure rfl

/-- What is run on a list does under new numbers what it does on each member. -/
theorem renumbers_mapM {κ ι : Type} {k : κ → Planner γ} {l : ι → Planner δ} {h : κ → ι}
    {xs : List κ} (hk : ∀ x ∈ xs, Renumbers r g (k x) (l (h x))) :
    Renumbers r (List.map g) (xs.mapM k) ((xs.map h).mapM l) := by
  induction xs with
  | nil => exact renumbers_pure rfl
  | cons x rest ih =>
    rw [List.mapM_cons, List.map_cons, List.mapM_cons]
    refine (hk x List.mem_cons_self).bind fun a => ?_
    refine (ih fun y hy => hk y (List.mem_cons_of_mem x hy)).bind fun as => ?_
    exact renumbers_pure rfl

/-- A computation on every member of one list that both runs go through. -/
theorem renumbers_mapM_self {κ : Type} {k : κ → Planner γ} {l : κ → Planner δ} {xs : List κ}
    (hk : ∀ x ∈ xs, Renumbers r g (k x) (l x)) :
    Renumbers r (List.map g) (xs.mapM k) (xs.mapM l) := by
  have h := renumbers_mapM (h := id) hk
  rwa [List.map_id] at h

/-- New columns are made under the numbers to come. -/
theorem renumbers_freshColumns (names : List Label) :
    Renumbers r (List.map (Attribute.renumber r)) (freshColumns names) (freshColumns names) :=
  renumbers_mapM_self fun name _ => renumbers_freshColumn name

/-- New columns with the names of others are made under the numbers to come. -/
theorem renumbers_freshLike (attrs : List Attribute) :
    Renumbers r (List.map (Attribute.renumber r)) (freshLike attrs)
      (freshLike (attrs.map (Attribute.renumber r))) := by
  rw [freshLike, freshLike, List.map_map]
  exact renumbers_freshColumns _

theorem renumbers_write (n : Sql.Node) : Renumbers r id (write n) (write n) :=
  renumbers_context.bind fun _ => renumbers_ofExcept_self _

/-- The named query of a name is the same one under the new numbers. -/
theorem renumbers_findCte? (name : String) :
    Renumbers r (Option.map (CteDefinition.renumber r)) (findCte? name) (findCte? name) := by
  refine renumbers_context.bind fun context => renumbers_pure ?_
  have hlookup : ∀ ctes : List (String × CteDefinition),
      (ctes.map fun entry => (entry.1, entry.2.renumber r)).lookup name =
        (ctes.lookup name).map (CteDefinition.renumber r) := by
    intro ctes
    induction ctes with
    | nil => rfl
    | cons entry rest ih =>
      rw [List.map_cons, List.lookup_cons, List.lookup_cons, ih]
      cases name == entry.1 <;> rfl
  exact (hlookup context.ctes).symm

end Planner

/-! ## Window functions -/

/-- The window functions that were taken out, under the new numbers. -/
def Windows.renumber (r : Renumbering) (windows : Windows) : Windows :=
  windows.map (List.map (Alias.renumber r))

namespace Projecting

variable {α β γ δ : Type} {f : α → β} {g : γ → δ}

/-- Run with the window functions that were taken out under the new numbers, the second computation
does what the first does, with the value changed by a function. -/
def Renumbers (r : Renumbering) (f : α → β) (x : Projecting α) (y : Projecting β) : Prop :=
  ∀ windows : Windows, Planner.Renumbers r (Prod.map f (Windows.renumber r)) (x.run windows)
    (y.run (windows.renumber r))

theorem renumbers_pure {a : α} {b : β} (h : f a = b) : Renumbers r f (pure a) (pure b) :=
  fun windows => Planner.renumbers_pure (congrArg (·, windows.renumber _) h)

/-- Planning without window functions does the same where they are allowed. -/
theorem renumbers_lift {x : Planner α} {y : Planner β} (h : Planner.Renumbers r f x y) :
    Renumbers r f (liftM x) (liftM y) :=
  fun _ => h.bind fun _ => Planner.renumbers_pure rfl

/-- Two steps do under new numbers what each does. -/
theorem Renumbers.bind {x : Projecting α} {y : Projecting β} {k : α → Projecting γ}
    {l : β → Projecting δ} (h : Renumbers r f x y) (hk : ∀ a, Renumbers r g (k a) (l (f a))) :
    Renumbers r g (x >>= k) (y >>= l) :=
  fun windows => (h windows).bind fun first => hk first.1 first.2

/-- A result without numbers may come first. -/
theorem renumbers_ofExcept_bind {x : Except PlanningError α} {k : α → Projecting γ}
    {l : α → Projecting δ} (hk : ∀ a, Renumbers r g (k a) (l a)) :
    Renumbers r g ((liftM (Planner.ofExcept x) : Projecting α) >>= k)
      ((liftM (Planner.ofExcept x) : Projecting α) >>= l) :=
  (renumbers_lift (Planner.renumbers_ofExcept_self x)).bind hk

/-- What is run on a list does under new numbers what it does on each member. -/
theorem renumbers_mapM_self {κ : Type} {k : κ → Projecting γ} {l : κ → Projecting δ} {xs : List κ}
    (hk : ∀ x ∈ xs, Renumbers r g (k x) (l x)) :
    Renumbers r (List.map g) (xs.mapM k) (xs.mapM l) := by
  induction xs with
  | nil => exact renumbers_pure rfl
  | cons x rest ih =>
    rw [List.mapM_cons, List.mapM_cons]
    refine (hk x List.mem_cons_self).bind fun a => ?_
    refine (ih fun y hy => hk y (List.mem_cons_of_mem x hy)).bind fun as => ?_
    exact renumbers_pure rfl

/-- Without window functions there is only the value. -/
theorem Renumbers.value {x : Projecting α} {y : Projecting β} (h : Renumbers r f x y) :
    Planner.Renumbers r f (do return (← x.run none).1) (do return (← y.run none).1) :=
  (h none).bind fun _ => Planner.renumbers_pure rfl

end Projecting

end ColumnTrace
