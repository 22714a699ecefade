import ColumnTrace.Planner.Expression
import ColumnTrace.Proofs.FittingTrees

/-!
# Planning computations that do the same

Two computations agree around a context if they hand out the same numbers, log the same and end
alike there, whatever the statement is and whatever named queries are in scope (`Planner.Agrees`).
There is one rule for each way to build a computation. A value that was read off a tree is known to
be what was read (`Planner.agrees_ofExcept_bind`): the routines that plan a tree hand parts of it
on, and the bounds of these parts follow from the reading.
-/

set_option autoImplicit false

namespace ColumnTrace

variable {base : Context} {α β γ : Type}

namespace Planner

/-- The computations do the same in every context that differs from this one in the statement and
the named queries in scope only. -/
def Agrees (base : Context) (x y : Planner α) : Prop :=
  ∀ root ctes, x { base with root, ctes } = y { base with root, ctes }

theorem agrees_refl (x : Planner α) : Agrees base x x := fun _ _ => rfl

/-- Computations agree step by step. -/
theorem Agrees.bind {x y : Planner α} {k l : α → Planner β} (h : Agrees base x y)
    (hk : ∀ a, Agrees base (k a) (l a)) : Agrees base (x >>= k) (y >>= l) := by
  intro root ctes
  funext numbers
  rw [bind_apply, bind_apply, h root ctes]
  cases (y { base with root, ctes } numbers).result with
  | error e => rfl
  | ok a => dsimp only; rw [hk a root ctes]

/-- Both computations begin alike. -/
theorem agrees_bind {x : Planner α} {k l : α → Planner β} (hk : ∀ a, Agrees base (k a) (l a)) :
    Agrees base (x >>= k) (x >>= l) :=
  (agrees_refl x).bind hk

/-- A computation that fails does not come to what follows. -/
theorem agrees_fail_bind (e : PlanningError) (k l : α → Planner β) :
    Agrees base (fail e >>= k) (fail e >>= l) := fun _ _ => rfl

/-- Both computations go on from what is read off a tree. -/
theorem agrees_ofExcept_bind {x : Except PlanningError α} {k l : α → Planner β}
    (hk : ∀ a, x = .ok a → Agrees base (k a) (l a)) :
    Agrees base (ofExcept x >>= k) (ofExcept x >>= l) := by
  cases x with
  | error e => exact fun _ _ => rfl
  | ok a =>
    rw [ofExcept, pure_bind, pure_bind]
    exact hk a rfl

/-- What is run on a list agrees if it does on each member. -/
theorem agrees_mapM {k l : γ → Planner β} {xs : List γ}
    (hk : ∀ x ∈ xs, Agrees base (k x) (l x)) : Agrees base (xs.mapM k) (xs.mapM l) := by
  induction xs with
  | nil => exact agrees_refl _
  | cons x rest ih =>
    rw [List.mapM_cons, List.mapM_cons]
    apply (hk x List.mem_cons_self).bind
    intro b
    apply (ih fun y hy => hk y (List.mem_cons_of_mem x hy)).bind
    exact fun bs => agrees_refl _

/-- Both computations run with the same named query more in scope. -/
theorem Agrees.within_scope {x y : Planner α} (h : Agrees base x y) (name : String)
    (definition : CteDefinition) :
    Agrees base (within (.scope name definition) x) (within (.scope name definition) y) :=
  fun root ctes => h root ((name, definition) :: ctes)

end Planner

/-! ## Window functions -/

namespace Projecting

/-- The computations do the same, whatever window functions were taken out before. -/
def Agrees (base : Context) (x y : Projecting α) : Prop :=
  ∀ windows : Windows, Planner.Agrees base (x.run windows) (y.run windows)

theorem agrees_refl (x : Projecting α) : Agrees base x x := fun _ => Planner.agrees_refl _

/-- Computations agree step by step. -/
theorem Agrees.bind {x y : Projecting α} {k l : α → Projecting β} (h : Agrees base x y)
    (hk : ∀ a, Agrees base (k a) (l a)) : Agrees base (x >>= k) (y >>= l) :=
  fun windows => (h windows).bind fun first => hk first.1 first.2

/-- Planning without window functions agrees where they are allowed. -/
theorem agrees_lift {x y : Planner α} (h : Planner.Agrees base x y) :
    Agrees base (liftM x : Projecting α) (liftM y) :=
  fun _ => h.bind fun _ => Planner.agrees_refl _

/-- What follows a result that both have may count on it. -/
theorem agrees_ofExcept_bind {x : Except PlanningError α} {k l : α → Projecting β}
    (hk : ∀ a, x = .ok a → Agrees base (k a) (l a)) :
    Agrees base ((liftM (Planner.ofExcept x) : Projecting α) >>= k)
      ((liftM (Planner.ofExcept x) : Projecting α) >>= l) := by
  cases x with
  | error e => exact fun _ _ _ => rfl
  | ok a =>
    rw [Planner.ofExcept, liftM_pure, pure_bind, pure_bind]
    exact hk a rfl

/-- What is run on a list agrees if it does on each member. -/
theorem agrees_mapM {k l : γ → Projecting β} {xs : List γ}
    (hk : ∀ x ∈ xs, Agrees base (k x) (l x)) : Agrees base (xs.mapM k) (xs.mapM l) := by
  induction xs with
  | nil => exact agrees_refl _
  | cons x rest ih =>
    rw [List.mapM_cons, List.mapM_cons]
    apply (hk x List.mem_cons_self).bind
    intro b
    apply (ih fun y hy => hk y (List.mem_cons_of_mem x hy)).bind
    exact fun bs => agrees_refl _

/-- Without window functions there is only the value. -/
theorem Agrees.value {x y : Projecting α} (h : Agrees base x y) :
    Planner.Agrees base (do return (← x.run none).1) (do return (← y.run none).1) :=
  (h none).bind fun _ => Planner.agrees_refl _

end Projecting

end ColumnTrace
