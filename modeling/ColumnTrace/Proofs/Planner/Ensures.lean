import ColumnTrace.Planner.Expression
import ColumnTrace.Proofs.Outcomes
import Mathlib.Data.List.Nodup

/-!
# What planning computations ensure

`Planner.Ensures` says of a computation that whatever it gives has a property, and that it keeps the
numbers of named queries above a bound, so that a number handed out later is none of those below it.
A computation that collects window functions ensures a property of what it gives beside the
functions taken out so far (`Projecting.Ensures`). For each way to build a computation there is one
rule.
-/

set_option autoImplicit false

namespace ColumnTrace

/-- A reading in two steps gives a value only where both steps do. -/
theorem exists_of_bind_eq_ok {ε α β : Type} {x : Except ε α} {f : α → Except ε β} {b : β}
    (h : (x >>= f) = .ok b) : ∃ a, x = .ok a ∧ f a = .ok b := by
  cases x with
  | ok a => exact ⟨a, rfl, h⟩
  | error e => cases h

namespace Planner

variable {α β : Type} {context : Context} {bound : Nat} {P : α → Prop} {Q : β → Prop}

/-- A sequence gives what the second computation gives, where the first gives anything. -/
theorem result_bind_eq_ok {x : Planner α} {f : α → Planner β} {numbers : Numbers} {b : β} :
    ((x >>= f) context numbers).result = .ok b ↔ ∃ a, (x context numbers).result = .ok a ∧
      (f a context (x context numbers).numbers).result = .ok b := by
  rw [bind_apply]
  cases hx : (x context numbers).result with
  | ok a => simp
  | error e => simp

/-- The result of two steps is that of the second, from the numbers that the first left. -/
theorem result_bind (x : Planner α) (f : α → Planner β) (numbers : Numbers) :
    ((x >>= f) context numbers).result = (do
      let a ← (x context numbers).result
      (f a context (x context numbers).numbers).result) := by
  rw [bind_apply]
  cases (x context numbers).result <;> rfl

/-- A result that needs no context is the result. -/
theorem result_ofExcept (r : Except PlanningError α) (numbers : Numbers) :
    (ofExcept r context numbers).result = r := by
  cases r <;> rfl

/-- After a value the result is that of what follows. -/
theorem result_bind_of_ok {x : Planner α} {f : α → Planner β} {numbers : Numbers} {a : α}
    (h : (x context numbers).result = .ok a) :
    ((x >>= f) context numbers).result = (f a context (x context numbers).numbers).result := by
  rw [bind_apply, h]

/-- What is run on a list has the values that it has on the members. -/
theorem result_mapM {γ : Type} {f : γ → Planner α} {xs : List γ} {ys : List α}
    (h : List.Forall₂ (fun x y => ∀ numbers, (f x context numbers).result = .ok y) xs ys) :
    ∀ numbers, (xs.mapM f context numbers).result = .ok ys := by
  induction h with
  | nil => exact fun _ => rfl
  | cons hxy _ ih =>
    intro numbers
    rw [List.mapM_cons, result_bind_eq_ok]
    exact ⟨_, hxy numbers, result_bind_eq_ok.2 ⟨_, ih _, rfl⟩⟩

/-- Where numbers of named queries begin at the bound or above it, so they do afterwards, and the
value has the property. -/
def Ensures (context : Context) (bound : Nat) (P : α → Prop) (x : Planner α) : Prop :=
  ∀ numbers, bound ≤ numbers.cte → ∀ a, (x context numbers).result = .ok a →
    P a ∧ bound ≤ (x context numbers).numbers.cte

theorem ensures_pure {a : α} (h : P a) : Ensures context bound P (pure a) := by
  rintro numbers hbound _ ⟨⟩
  exact ⟨h, hbound⟩

theorem ensures_fail (e : PlanningError) : Ensures context bound P (fail e) := by
  rintro numbers hbound _ ⟨⟩

/-- Less may be promised. -/
theorem Ensures.mono {R : α → Prop} {x : Planner α} (h : Ensures context bound P x)
    (hPR : ∀ a, P a → R a) : Ensures context bound R x :=
  fun numbers hbound a ha => (h numbers hbound a ha).imp_left (hPR a)

/-- The second computation starts from the value of the first and from the numbers that it left. -/
theorem ensures_bind_of {x : Planner α} {f : α → Planner β}
    (h : ∀ numbers, bound ≤ numbers.cte → ∀ a, (x context numbers).result = .ok a →
      ∃ inner, bound ≤ inner ∧ inner ≤ (x context numbers).numbers.cte ∧
        Ensures context inner Q (f a)) : Ensures context bound Q (x >>= f) := by
  intro numbers hbound b hb
  rw [bind_apply] at hb ⊢
  cases hx : (x context numbers).result with
  | error e =>
    rw [hx] at hb
    cases hb
  | ok a =>
    rw [hx] at hb
    obtain ⟨inner, hinner, hafter, hf⟩ := h numbers hbound a hx
    obtain ⟨hQ, hlast⟩ := hf _ hafter b hb
    exact ⟨hQ, Nat.le_trans hinner hlast⟩

/-- The second computation may count on what the first promises. -/
theorem Ensures.bind {x : Planner α} {f : α → Planner β} (h : Ensures context bound P x)
    (hf : ∀ a, P a → Ensures context bound Q (f a)) : Ensures context bound Q (x >>= f) :=
  ensures_bind_of fun numbers hbound a ha =>
    have hx := h numbers hbound a ha
    ⟨bound, Nat.le_refl bound, hx.2, hf a hx.1⟩

theorem ensures_fail_bind (e : PlanningError) (f : α → Planner β) :
    Ensures context bound Q (fail e >>= f) :=
  (ensures_fail (P := fun _ => False) e).bind fun _ h => h.elim

/-- The number of a named query is none below the bound, and all later ones are above it. -/
theorem ensures_freshCteId_bind {f : Int → Planner β}
    (hf : ∀ id : Nat, bound ≤ id → Ensures context (id + 1) Q (f id)) :
    Ensures context bound Q (freshCteId >>= f) := by
  refine ensures_bind_of fun numbers hbound id hid => ?_
  obtain rfl := Except.ok.inj hid
  exact ⟨numbers.cte + 1, by omega, Nat.le_refl _, hf numbers.cte hbound⟩

/-- A result that needs no context has what its value has. -/
theorem ensures_ofExcept {r : Except PlanningError α} (h : ∀ a, r = .ok a → P a) :
    Ensures context bound P (ofExcept r) := by
  cases r with
  | ok a => exact ensures_pure (h a rfl)
  | error e => exact ensures_fail e

/-- What follows a result may count on it. -/
theorem ensures_ofExcept_bind {r : Except PlanningError α} {f : α → Planner β}
    (hf : ∀ a, r = .ok a → Ensures context bound Q (f a)) :
    Ensures context bound Q (ofExcept r >>= f) :=
  (ensures_ofExcept fun _ ha => ha).bind hf

/-- A part that is required is the part that is there. -/
theorem ensures_require (found : Option α) :
    Ensures context bound (fun a => found = some a) (require found) := by
  cases found with
  | some a => exact ensures_pure rfl
  | none => exact ensures_fail _

theorem ensures_note (entry : LogEntry) : Ensures context bound (fun _ => True) (note entry) :=
  fun _ hbound _ _ => ⟨trivial, hbound⟩

theorem ensures_context : Ensures context bound (· = context) Planner.context := by
  rintro numbers hbound _ ⟨⟩
  exact ⟨rfl, hbound⟩

/-- What holds in a bracket is promised in the changed context. -/
theorem ensures_within {b : Bracket} {x : Planner α} (h : Ensures (b.change context) bound P x) :
    Ensures context bound P (within b x) := h

theorem ensures_freshId : Ensures context bound (fun _ => True) freshId :=
  fun _ hbound _ _ => ⟨trivial, hbound⟩

theorem ensures_freshColumn (name : Label) :
    Ensures context bound (fun _ => True) (freshColumn name) :=
  ensures_freshId.bind fun _ _ => ensures_pure trivial

theorem ensures_write (n : Sql.Node) : Ensures context bound (fun _ => True) (write n) :=
  ensures_context.bind fun _ _ => ensures_ofExcept fun _ _ => trivial

theorem ensures_catalog : Ensures context bound (· = context.catalog) catalog :=
  ensures_context.bind fun _ h => ensures_pure (by rw [h])

theorem ensures_findCte? (name : String) :
    Ensures context bound (· = context.ctes.lookup name) (findCte? name) :=
  ensures_context.bind fun _ h => ensures_pure (by rw [h])

/-- What is run on a list promises of each value what it promises of its member. -/
theorem ensures_mapM {γ : Type} {f : γ → Planner α} {R : γ → α → Prop} {xs : List γ}
    (h : ∀ x ∈ xs, Ensures context bound (R x) (f x)) :
    Ensures context bound (List.Forall₂ R xs) (xs.mapM f) := by
  induction xs with
  | nil => exact ensures_pure .nil
  | cons x rest ih =>
    rw [List.mapM_cons]
    refine (h x List.mem_cons_self).bind fun a ha => ?_
    refine (ih fun y hy => h y (List.mem_cons_of_mem x hy)).bind fun as has => ?_
    exact ensures_pure (.cons ha has)

/-- What is run on a list promises of all values what it promises of each. -/
theorem ensures_mapM_all {γ : Type} {f : γ → Planner α} {xs : List γ}
    (h : ∀ x ∈ xs, Ensures context bound P (f x)) :
    Ensures context bound (fun as => ∀ a ∈ as, P a) (xs.mapM f) := by
  refine (ensures_mapM h).mono fun as has a ha => ?_
  obtain ⟨x, -, hP⟩ := exists_left_of_forall₂ has ha
  exact hP

/-- New columns take the next numbers from left to right. -/
theorem exists_freshColumns (context : Context) (names : List Label) (numbers : Numbers) :
    ∃ columns : List Attribute,
      freshColumns names context numbers =
        ⟨{ numbers with column := numbers.column + names.length }, [], .ok columns⟩ ∧
      columns.map Attribute.name = names ∧
      columns.map Attribute.id = (List.range' numbers.column names.length).map Int.ofNat := by
  induction names generalizing numbers with
  | nil => exact ⟨[], rfl, rfl, rfl⟩
  | cons name rest ih =>
    obtain ⟨columns, hrun, hnames, hids⟩ := ih { numbers with column := numbers.column + 1 }
    refine ⟨⟨numbers.column, name, []⟩ :: columns, ?_, by simp [hnames],
      by simp [hids, List.range'_succ]⟩
    have hfirst : freshColumn name context numbers =
        ⟨{ numbers with column := numbers.column + 1 }, [], .ok ⟨numbers.column, name, []⟩⟩ := rfl
    rw [freshColumns] at hrun
    simp only [freshColumns, List.mapM_cons, bind_apply, hfirst, hrun, pure_apply,
      List.length_cons, List.append_nil]
    congr 2
    omega

/-- New columns have the names that they are made for. -/
theorem names_of_freshColumns {names : List Label} {numbers : Numbers} {output : List Attribute}
    (h : (freshColumns names context numbers).result = .ok output) :
    output.map Attribute.name = names := by
  obtain ⟨columns, hrun, hnames, -⟩ := exists_freshColumns context names numbers
  rw [hrun] at h
  rwa [Except.ok.inj h] at hnames

/-- New columns have their names and are distinct. -/
theorem ensures_freshColumns (names : List Label) : Ensures context bound
    (fun columns => columns.map Attribute.name = names ∧ columns.Nodup) (freshColumns names) := by
  intro numbers hbound columns hcolumns
  obtain ⟨found, hrun, hnames, hids⟩ := exists_freshColumns context names numbers
  rw [hrun] at hcolumns ⊢
  obtain rfl := Except.ok.inj hcolumns
  refine ⟨⟨hnames, List.Nodup.of_map Attribute.id ?_⟩, hbound⟩
  rw [hids]
  exact (List.nodup_range' 1).map fun _ _ h => Int.ofNat.inj h

/-- As many new columns are made as there are old ones, and they are distinct. -/
theorem ensures_freshLike (attrs : List Attribute) : Ensures context bound
    (fun columns => columns.length = attrs.length ∧ columns.Nodup) (freshLike attrs) :=
  (ensures_freshColumns _).mono fun columns h =>
    ⟨by simpa using congrArg List.length h.1, h.2⟩

end Planner

/-- Window functions were taken out: none goes lost, all have the property, and where windows are
not allowed there are none. -/
structure Windows.Grows (W : Alias → Prop) (before after : Windows) : Prop where
  all : (∀ f ∈ before.getD [], W f) → ∀ f ∈ after.getD [], W f
  keeps : before.getD [] ⊆ after.getD []
  forbids : before = none → after = none

namespace Windows.Grows

variable {W : Alias → Prop} {first second third : Windows}

theorem refl (windows : Windows) : Grows W windows windows :=
  ⟨fun h => h, List.Subset.refl _, fun h => h⟩

/-- What is taken out in two steps is taken out in one. -/
theorem trans (h : Grows W first second) (h' : Grows W second third) : Grows W first third :=
  ⟨fun hall => h'.all (h.all hall), List.Subset.trans h.keeps h'.keeps,
    fun hnone => h'.forbids (h.forbids hnone)⟩

end Windows.Grows

namespace Projecting

variable {α β : Type} {context : Context} {bound : Nat} {W : Alias → Prop}
variable {P : List Alias → α → Prop} {Q : List Alias → β → Prop}

/-- The functions that are taken out have the one property, and what the computation gives has the
other one beside these functions, however many more are taken out later. -/
def Ensures (context : Context) (bound : Nat) (W : Alias → Prop) (P : List Alias → α → Prop)
    (x : Projecting α) : Prop :=
  ∀ windows, Planner.Ensures context bound
    (fun r => Windows.Grows W windows r.2 ∧ ∀ taken, r.2.getD [] ⊆ taken → P taken r.1)
    (x.run windows)

theorem ensures_pure {a : α} (h : ∀ taken, P taken a) : Ensures context bound W P (pure a) :=
  fun windows => Planner.ensures_pure ⟨.refl windows, fun taken _ => h taken⟩

/-- Planning without window functions promises the same where they are allowed. -/
theorem ensures_lift {R : α → Prop} {x : Planner α} (h : x.Ensures context bound R) :
    Ensures context bound W (fun _ => R) (liftM x) :=
  fun windows => h.bind fun _ hR => Planner.ensures_pure ⟨.refl windows, fun _ _ => hR⟩

/-- Less may be promised. -/
theorem Ensures.mono {R : List Alias → α → Prop} {x : Projecting α}
    (h : Ensures context bound W P x) (hPR : ∀ taken a, P taken a → R taken a) :
    Ensures context bound W R x :=
  fun windows => (h windows).mono fun _ hr =>
    ⟨hr.1, fun taken htaken => hPR taken _ (hr.2 taken htaken)⟩

theorem ensures_fail (e : PlanningError) :
    Ensures context bound W P (liftM (Planner.fail e : Planner α)) :=
  Ensures.mono (ensures_lift (R := fun _ => False) (Planner.ensures_fail e)) fun _ _ h => h.elim

/-- What the first computation gives has its property also beside the functions that the second one
takes out. -/
theorem Ensures.bind {x : Projecting α} {f : α → Projecting β} (h : Ensures context bound W P x)
    (hf : ∀ a, Ensures context bound W (fun taken b => P taken a → Q taken b) (f a)) :
    Ensures context bound W Q (x >>= f) := by
  intro windows
  refine (h windows).bind fun r hr => (hf r.1 r.2).mono fun s hs => ?_
  refine ⟨hr.1.trans hs.1, fun taken htaken => ?_⟩
  exact hs.2 taken htaken (hr.2 taken (List.Subset.trans hs.1.keeps htaken))

/-- What is run on a list promises of all values what it promises of each, beside all functions that
were taken out. -/
theorem ensures_mapM {γ : Type} {f : γ → Projecting α} {xs : List γ}
    (h : ∀ x ∈ xs, Ensures context bound W P (f x)) :
    Ensures context bound W (fun taken as => ∀ a ∈ as, P taken a) (xs.mapM f) := by
  induction xs with
  | nil => exact ensures_pure (by simp)
  | cons x rest ih =>
    rw [List.mapM_cons]
    refine (h x List.mem_cons_self).bind fun a => ?_
    refine (ih fun y hy => h y (List.mem_cons_of_mem x hy)).bind fun as => ?_
    refine ensures_pure fun taken has ha b hb => ?_
    exact (List.mem_cons.1 hb).elim (fun h => h ▸ ha) (has b)

/-- Where no window functions are allowed none are taken out. -/
theorem Ensures.run_none {x : Projecting α} (h : Ensures context bound W P x) :
    (x.run none).Ensures context bound fun r => P [] r.1 :=
  (h none).mono fun r hr => hr.2 [] (by simp [hr.1.forbids rfl])

/-- All functions that are taken out have the property. -/
theorem Ensures.run_some {x : Projecting α} (h : Ensures context bound W P x) :
    (x.run (some [])).Ensures context bound fun r =>
      (∀ f ∈ r.2.getD [], W f) ∧ P (r.2.getD []) r.1 :=
  (h (some [])).mono fun _ hr => ⟨hr.1.all (by simp), hr.2 _ (List.Subset.refl _)⟩

end Projecting

end ColumnTrace
