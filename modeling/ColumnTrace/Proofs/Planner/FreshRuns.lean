import ColumnTrace.Planner.Expression
import ColumnTrace.Proofs.Plans.Introduced
import Mathlib.Tactic.SplitIfs

/-!
# Numbers that a planner hands out

A planning computation only moves its numbers on, and what its value introduces was introduced by
what it works on, or is handed out on the way: every identity at most as often as both together
(`Planner.Introduces`). A number is handed out once, between the numbers before and after it. There
is one rule for each way to build a computation; a computation that collects window functions has
rules of its own (`Projecting.Introduces`).
-/

set_option autoImplicit false

namespace ColumnTrace

/-! ## Numbers -/

namespace Numbers

/-- No number is taken back. -/
structure MovesTo (first last : Numbers) : Prop where
  column : first.column ≤ last.column
  cte : first.cte ≤ last.cte

/-- How often an identity is handed out on the way from the first numbers to the last. -/
def handedOut (first last : Numbers) : Identity → Nat
  | .column id => if (first.column : Int) ≤ id ∧ id < last.column then 1 else 0
  | .query number => if (first.cte : Int) ≤ number ∧ number < last.cte then 1 else 0

variable {first middle last : Numbers}

theorem MovesTo.refl (numbers : Numbers) : numbers.MovesTo numbers := ⟨Nat.le_refl _, Nat.le_refl _⟩

/-- Numbers that move on twice move on. -/
theorem MovesTo.trans (h : first.MovesTo middle) (h' : middle.MovesTo last) :
    first.MovesTo last :=
  ⟨Nat.le_trans h.column h'.column, Nat.le_trans h.cte h'.cte⟩

/-- No identity is handed out twice. -/
theorem handedOut_le_one (identity : Identity) : handedOut first last identity ≤ 1 := by
  cases identity <;> rw [handedOut] <;> split <;> omega

/-- What is handed out on the way is handed out on the first part of the way or on the second, and
not on both. -/
theorem handedOut_add (h : first.MovesTo middle) (h' : middle.MovesTo last)
    (identity : Identity) : handedOut first middle identity + handedOut middle last identity =
      handedOut first last identity := by
  obtain ⟨hcolumn, hcte⟩ := h
  obtain ⟨hcolumn', hcte'⟩ := h'
  cases identity <;> simp only [handedOut] <;> split_ifs <;> omega

end Numbers

/-! ## Planning -/

/-- The numbers only moved on from the first ones, and each identity that the value introduces was
known before or is handed out on the way, as often as it is introduced. -/
structure Outcome.Introduces {α : Type} (known : List Identity) (f : α → List Identity)
    (first : Numbers) (outcome : Outcome α) : Prop where
  moves : first.MovesTo outcome.numbers
  count_le : ∀ a, outcome.result = .ok a → ∀ identity,
    (f a).count identity ≤ known.count identity + first.handedOut outcome.numbers identity

namespace Planner

variable {α β κ : Type} {known l : List Identity} {f : α → List Identity}
  {g : β → List Identity}

/-- Run from any numbers, the computation only moves them on, and its value introduces only what was
known before or is handed out by the run. -/
def Introduces (known : List Identity) (f : α → List Identity) (x : Planner α) : Prop :=
  ∀ context numbers, (x context numbers).Introduces known f numbers

/-- The numbers only move on; the value introduces nothing. -/
abbrev Advances (x : Planner α) : Prop := Introduces [] (fun _ => []) x

/-- A value that introduces only what was known introduces nothing new. -/
theorem introduces_pure {a : α}
    (h : ∀ identity, (f a).count identity ≤ known.count identity) :
    Introduces known f (pure a) := by
  refine fun _ numbers => ⟨.refl numbers, ?_⟩
  rintro _ ⟨⟩ identity
  exact Nat.le_add_right_of_le (h identity)

theorem introduces_pure_of_eq {a : α} (h : f a = known) : Introduces known f (pure a) :=
  introduces_pure fun _ => Nat.le_of_eq (congrArg _ h)

theorem introduces_fail (e : PlanningError) : Introduces known f (fail e) :=
  fun _ numbers => ⟨.refl numbers, nofun⟩

/-- More may be known beforehand than is needed, and less of the value may count. -/
theorem Introduces.imp {f' : α → List Identity} {x : Planner α} (h : Introduces known f x)
    (hknown : ∀ identity, known.count identity ≤ l.count identity)
    (hids : ∀ a identity, (f' a).count identity ≤ (f a).count identity) :
    Introduces l f' x := by
  refine fun context numbers => ⟨(h context numbers).moves, fun a ha identity => ?_⟩
  have hcount := (h context numbers).count_le a ha identity
  exact Nat.le_trans (hids a identity)
    (Nat.le_trans hcount (Nat.add_le_add_right (hknown identity) _))

/-- More may have been known. -/
theorem Introduces.of_known {x : Planner α} (h : Introduces known f x)
    (hknown : ∀ identity, known.count identity ≤ l.count identity) : Introduces l f x :=
  h.imp hknown fun _ _ => Nat.le_refl _

/-- The second computation may use what the first introduces, and what the first has no use for. -/
theorem Introduces.bindWith {x : Planner α} {k : α → Planner β} (h : Introduces known f x)
    (hk : ∀ a, Introduces (f a ++ l) g (k a)) :
    Introduces (known ++ l) g (x >>= k) := by
  intro context numbers
  obtain ⟨hfirst, hcount⟩ := h context numbers
  rw [bind_apply]
  cases hx : (x context numbers).result with
  | error e => exact ⟨hfirst, nofun⟩
  | ok a =>
    obtain ⟨hsecond, hcount'⟩ := hk a context (x context numbers).numbers
    refine ⟨hfirst.trans hsecond, fun b hb identity => ?_⟩
    have hadd := Numbers.handedOut_add hfirst hsecond identity
    have hfirst := hcount a hx identity
    have hsecond := hcount' b hb identity
    rw [List.count_append] at hsecond ⊢
    dsimp only
    omega

/-- What the first computation introduced may go into the value of the second. -/
theorem Introduces.bind {x : Planner α} {k : α → Planner β} (h : Introduces [] f x)
    (hk : ∀ a, Introduces (f a ++ known) g (k a)) : Introduces known g (x >>= k) :=
  h.bindWith hk

/-- A computation that introduces nothing may come first. -/
theorem Advances.bind {x : Planner α} {k : α → Planner β} (h : Advances x)
    (hk : ∀ a, Introduces known g (k a)) : Introduces known g (x >>= k) :=
  Introduces.bind h hk

theorem introduces_fail_bind (e : PlanningError) (k : α → Planner β) :
    Introduces known g (fail e >>= k) :=
  fun _ numbers => ⟨.refl numbers, nofun⟩

/-- A result that needs no context introduces only what was known. -/
theorem introduces_ofExcept {x : Except PlanningError α}
    (h : ∀ a, x = .ok a → ∀ identity, (f a).count identity ≤ known.count identity) :
    Introduces known f (ofExcept x) := by
  cases x with
  | ok a => exact introduces_pure (h a rfl)
  | error e => exact introduces_fail e

theorem advances_ofExcept (x : Except PlanningError α) : Advances (ofExcept x) :=
  introduces_ofExcept fun _ _ _ => Nat.le_refl _

/-- A result that needs no context may come first. -/
theorem introduces_ofExcept_bind {x : Except PlanningError α} {k : α → Planner β}
    (hk : ∀ a, Introduces known g (k a)) : Introduces known g (ofExcept x >>= k) :=
  (advances_ofExcept x).bind hk

/-- A part that is required introduces nothing. -/
theorem advances_require (found : Option α) : Advances (require found) := by
  cases found with
  | some a => exact introduces_pure_of_eq rfl
  | none => exact introduces_fail _

theorem advances_note (entry : LogEntry) : Advances (note entry) :=
  fun _ numbers => ⟨.refl numbers, fun _ _ _ => Nat.zero_le _⟩

theorem advances_context : Advances context :=
  fun _ numbers => ⟨.refl numbers, fun _ _ _ => Nat.zero_le _⟩

theorem advances_catalog : Advances catalog :=
  advances_context.bind fun _ => introduces_pure_of_eq rfl

theorem advances_write (n : Sql.Node) : Advances (write n) :=
  advances_context.bind fun _ => advances_ofExcept _

theorem advances_findCte? (name : String) : Advances (findCte? name) :=
  advances_context.bind fun _ => introduces_pure_of_eq rfl

/-- A bracket introduces what the computation in it does. -/
theorem introduces_within {b : Bracket} {x : Planner α} (h : Introduces known f x) :
    Introduces known f (within b x) :=
  fun context numbers => h (b.change context) numbers

/-- The next number for a column is handed out. -/
theorem introduces_freshId : Introduces [] (fun id => [.column id]) freshId := by
  refine fun context numbers => ⟨⟨Nat.le_succ _, Nat.le_refl _⟩, ?_⟩
  rintro _ ⟨⟩ identity
  by_cases h : identity = .column numbers.column
  · have hnext : numbers.handedOut (freshId context numbers).numbers identity = 1 := by
      rw [h]
      exact if_pos ⟨Int.le_refl _, Int.ofNat_lt.2 (Nat.lt_succ_self _)⟩
    rw [hnext, h]
    exact Nat.le_of_eq List.count_singleton_self
  · rw [List.count_eq_zero.2 (mt List.mem_singleton.1 h)]
    exact Nat.zero_le _

/-- The next number for a named query is handed out. -/
theorem introduces_freshCteId : Introduces [] (fun number => [.query number]) freshCteId := by
  refine fun context numbers => ⟨⟨Nat.le_refl _, Nat.le_succ _⟩, ?_⟩
  rintro _ ⟨⟩ identity
  by_cases h : identity = .query numbers.cte
  · have hnext : numbers.handedOut (freshCteId context numbers).numbers identity = 1 := by
      rw [h]
      exact if_pos ⟨Int.le_refl _, Int.ofNat_lt.2 (Nat.lt_succ_self _)⟩
    rw [hnext, h]
    exact Nat.le_of_eq List.count_singleton_self
  · rw [List.count_eq_zero.2 (mt List.mem_singleton.1 h)]
    exact Nat.zero_le _

/-- A new column introduces its own identity. -/
theorem introduces_freshColumn (name : Label) :
    Introduces [] (fun a => [.column a.id]) (freshColumn name) :=
  introduces_freshId.bind fun _ => introduces_pure_of_eq rfl

/-- What is known of the members of a list is used for each of them. -/
theorem introduces_mapM {known : κ → List Identity} {k : κ → Planner β} {xs : List κ}
    (hk : ∀ x ∈ xs, Introduces (known x) g (k x)) :
    Introduces (xs.flatMap known) (List.flatMap g) (xs.mapM k) := by
  induction xs with
  | nil => exact introduces_pure_of_eq rfl
  | cons x rest ih =>
    rw [List.mapM_cons, List.flatMap_cons]
    refine (hk x List.mem_cons_self).bindWith fun b => ?_
    have hrest := ih fun y hy => hk y (List.mem_cons_of_mem x hy)
    refine (hrest.bindWith (l := g b) fun bs => introduces_pure fun identity => ?_).of_known
      fun identity => ?_
    · simp only [List.flatMap_cons, List.count_append]
      omega
    · simp only [List.count_append]
      omega

/-- Nothing is known of the members of the list. -/
theorem introduces_mapM_of_nil {k : κ → Planner β} {xs : List κ}
    (hk : ∀ x ∈ xs, Introduces [] g (k x)) :
    Introduces [] (List.flatMap g) (xs.mapM k) :=
  (introduces_mapM hk).of_known fun _ =>
    Nat.le_of_eq (congrArg _ (List.flatMap_eq_nil_iff.2 fun _ _ => rfl))

/-- What introduces nothing may be run on a list. -/
theorem advances_mapM {k : κ → Planner β} {xs : List κ} (hk : ∀ x ∈ xs, Advances (k x)) :
    Advances (xs.mapM k) :=
  (introduces_mapM_of_nil hk).imp (fun _ => Nat.le_refl _) fun _ _ => Nat.zero_le _

/-- New columns introduce their own identities. -/
theorem introduces_freshColumns (names : List Label) :
    Introduces [] Identity.ofColumns (freshColumns names) :=
  (introduces_mapM_of_nil fun name _ => introduces_freshColumn name).imp (fun _ => Nat.le_refl _)
    fun _ _ => Nat.le_of_eq (congrArg _ List.map_eq_flatMap)

/-- New columns with the names of others introduce their own identities. -/
theorem introduces_freshLike (attrs : List Attribute) :
    Introduces [] Identity.ofColumns (freshLike attrs) :=
  introduces_freshColumns _

end Planner

/-! ## Window functions -/

/-- The identities that the window functions introduce which were taken out. -/
def Windows.introduced (windows : Windows) : List Identity :=
  (windows.getD []).flatMap Alias.introduced

namespace Projecting

variable {α β κ : Type} {known : List Identity} {f : α → List Identity}
  {g : β → List Identity}

/-- What the value and the window functions introduce that are taken out was known before, was
introduced by those that were taken out before, or is handed out by the run. -/
def Introduces (known : List Identity) (f : α → List Identity) (x : Projecting α) : Prop :=
  ∀ windows : Windows, Planner.Introduces (windows.introduced ++ known)
    (fun p => Windows.introduced p.2 ++ f p.1) (x.run windows)

/-- A value that introduces only what was known introduces nothing new. -/
theorem introduces_pure {a : α}
    (h : ∀ identity, (f a).count identity ≤ known.count identity) :
    Introduces known f (pure a) :=
  fun windows => Planner.introduces_pure fun identity => by
    simp only [List.count_append]
    exact Nat.add_le_add_left (h identity) _

theorem introduces_pure_of_eq {a : α} (h : f a = known) : Introduces known f (pure a) :=
  introduces_pure fun _ => Nat.le_of_eq (congrArg _ h)

/-- Planning without window functions introduces the same where they are allowed. -/
theorem introduces_lift {x : Planner α} (h : Planner.Introduces known f x) :
    Introduces known f (liftM x) :=
  fun windows => (h.bindWith (l := windows.introduced) fun a =>
    Planner.introduces_pure fun identity => by
      simp only [List.count_append]
      omega).of_known fun identity => by
    simp only [List.count_append]
    omega

/-- What the first computation introduced may go into the value of the second. -/
theorem Introduces.bind {x : Projecting α} {k : α → Projecting β} (h : Introduces [] f x)
    (hk : ∀ a, Introduces (f a ++ known) g (k a)) : Introduces known g (x >>= k) := by
  intro windows
  have hfirst := h windows
  rw [List.append_nil] at hfirst
  refine hfirst.bindWith fun first => ?_
  rw [List.append_assoc]
  exact hk first.1 first.2

theorem introduces_ofExcept_bind {x : Except PlanningError α} {k : α → Projecting β}
    (hk : ∀ a, Introduces known g (k a)) :
    Introduces known g ((liftM (Planner.ofExcept x) : Projecting α) >>= k) :=
  (introduces_lift (Planner.advances_ofExcept x)).bind hk

/-- What is run on a list introduces what it does on each member. -/
theorem introduces_mapM {k : κ → Projecting β} {xs : List κ}
    (hk : ∀ x ∈ xs, Introduces [] g (k x)) :
    Introduces [] (List.flatMap g) (xs.mapM k) := by
  induction xs with
  | nil => exact introduces_pure_of_eq rfl
  | cons x rest ih =>
    rw [List.mapM_cons]
    refine (hk x List.mem_cons_self).bind fun b => ?_
    refine (ih fun y hy => hk y (List.mem_cons_of_mem x hy)).bind fun bs => ?_
    refine introduces_pure fun identity => ?_
    simp only [List.flatMap_cons, List.count_append]
    omega

/-- Without window functions there is only the value. -/
theorem Introduces.value {x : Projecting α} (h : Introduces known f x) :
    Planner.Introduces known f (do return (← x.run none).1) :=
  ((h none).bindWith (l := []) fun first => Planner.introduces_pure fun identity => by
    simp only [List.count_append]
    omega).of_known fun identity => by
    simp only [Windows.introduced, Option.getD_none, List.flatMap_nil, List.count_append,
      List.count_nil]
    omega

end Projecting

end ColumnTrace
