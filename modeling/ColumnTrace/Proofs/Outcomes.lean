import ColumnTrace.Traced
import Mathlib.Data.List.Forall2

/-!
# Outcomes of computations that keep a log

What a computation ends in does not depend on its log. A sequence ends well if and only if its parts
do (`result_bind_eq_ok`), and so does a computation that is run on every member of a list
(`result_mapM_eq_ok`). What it may end in is said by `Ends`, of its value and of its error at once.
One computation is sent to another if it ends alike in other terms (`Sends`); two computations match
if they log the same and end alike (`Matches`).
-/

set_option autoImplicit false

namespace ColumnTrace

universe u v

/-- Whatever stands on the right of a relation between lists has a partner on the left. -/
theorem exists_left_of_forall₂ {α β : Type} {R : α → β → Prop} {xs : List α} {ys : List β}
    (h : List.Forall₂ R xs ys) {y : β} (hy : y ∈ ys) : ∃ x ∈ xs, R x y := by
  induction h with
  | nil => cases hy
  | cons hxy _ ih =>
    rcases List.mem_cons.1 hy with rfl | hrest
    · exact ⟨_, List.mem_cons_self, hxy⟩
    · obtain ⟨x, hx, hxy⟩ := ih hrest
      exact ⟨x, List.mem_cons_of_mem _ hx, hxy⟩

/-- Where every member of a list has a partner, there is a list of partners. -/
theorem exists_forall₂ {α β : Type} {R : α → β → Prop} {xs : List α}
    (h : ∀ x ∈ xs, ∃ y, R x y) : ∃ ys, List.Forall₂ R xs ys := by
  induction xs with
  | nil => exact ⟨[], .nil⟩
  | cons x rest ih =>
    obtain ⟨y, hy⟩ := h x List.mem_cons_self
    obtain ⟨ys, hys⟩ := ih fun z hz => h z (List.mem_cons_of_mem x hz)
    exact ⟨y :: ys, .cons hy hys⟩

/-- Related lists split alike where their first parts have one length. -/
theorem forall₂_of_append {α β : Type} {R : α → β → Prop} {xs us : List α} {ys vs : List β}
    (hlength : xs.length = ys.length) (h : List.Forall₂ R (xs ++ us) (ys ++ vs)) :
    List.Forall₂ R xs ys ∧ List.Forall₂ R us vs := by
  constructor
  · have htake := List.forall₂_take xs.length h
    rwa [List.take_left' rfl, List.take_left' hlength.symm] at htake
  · have hdrop := List.forall₂_drop xs.length h
    rwa [List.drop_left' rfl, List.drop_left' hlength.symm] at hdrop

namespace Traced

variable {ε : Type u} {α β : Type v}

@[simp]
theorem result_pure (a : α) : (pure a : Traced ε α).result = .ok a := rfl

@[simp]
theorem result_fail (e : ε) : (fail e : Traced ε α).result = .error e := rfl

/-- A sequence ends well if and only if both parts do. -/
theorem result_bind_eq_ok {x : Traced ε α} {f : α → Traced ε β} {b : β} :
    (x >>= f).result = .ok b ↔ ∃ a, x.result = .ok a ∧ (f a).result = .ok b := by
  rw [result_bind]
  cases h : x.result with
  | ok a => simp [Except.bind]
  | error e => simp [Except.bind]

/-- After a value the result is that of what follows. -/
theorem result_bind_of_ok {x : Traced ε α} {f : α → Traced ε β} {a : α}
    (h : x.result = .ok a) : (x >>= f).result = (f a).result := by
  rw [result_bind, h]
  rfl

/-- Two continuations are alike where they are for every value that they are run on. -/
theorem bind_congr_of_ok {x : Traced ε α} {f g : α → Traced ε β}
    (h : ∀ a, x.result = .ok a → f a = g a) : x >>= f = x >>= g := by
  cases hx : x.result with
  | ok a => rw [bind_of_ok hx, bind_of_ok hx, h a hx]
  | error e => rw [bind_of_error hx, bind_of_error hx]

theorem result_note_bind (entry : LogEntry) (f : PUnit → Traced ε β) :
    (note entry >>= f).result = (f ⟨⟩).result :=
  result_bind_of_ok rfl

/-- A computation on every member of a list ends well if and only if it does for each member. -/
theorem result_mapM_eq_ok {γ : Type u} {f : γ → Traced ε α} {xs : List γ} {ys : List α} :
    (xs.mapM f).result = .ok ys ↔ List.Forall₂ (fun x y => (f x).result = .ok y) xs ys := by
  induction xs generalizing ys with
  | nil =>
    rw [List.mapM_nil, result_pure, List.forall₂_nil_left_iff, Except.ok.injEq, eq_comm]
  | cons x rest ih =>
    rw [List.mapM_cons, result_bind_eq_ok, List.forall₂_cons_left_iff]
    constructor
    · rintro ⟨y, hy, hrest⟩
      obtain ⟨zs, hzs, hys⟩ := result_bind_eq_ok.1 hrest
      exact ⟨y, zs, hy, ih.1 hzs, (Except.ok.inj hys).symm⟩
    · rintro ⟨y, zs, hy, hzs, rfl⟩
      exact ⟨y, hy, result_bind_eq_ok.2 ⟨zs, ih.2 hzs, rfl⟩⟩

/-- What is run on every member of a list ends well on each, if it does on the list. -/
theorem exists_ok_of_mapM {γ : Type u} {f : γ → Traced ε α} {xs : List γ} {ys : List α}
    (h : (xs.mapM f).result = .ok ys) {x : γ} (hx : x ∈ xs) : ∃ y, (f x).result = .ok y := by
  rw [result_mapM_eq_ok] at h
  induction h with
  | nil => cases hx
  | cons hy _ ih =>
    rcases List.mem_cons.1 hx with rfl | hrest
    · exact ⟨_, hy⟩
    · exact ih hrest

/-- The computation has a value with the one property or fails with an error with the other. -/
def Ends (P : α → Prop) (E : ε → Prop) (x : Traced ε α) : Prop :=
  match x.result with
  | .ok a => P a
  | .error e => E e

section
variable {P : α → Prop} {Q : β → Prop} {E : ε → Prop} {x : Traced ε α}

/-- A value has what the end promises of values. -/
theorem Ends.of_ok (h : x.Ends P E) {a : α} (ha : x.result = .ok a) : P a := by
  rw [Ends, ha] at h
  exact h

/-- An error has what the end promises of errors. -/
theorem Ends.of_error (h : x.Ends P E) {e : ε} (he : x.result = .error e) : E e := by
  rw [Ends, he] at h
  exact h

/-- Computations with one result end alike. -/
theorem ends_of_result_eq {y : Traced ε α} (hresult : x.result = y.result) (h : y.Ends P E) :
    x.Ends P E := by
  rw [Ends, hresult]
  exact h

theorem ends_pure {a : α} (h : P a) : (pure a : Traced ε α).Ends P E := h

theorem ends_fail {e : ε} (h : E e) : (fail e : Traced ε α).Ends P E := h

/-- An end is known by its value and its error. -/
theorem ends_iff : x.Ends P E ↔
    (∀ a, x.result = .ok a → P a) ∧ ∀ e, x.result = .error e → E e := by
  rw [Ends]
  cases x.result <;> simp

/-- Less may be promised. -/
theorem Ends.imp {P' : α → Prop} {E' : ε → Prop} (h : x.Ends P E) (hP : ∀ a, P a → P' a)
    (hE : ∀ e, E e → E' e) : x.Ends P' E' :=
  ends_iff.2 ⟨fun a ha => hP a (h.of_ok ha), fun e he => hE e (h.of_error he)⟩

theorem ends_trivial (x : Traced ε α) : x.Ends (fun _ => True) (fun _ => True) :=
  ends_iff.2 ⟨fun _ _ => trivial, fun _ _ => trivial⟩

/-- The second computation may count on what the first promises. -/
theorem Ends.bind (h : x.Ends P E) {f : α → Traced ε β} (hf : ∀ a, P a → (f a).Ends Q E) :
    (x >>= f).Ends Q E := by
  cases hx : x.result with
  | ok a => exact ends_of_result_eq (result_bind_of_ok hx) (hf a (h.of_ok hx))
  | error e =>
    rw [bind_of_error hx]
    exact h.of_error hx

/-- What is run on every member of a list promises of each value what it promises of its member. -/
theorem ends_mapM {γ : Type u} {f : γ → Traced ε α} {R : γ → α → Prop} {xs : List γ}
    (h : ∀ x ∈ xs, (f x).Ends (R x) E) : (xs.mapM f).Ends (List.Forall₂ R xs) E := by
  induction xs with
  | nil => exact ends_pure .nil
  | cons x rest ih =>
    rw [List.mapM_cons]
    refine (h x List.mem_cons_self).bind fun a ha => ?_
    refine (ih fun y hy => h y (List.mem_cons_of_mem x hy)).bind fun as has => ?_
    exact ends_pure (.cons ha has)

end

/-- A computation that gives back every member of a list gives back the list. -/
theorem mapM_eq_pure {f : α → Traced ε α} {xs : List α} (h : ∀ x ∈ xs, f x = pure x) :
    xs.mapM f = pure xs := by
  induction xs with
  | nil => rfl
  | cons x rest ih =>
    rw [List.mapM_cons, h x List.mem_cons_self, ih fun y hy => h y (List.mem_cons_of_mem _ hy),
      pure_bind, pure_bind]

/-! ## Computations whose outcomes are translated -/

section
variable {γ δ : Type v} {ε' : Type u} {e : ε → ε'} {f : α → β} {g : γ → δ}

/-- The second computation ends as the first does, with the value or the error translated. -/
def Sends (e : ε → ε') (f : α → β) (x : Traced ε α) (y : Traced ε' β) : Prop :=
  y.result = (x.result.map f).mapError e

theorem sends_pure {a : α} {b : β} (h : f a = b) : Sends e f (pure a) (pure b) :=
  congrArg Except.ok h.symm

theorem sends_fail (c : ε) : Sends e f (fail c) (fail (e c)) := rfl

/-- A computation is sent step by step. -/
theorem Sends.bind {x : Traced ε α} {y : Traced ε' β} {k : α → Traced ε γ} {l : β → Traced ε' δ}
    (h : Sends e f x y) (hk : ∀ a, Sends e g (k a) (l (f a))) :
    Sends e g (x >>= k) (y >>= l) := by
  rw [Sends, result_bind, result_bind, h]
  cases x.result with
  | ok a => exact hk a
  | error c => rfl

/-- The log does not matter. -/
theorem sends_note_bind (entry entry' : LogEntry) {x : Traced ε γ} {y : Traced ε' δ}
    (h : Sends e g x y) : Sends e g (note entry >>= fun _ => x) (note entry' >>= fun _ => y) := by
  rw [Sends, result_note_bind, result_note_bind]
  exact h

/-- What is run on a list is sent member by member. -/
theorem sends_mapM {κ ι : Type u} {k : κ → Traced ε γ} {l : ι → Traced ε' δ} {h : κ → ι}
    {xs : List κ} (hk : ∀ x ∈ xs, Sends e g (k x) (l (h x))) :
    Sends e (List.map g) (xs.mapM k) ((xs.map h).mapM l) := by
  induction xs with
  | nil => exact sends_pure rfl
  | cons x rest ih =>
    rw [List.mapM_cons, List.map_cons, List.mapM_cons]
    refine (hk x List.mem_cons_self).bind fun a => ?_
    refine (ih fun y hy => hk y (List.mem_cons_of_mem x hy)).bind fun as => ?_
    exact sends_pure rfl

end

/-! ## Computations that do alike -/

/-- The computations log the same, and fail with the same error or have values that are paired. -/
inductive Matches (R : α → β → Prop) : Traced ε α → Traced ε β → Prop
  | ok {log : Log} {a : α} {b : β} (h : R a b) : Matches R ⟨log, .ok a⟩ ⟨log, .ok b⟩
  | error {log : Log} {e : ε} : Matches R ⟨log, .error e⟩ ⟨log, .error e⟩

section
variable {γ δ : Type v} {R : α → β → Prop} {S : γ → δ → Prop} {x : Traced ε α} {y : Traced ε β}

theorem matches_pure {a : α} {b : β} (h : R a b) :
    Matches R (pure a : Traced ε α) (pure b) :=
  .ok h

/-- A computation matches itself. -/
theorem matches_of_eq {R : α → α → Prop} {x y : Traced ε α} (hxy : x = y)
    (h : ∀ a, x.result = .ok a → R a a) : Matches R x y := by
  subst hxy
  obtain ⟨log, result⟩ := x
  cases result with
  | ok a => exact .ok (h a rfl)
  | error e => exact .error

/-- Logging the same before changes nothing. -/
theorem Matches.prepend (h : Matches R x y) (log : Log) :
    Matches R ⟨log ++ x.log, x.result⟩ ⟨log ++ y.log, y.result⟩ := by
  cases h with
  | ok hab => exact .ok hab
  | error => exact .error

/-- Computations match step by step, where the second steps may count on what the first ended in. -/
theorem Matches.bind {f : α → Traced ε γ} {g : β → Traced ε δ} (h : Matches R x y)
    (hfg : ∀ a b, x.result = .ok a → y.result = .ok b → R a b → Matches S (f a) (g b)) :
    Matches S (x >>= f) (y >>= g) := by
  cases h with
  | ok hab =>
    rw [bind_of_ok rfl, bind_of_ok rfl]
    exact (hfg _ _ rfl rfl hab).prepend _
  | error => exact .error

/-- Matches may be chained if the relation between the values may. -/
theorem Matches.trans {R : α → α → Prop} {x y z : Traced ε α}
    (htrans : ∀ a b c, R a b → R b c → R a c) (hxy : Matches R x y) (hyz : Matches R y z) :
    Matches R x z := by
  cases hxy with
  | ok hab =>
    cases hyz with
    | ok hbc => exact .ok (htrans _ _ _ hab hbc)
  | error =>
    cases hyz with
    | error => exact .error

end

/-- What is run on two lists matches member by member. -/
theorem matches_mapM {κ ι : Type u} {R : α → β → Prop} {f : κ → Traced ε α} {g : ι → Traced ε β}
    {xs : List κ} {ys : List ι} (h : List.Forall₂ (fun x y => Matches R (f x) (g y)) xs ys) :
    Matches (List.Forall₂ R) (xs.mapM f) (ys.mapM g) := by
  induction h with
  | nil => exact .ok .nil
  | cons hxy _ ih =>
    rw [List.mapM_cons, List.mapM_cons]
    refine hxy.bind fun a b _ _ hab => ih.bind fun as bs _ _ habs => ?_
    exact matches_pure (.cons hab habs)

end Traced

end ColumnTrace
