import ColumnTrace.Log

/-!
# Computations that keep a log

`Traced ε α` is the outcome of a computation that may fail and that keeps a log: what was logged
before a failure stays. The log of a sequence is the log of its parts in order.
-/

set_option autoImplicit false

namespace ColumnTrace

universe u v

/-- A log, and a value or a failure. -/
structure Traced (ε : Type u) (α : Type v) where
  log : Log
  result : Except ε α

namespace Traced

variable {ε : Type u} {α β γ : Type v}

@[ext]
theorem ext {x y : Traced ε α} (hlog : x.log = y.log) (hresult : x.result = y.result) : x = y := by
  cases x; cases y; cases hlog; cases hresult; rfl

/-- A value without any log. -/
protected def pure (a : α) : Traced ε α := ⟨[], .ok a⟩

/-- The second computation starts from the value of the first, if there is one. -/
protected def bind (x : Traced ε α) (f : α → Traced ε β) : Traced ε β :=
  match x.result with
  | .ok a => ⟨x.log ++ (f a).log, (f a).result⟩
  | .error e => ⟨x.log, .error e⟩

instance : Monad (Traced ε) where
  pure := Traced.pure
  bind := Traced.bind

/-- The computation fails. -/
def fail (e : ε) : Traced ε α := ⟨[], .error e⟩

/-- One entry is logged. -/
def note (entry : LogEntry) : Traced ε PUnit := ⟨[entry], .ok ⟨⟩⟩

/-- After a value the computation goes on, and its log comes after the first. -/
theorem bind_of_ok {x : Traced ε α} {a : α} (h : x.result = .ok a) (f : α → Traced ε β) :
    x >>= f = ⟨x.log ++ (f a).log, (f a).result⟩ := by
  show Traced.bind x f = _
  rw [Traced.bind, h]

/-- After a failure the computation does not go on. -/
theorem bind_of_error {x : Traced ε α} {e : ε} (h : x.result = .error e) (f : α → Traced ε β) :
    x >>= f = ⟨x.log, .error e⟩ := by
  show Traced.bind x f = _
  rw [Traced.bind, h]

/-- The result of a sequence does not look at the log. -/
theorem result_bind (x : Traced ε α) (f : α → Traced ε β) :
    (x >>= f).result = x.result.bind fun a => (f a).result := by
  cases h : x.result with
  | ok a => rw [bind_of_ok h]; rfl
  | error e => rw [bind_of_error h]; rfl

instance : LawfulMonad (Traced ε) := LawfulMonad.mk' (Traced ε)
  (fun x => by
    show Traced.bind x (Traced.pure ∘ id) = x
    cases h : x.result <;> simp [Traced.bind, Traced.pure, h, Traced.ext_iff])
  (fun a f => by
    show Traced.bind (Traced.pure a) f = f a
    simp [Traced.bind, Traced.pure])
  (fun x f g => by
    show Traced.bind (Traced.bind x f) g = Traced.bind x fun a => Traced.bind (f a) g
    cases h : x.result with
    | error e => simp [Traced.bind, h]
    | ok a => cases h' : (f a).result <;> simp [Traced.bind, h, h'])

end Traced

end ColumnTrace
