/-!
# Levels of a forest

The level order of a forest lists its nodes from the top down, and on each level from left to right.
It is put together from the levels of the trees: `overlay` sets two lists of levels side by side.
-/

set_option autoImplicit false

namespace ColumnTrace

universe u v

variable {α : Type u} {β : Type v}

/-- Two lists of levels side by side. -/
def overlay : List (List α) → List (List α) → List (List α)
  | [], levels => levels
  | levels, [] => levels
  | level :: levels, level' :: levels' => (level ++ level') :: overlay levels levels'

@[simp]
theorem overlay_nil_right (levels : List (List α)) : overlay levels [] = levels := by
  cases levels <;> rfl

@[simp]
theorem overlay_nil_left (levels : List (List α)) : overlay [] levels = levels := by
  cases levels <;> rfl

/-- It does not matter how levels are put together. -/
theorem overlay_assoc (xs ys zs : List (List α)) :
    overlay (overlay xs ys) zs = overlay xs (overlay ys zs) := by
  induction xs generalizing ys zs with
  | nil => simp
  | cons x xs ih =>
    cases ys with
    | nil => simp
    | cons y ys =>
      cases zs with
      | nil => simp
      | cons z zs => simp only [overlay, ih, List.append_assoc]

/-- What is done to every entry may be done before or after. -/
theorem map_overlay (f : α → β) (xs ys : List (List α)) :
    (overlay xs ys).map (List.map f) = overlay (xs.map (List.map f)) (ys.map (List.map f)) := by
  induction xs generalizing ys with
  | nil => simp
  | cons x xs ih =>
    cases ys with
    | nil => simp
    | cons y ys => simp [overlay, ih]

/-- Nothing is lost and nothing is added. -/
theorem mem_flatten_overlay {a : α} {xs ys : List (List α)} :
    a ∈ (overlay xs ys).flatten ↔ a ∈ xs.flatten ∨ a ∈ ys.flatten := by
  induction xs generalizing ys with
  | nil => simp
  | cons x xs ih =>
    cases ys with
    | nil => simp
    | cons y ys =>
      simp only [overlay, List.flatten_cons, List.mem_append, ih]
      constructor
      · rintro ((h | h) | h | h) <;> simp [h]
      · rintro ((h | h) | h | h) <;> simp [h]

end ColumnTrace
