import ColumnTrace.Plan.Expr

/-!
# Parts of expressions

What a list of expressions refers to is what its members refer to. A substitution exchanges the
attributes of an expression one by one and leaves everything else of it as it is.
-/

set_option autoImplicit false

namespace ColumnTrace

/-- An argument of a count is smaller than the count. -/
theorem Expr.sizeOf_lt_count {e : Expr} {args : List Expr} {distinct : Bool} (h : e ∈ args) :
    sizeOf e < sizeOf (Expr.count args distinct) := by
  have := List.sizeOf_lt_of_mem h
  simp only [Expr.count.sizeOf_spec]
  omega

/-- Expressions together have the columns of each. -/
theorem Expr.mem_attributesOfAll {a : Attribute} {es : List Expr} :
    a ∈ Expr.attributesOfAll es ↔ ∃ e ∈ es, a ∈ e.attributes := by
  induction es with
  | nil => simp [Expr.attributesOfAll]
  | cons e rest ih => simp [Expr.attributesOfAll, ih]

/-- Expressions together have the subqueries of each. -/
theorem Expr.mem_subqueriesOfAll {query : Plan} {es : List Expr} :
    query ∈ Expr.subqueriesOfAll es ↔ ∃ e ∈ es, query ∈ e.subqueries := by
  induction es with
  | nil => simp [Expr.subqueriesOfAll]
  | cons e rest ih => simp [Expr.subqueriesOfAll, ih]

/-- The subqueries of two lists come one after the other. -/
theorem Expr.subqueriesOfAll_append (es fs : List Expr) :
    Expr.subqueriesOfAll (es ++ fs) = Expr.subqueriesOfAll es ++ Expr.subqueriesOfAll fs := by
  induction es with
  | nil => rfl
  | cons e rest ih =>
    rw [List.cons_append, Expr.subqueriesOfAll, ih, Expr.subqueriesOfAll, List.append_assoc]

/-! ## Exchanged attributes -/

/-- The attribute, or what it gives way to. -/
def Attribute.exchange (f : Int → Option Attribute) (a : Attribute) : Attribute := (f a.id).getD a

section
variable (f : Int → Option Attribute)

mutual

/-- A substitution exchanges the columns of an expression one by one. -/
theorem Expr.attributes_substitute :
    ∀ e : Expr, (e.substitute f).attributes = e.attributes.map (·.exchange f)
  | .column _ => rfl
  | .literal _ => rfl
  | .call _ args => Expr.attributesOfAll_substituteAll args
  | .count args _ => Expr.attributesOfAll_substituteAll args
  | .subquery _ => rfl
  | .windowed function partition order => by
    simp only [Expr.substitute, Expr.attributes, List.map_append, function.attributes_substitute,
      Expr.attributesOfAll_substituteAll partition, Expr.attributesOfAll_substituteAll order]
  | .aliased (.mk child _ _) => child.attributes_substitute

/-- A substitution exchanges the columns of several expressions one by one. -/
theorem Expr.attributesOfAll_substituteAll : ∀ es : List Expr,
    Expr.attributesOfAll (Expr.substituteAll f es) =
      (Expr.attributesOfAll es).map (·.exchange f)
  | [] => rfl
  | e :: rest => by
    simp only [Expr.substituteAll, Expr.attributesOfAll, List.map_append, e.attributes_substitute,
      Expr.attributesOfAll_substituteAll rest]

end

mutual

/-- A substitution leaves subqueries alone. -/
theorem Expr.subqueries_substitute : ∀ e : Expr, (e.substitute f).subqueries = e.subqueries
  | .column _ => rfl
  | .literal _ => rfl
  | .call _ args => Expr.subqueriesOfAll_substituteAll args
  | .count args _ => Expr.subqueriesOfAll_substituteAll args
  | .subquery _ => rfl
  | .windowed function partition order => by
    simp only [Expr.substitute, Expr.subqueries, function.subqueries_substitute,
      Expr.subqueriesOfAll_substituteAll partition, Expr.subqueriesOfAll_substituteAll order]
  | .aliased (.mk child _ _) => child.subqueries_substitute

/-- A substitution leaves the subqueries of several expressions alone. -/
theorem Expr.subqueriesOfAll_substituteAll : ∀ es : List Expr,
    Expr.subqueriesOfAll (Expr.substituteAll f es) = Expr.subqueriesOfAll es
  | [] => rfl
  | e :: rest => by
    simp only [Expr.substituteAll, Expr.subqueriesOfAll, e.subqueries_substitute,
      Expr.subqueriesOfAll_substituteAll rest]

end

mutual

/-- An expression counts rows after a substitution if it did before. -/
theorem Expr.countsRows_substitute : ∀ e : Expr, (e.substitute f).countsRows = e.countsRows
  | .column _ => rfl
  | .literal _ => rfl
  | .call _ args => Expr.anyCountsRows_substituteAll args
  | .count args _ => by
    simp only [Expr.substitute, Expr.countsRows, Expr.anyCountsRows_substituteAll args,
      Expr.attributesOfAll_substituteAll f args, List.isEmpty_map]
  | .subquery _ => rfl
  | .windowed function partition order => by
    simp only [Expr.substitute, Expr.countsRows, function.countsRows_substitute,
      Expr.anyCountsRows_substituteAll partition, Expr.anyCountsRows_substituteAll order]
  | .aliased (.mk child _ _) => child.countsRows_substitute

/-- Whether one of several expressions counts rows is not changed by a substitution. -/
theorem Expr.anyCountsRows_substituteAll : ∀ es : List Expr,
    Expr.anyCountsRows (Expr.substituteAll f es) = Expr.anyCountsRows es
  | [] => rfl
  | e :: rest => by
    simp only [Expr.substituteAll, Expr.anyCountsRows, e.countsRows_substitute,
      Expr.anyCountsRows_substituteAll rest]

end

end

end ColumnTrace
