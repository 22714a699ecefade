import ColumnTrace.Proofs.Plans.Outline

/-!
# Expressions and their operands

An expression is told by its operands, one level down, and by what is put around them. Taking the
operands out (`Expr.operands`) and putting others in (`Expr.withOperands`) undo each other, also for
a window function, which puts its operands into one row and has to find the places again where one
part ends and the next begins. Subqueries are no operands: a change of all subqueries changes an
operand as a whole and leaves what is around it (`Expr.mapSubqueries_eq_withOperands`). So an
expression is told by its outline and its subqueries (`Expr.eq_of_outline_eq`), and changing the
subqueries changes them and nothing else, as a functor does (`Expr.mapSubqueries_isFunctor`).
-/

set_option autoImplicit false

namespace ColumnTrace

namespace Expr

/-- The expression is a scalar subquery. -/
def isSubquery : Expr → Bool
  | .subquery _ => true
  | _ => false

/-- A scalar subquery holds a plan. -/
theorem exists_plan_of_isSubquery {e : Expr} (h : e.isSubquery = true) :
    ∃ plan, e = .subquery plan := by
  cases e with
  | subquery plan => exact ⟨plan, rfl⟩
  | _ => cases h

/-- The expressions that an expression is computed from, one level down and from left to right. -/
def operands : Expr → List Expr
  | .column _ => []
  | .literal _ => []
  | .call _ args => args
  | .count args _ => args
  | .subquery _ => []
  | .windowed function partition order => function :: (partition ++ order)
  | .aliased definition => [definition.child]

/-- The expression with other operands, as many as it has. -/
def withOperands : Expr → List Expr → Expr
  | .call name _, es => .call name es
  | .count _ distinct, es => .count es distinct
  | .windowed function partition _, es =>
    .windowed (es.headD function) (es.tail.take partition.length) (es.tail.drop partition.length)
  | .aliased definition, es =>
    .aliased (.mk (es.headD definition.child) definition.name definition.id)
  | e, _ => e

/-- The expression without its subqueries: a one-row relation stands for each. -/
def outline (e : Expr) : Expr := e.mapSubqueries fun _ => .oneRow

/-! ## Operands taken out and put in -/

/-- An expression with its own operands is itself. -/
theorem withOperands_operands (e : Expr) : e.withOperands e.operands = e := by
  cases e with
  | windowed function partition order => simp [withOperands, operands]
  | aliased definition => cases definition; rfl
  | _ => rfl

section
variable {e : Expr} {es fs : List Expr}

/-- New operands, as many as before, are the operands. -/
theorem operands_withOperands (h : es.length = e.operands.length) :
    (e.withOperands es).operands = es := by
  cases e with
  | call | count => rfl
  | column | literal | subquery => exact (List.eq_nil_of_length_eq_zero h).symm
  | windowed function partition order =>
    obtain ⟨first, rest, rfl⟩ := List.exists_cons_of_length_eq_add_one h
    simp [withOperands, operands]
  | aliased definition =>
    obtain ⟨child, rfl⟩ := List.length_eq_one_iff.1 h
    rfl

/-- What is put in first leaves nothing behind. -/
theorem withOperands_withOperands (hes : es.length = e.operands.length)
    (hfs : fs.length = e.operands.length) :
    (e.withOperands es).withOperands fs = e.withOperands fs := by
  cases e with
  | windowed function partition order =>
    obtain ⟨first, rest, rfl⟩ := List.exists_cons_of_length_eq_add_one hes
    obtain ⟨first', rest', rfl⟩ := List.exists_cons_of_length_eq_add_one hfs
    have hwidth : partition.length ≤ rest.length := by
      simp only [operands, List.length_cons, List.length_append] at hes
      omega
    simp [withOperands, List.length_take, hwidth]
  | aliased definition =>
    obtain ⟨child, rfl⟩ := List.length_eq_one_iff.1 hes
    obtain ⟨child', rfl⟩ := List.length_eq_one_iff.1 hfs
    rfl
  | _ => rfl

end

/-- An operand is smaller than its expression. -/
theorem sizeOf_lt_of_mem_operands {e operand : Expr} (h : operand ∈ e.operands) :
    sizeOf operand < sizeOf e := by
  cases e with
  | column | literal | subquery => cases h
  | call name args =>
    have : sizeOf operand < sizeOf args := List.sizeOf_lt_of_mem h
    simp only [call.sizeOf_spec]
    omega
  | count args distinct => exact sizeOf_lt_count h
  | windowed function partition order =>
    simp only [windowed.sizeOf_spec]
    simp only [operands, List.mem_cons, List.mem_append] at h
    rcases h with rfl | h | h
    · omega
    · have := List.sizeOf_lt_of_mem h
      omega
    · have := List.sizeOf_lt_of_mem h
      omega
  | aliased definition =>
    cases definition
    rw [List.mem_singleton.1 h]
    simp only [aliased.sizeOf_spec, Alias.mk.sizeOf_spec, Alias.child]
    omega

/-- But for subqueries themselves, the subqueries of an expression are those of its operands. -/
theorem subqueries_eq_operands {e : Expr} (he : e.isSubquery = false) :
    e.subqueries = subqueriesOfAll e.operands := by
  cases e with
  | windowed function partition order =>
    rw [subqueries, operands, subqueriesOfAll, subqueriesOfAll_append]
  | aliased definition =>
    cases definition
    exact (List.append_nil _).symm
  | subquery => cases he
  | _ => rfl

/-! ## Changed subqueries -/

section
variable (f : Plan → Plan) (e : Expr)

/-- Other subqueries leave a subquery one. -/
@[simp]
theorem isSubquery_mapSubqueries : (e.mapSubqueries f).isSubquery = e.isSubquery := by
  cases e with
  | aliased definition => cases definition; rfl
  | _ => rfl

/-- An expression that is no subquery itself is put together again around its changed operands. -/
theorem mapSubqueries_eq_withOperands {e : Expr} (he : e.isSubquery = false) :
    e.mapSubqueries f = e.withOperands (e.operands.map (Expr.mapSubqueries f)) := by
  cases e with
  | call | count =>
    simp only [mapSubqueries, withOperands, operands, mapSubqueriesOfAll_eq_map]
  | windowed function partition order =>
    simp [mapSubqueries, withOperands, operands, mapSubqueriesOfAll_eq_map]
  | aliased definition => cases definition; rfl
  | subquery => cases he
  | column | literal => rfl

/-- Other subqueries in an expression are other ones in its operands. -/
theorem operands_mapSubqueries :
    (e.mapSubqueries f).operands = e.operands.map (Expr.mapSubqueries f) := by
  cases he : e.isSubquery with
  | true =>
    cases e with
    | subquery => rfl
    | _ => cases he
  | false =>
    rw [mapSubqueries_eq_withOperands f he, operands_withOperands (List.length_map _)]

/-- As many subqueries are there after they are changed. -/
@[simp]
theorem length_subqueries_mapSubqueries :
    (e.mapSubqueries f).subqueries.length = e.subqueries.length := by
  rw [subqueries_mapSubqueries, List.length_map]

theorem isSubquery_outline : e.outline.isSubquery = e.isSubquery :=
  isSubquery_mapSubqueries _ e

theorem outline_mapSubqueries : (e.mapSubqueries f).outline = e.outline :=
  e.mapSubqueries_mapSubqueries f fun _ => .oneRow

end

/-! ## Outlines -/

/-- Expressions of one outline are told by their operands. -/
theorem eq_of_operands_eq {e e' : Expr} (he : e.isSubquery = false)
    (houtline : e.outline = e'.outline) (h : e.operands = e'.operands) : e = e' := by
  have he' : e'.isSubquery = false := by
    rw [← isSubquery_outline, ← houtline, isSubquery_outline, he]
  have hrebuilt : ∀ d : Expr, d.isSubquery = false → d.outline.withOperands d.operands = d := by
    intro d hd
    rw [outline, mapSubqueries_eq_withOperands _ hd, withOperands_withOperands
      (List.length_map _) rfl, withOperands_operands]
  rw [← hrebuilt e he, ← hrebuilt e' he', houtline, h]

/-- Lists of expressions with the same outlines and the same subqueries are the same, if this holds
of their members. -/
theorem eq_of_map_outline_eq {es : List Expr}
    (hmembers : ∀ e ∈ es, ∀ e' : Expr, e.outline = e'.outline → e.subqueries = e'.subqueries →
      e = e') {es' : List Expr} (houtline : es.map outline = es'.map outline)
    (h : subqueriesOfAll es = subqueriesOfAll es') : es = es' := by
  induction es generalizing es' with
  | nil => exact (List.map_eq_nil_iff.1 houtline.symm).symm
  | cons e rest ih =>
    cases es' with
    | nil => cases houtline
    | cons e' rest' =>
      obtain ⟨hfirst, hrest⟩ := List.cons.inj houtline
      -- the outline tells how many of the subqueries are the first member's
      have hlength : e.subqueries.length = e'.subqueries.length := by
        have houtlines := congrArg (fun d => d.subqueries.length) hfirst
        simpa [outline] using houtlines
      obtain ⟨hsubqueries, hothers⟩ := List.append_inj h hlength
      rw [hmembers e List.mem_cons_self e' hfirst hsubqueries,
        ih (fun d hd => hmembers d (List.mem_cons_of_mem e hd)) hrest hothers]

/-- An expression is told by its outline and its subqueries. -/
theorem eq_of_outline_eq : ∀ e e' : Expr, e.outline = e'.outline → e.subqueries = e'.subqueries →
    e = e' := by
  intro e
  induction hsize : sizeOf e using Nat.strongRecOn generalizing e with
  | _ size ih =>
    intro e' houtline h
    have hkind : e.isSubquery = e'.isSubquery := by
      rw [← isSubquery_outline, houtline, isSubquery_outline]
    cases he : e.isSubquery with
    | true =>
      obtain ⟨plan, rfl⟩ := exists_plan_of_isSubquery he
      obtain ⟨plan', rfl⟩ := exists_plan_of_isSubquery (hkind.symm.trans he)
      exact congrArg subquery (List.singleton_inj.1 h)
    | false =>
      rw [subqueries_eq_operands he, subqueries_eq_operands (hkind.symm.trans he)] at h
      refine eq_of_operands_eq he houtline (eq_of_map_outline_eq (fun operand hoperand =>
        ih _ (hsize ▸ sizeOf_lt_of_mem_operands hoperand) operand rfl) ?_ h)
      have hoperands := congrArg operands houtline
      rwa [outline, outline, operands_mapSubqueries, operands_mapSubqueries] at hoperands

/-- Changing the subqueries of an expression changes them and nothing else. -/
theorem eq_mapSubqueries_iff {f : Plan → Plan} {e e' : Expr} :
    e' = e.mapSubqueries f ↔ e'.outline = e.outline ∧ e'.subqueries = e.subqueries.map f := by
  constructor
  · rintro rfl
    exact ⟨outline_mapSubqueries f e, subqueries_mapSubqueries f e⟩
  · rintro ⟨houtline, hsubqueries⟩
    apply eq_of_outline_eq
    · rw [houtline, outline_mapSubqueries]
    · rw [hsubqueries, subqueries_mapSubqueries]

/-- Changing the subqueries of an expression changes each in its place, and leaves what the
expression refers to, whether it counts rows, and all else that is around the subqueries. No change
leaves the expression, and one change after the other is one change. -/
theorem mapSubqueries_isFunctor (e : Expr) :
    (∀ f : Plan → Plan,
      (e.mapSubqueries f).subqueries = e.subqueries.map f ∧
      (e.mapSubqueries f).references = e.references ∧
      (e.mapSubqueries f).countsRows = e.countsRows) ∧
    e.mapSubqueries id = e ∧
    (∀ f g : Plan → Plan, (e.mapSubqueries f).mapSubqueries g = e.mapSubqueries (g ∘ f)) ∧
    ∀ (f : Plan → Plan) (e' : Expr),
      e' = e.mapSubqueries f ↔ e'.outline = e.outline ∧ e'.subqueries = e.subqueries.map f := by
  refine ⟨fun f => ⟨?_, ?_, ?_⟩, e.mapSubqueries_id, fun f g => ?_, fun f e' => ?_⟩
  · exact e.subqueries_mapSubqueries f
  · exact e.references_mapSubqueries f
  · exact e.countsRows_mapSubqueries f
  · exact e.mapSubqueries_mapSubqueries f g
  · exact eq_mapSubqueries_iff

end Expr

end ColumnTrace
