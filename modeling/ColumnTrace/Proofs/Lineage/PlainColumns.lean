import ColumnTrace.Proofs.Lineage.TracedPlans

/-!
# Columns with plain names

A plain column has a name that is neither qualified nor dotted nor reserved. A query that does not
know it either drops it or hands it back as it is (`Plan.eq_of_handedBack?_of_isPlain`).
-/

set_option autoImplicit false

namespace ColumnTrace

/-- The column has a name that is neither qualified nor dotted nor reserved. -/
def Attribute.isPlain (a : Attribute) : Bool :=
  a.qualifier.isEmpty &&
    a.name.any fun name => !name.toList.contains '.' && Text.lower name != countName

namespace Attribute

variable {a : Attribute}

/-- A plain column has no qualifier, and a name that is neither dotted nor reserved. -/
theorem isPlain_iff : a.isPlain = true ↔
    a.qualifier = [] ∧ ∃ name, a.name = some name ∧ '.' ∉ name.toList ∧
      Text.lower name ≠ countName := by
  rw [isPlain, Bool.and_eq_true, List.isEmpty_iff]
  refine and_congr_right' ?_
  cases a.name <;> simp

theorem qualifier_of_isPlain (h : a.isPlain = true) : a.qualifier = [] := (isPlain_iff.1 h).1

/-- A plain column has a name. -/
theorem isNamed_of_isPlain (h : a.isPlain = true) : a.isNamed = true := by
  obtain ⟨-, name, hname, -⟩ := isPlain_iff.1 h
  rw [isNamed, hname]
  rfl

/-- A plain column is not the marker of rows. -/
theorem isCountMarker_of_isPlain (h : a.isPlain = true) : a.isCountMarker = false := by
  obtain ⟨-, name, hname, -, hcount⟩ := isPlain_iff.1 h
  simp [isCountMarker, hname, hcount]

/-- A plain column is not marked for a subquery. -/
theorem isSubqueryMarked_of_isPlain (h : a.isPlain = true) : a.isSubqueryMarked = false := by
  rw [isSubqueryMarked, qualifier_of_isPlain h]
  rfl

/-- A plain column is kept where the marker of rows is dropped. -/
theorem uncounted?_of_isPlain (h : a.isPlain = true) : a.uncounted? = some a := by
  rw [uncounted?, isCountMarker_of_isPlain h, if_neg Bool.false_ne_true]

end Attribute

namespace LineageMap

/-- A plain column is named under no table. -/
theorem isNamedUnder_of_isPlain {a : Attribute} (h : a.isPlain = true)
    (qualifier : List String) : isNamedUnder qualifier a = false := by
  obtain ⟨-, name, hname, hdots, -⟩ := Attribute.isPlain_iff.1 h
  have hsegments : (Text.segments name).length = 1 := by
    rw [Text.segments_of_not_mem hdots]
    rfl
  simp [isNamedUnder, hname, hsegments]

/-- A table drops a plain column that is none of its own. -/
theorem answer?_of_isPlain {a : Attribute} (h : a.isPlain = true)
    (qualifier : List String) : answer? [] qualifier a = none := by
  simp [answer?, Attribute.isSubqueryMarked_of_isPlain h, Attribute.isCountMarker_of_isPlain h,
    isNamedUnder_of_isPlain h]

end LineageMap

namespace Plan

/-- A query hands a plain column back as it is, if at all. -/
theorem eq_of_handedBack?_of_isPlain {settings : Settings} {a e : Attribute}
    (h : a.isPlain = true) (plan : Plan) (hback : plan.handedBack? settings a = some e) :
    e = a := by
  refine of_handedBack? (P := fun b => b = a) ?_ (fun _ => rfl) ?_ hback
  · rw [Attribute.isSubqueryMarked_of_isPlain h, if_neg Bool.false_ne_true]
  · intro _ _ _ qualifier _ b hb
    rw [LineageMap.answer?_of_isPlain h] at hb
    cases hb

end Plan

end ColumnTrace
