import ColumnTrace.Proofs.Lineage.TracedPlans
import ColumnTrace.Proofs.Marks

/-!
# Who takes a subquery's mark off

A column asked of a subquery is asked under its mark. Tables and one-row relations take the mark
off; unions, opened views and stored results hand the column back under its mark, and any other
operator does as its child does (`Plan.takesMarksOff`, `Plan.handedBack?_markSubquery`). Of the two
sides of a join the right one is heard first. A column that was bare before it was marked is bare
again without the mark, and then the left side is heard too.
-/

set_option autoImplicit false

namespace ColumnTrace

namespace Plan

variable {settings : Settings} {plan below : Plan} {a b e : Attribute}

/-- The plan takes the mark off a column that it does not know. The flag says whether the column is
bare under its mark. -/
def takesMarksOff (settings : Settings) (bare : Bool) : Plan → Bool
  | .project _ child => child.takesMarksOff settings bare
  | .aggregate _ _ child => child.takesMarksOff settings bare
  | .expand _ _ child => child.takesMarksOff settings bare
  | .window _ child _ _ => child.takesMarksOff settings bare
  | .operator _ [child] _ => child.takesMarksOff settings bare
  | .join left right type _ =>
    if type.exposesRight then
      right.takesMarksOff settings bare && (!bare || left.takesMarksOff settings bare)
    else left.takesMarksOff settings bare
  | .relation .. => true
  | .localRelation .. => true
  | .oneRow => true
  | .view _ _ _ temporary => !temporary && settings.skipPersistedViews
  | .cached _ physical _ => (PhysicalNode.findLink [physical]).isNone
  | _ => false

/-! ## What becomes of a marked column -/

/-- A table without columns takes a mark off. -/
theorem answer?_markSubquery (qualifier : List String) (a : Attribute) :
    LineageMap.answer? [] qualifier a.markSubquery = some a := by
  simp [LineageMap.answer?, Attribute.dropLastSegment_markSubquery]

/-- A column that is handed back under its mark keeps it. -/
theorem uncounted?_markSubquery (h : a.isCountMarker = false) :
    a.markSubquery.uncounted? = some a.markSubquery := by
  rw [Attribute.uncounted?, Attribute.isCountMarker_markSubquery, h, if_neg Bool.false_ne_true]

/-- Of a column and itself under the mark the first is heard, unless it is bare. -/
theorem prefer_markSubquery (a : Attribute) (offRight offLeft : Bool) :
    prefer (some (if offRight then a else a.markSubquery))
        (some (if offLeft then a else a.markSubquery)) =
      some (if offRight && (!a.qualifier.isEmpty || offLeft) then a else a.markSubquery) := by
  have hmarked : a.markSubquery.qualifier.isEmpty = false := by
    simp [Attribute.markSubquery, Attribute.withQualifier]
  cases offRight <;> cases offLeft <;> cases hbare : a.qualifier.isEmpty <;>
    simp [prefer, hmarked, hbare]

/-- A query hands a marked column back without its mark or as it is. -/
theorem handedBack?_markSubquery (hcount : a.isCountMarker = false) : ∀ {plan : Plan},
    plan.isQuery = true → plan.handedBack? settings a.markSubquery =
      some (if plan.takesMarksOff settings a.qualifier.isEmpty then a else a.markSubquery)
  | .project items child, hquery => by
    rw [isQuery] at hquery
    rw [handedBack?, uncounted?_markSubquery hcount, Option.bind_some,
      handedBack?_markSubquery hcount hquery, takesMarksOff]
  | .aggregate grouping items child, hquery => by
    rw [isQuery] at hquery
    rw [handedBack?, uncounted?_markSubquery hcount, Option.bind_some,
      handedBack?_markSubquery hcount hquery, takesMarksOff]
  | .expand projections output child, hquery => by
    rw [isQuery] at hquery
    rw [handedBack?, uncounted?_markSubquery hcount, Option.bind_some,
      handedBack?_markSubquery hcount hquery, takesMarksOff]
  | .window functions child partition order, hquery => by
    rw [isQuery] at hquery
    rw [handedBack?, handedBack?_markSubquery hcount hquery, takesMarksOff]
  | .operator name [child] output, hquery => by
    rw [isQuery] at hquery
    rw [handedBack?, handedBack?_markSubquery hcount hquery, takesMarksOff]
  | .join left right type condition, hquery => by
    rw [isQuery, Bool.and_eq_true] at hquery
    rw [handedBack?, takesMarksOff]
    split
    · rw [handedBack?_markSubquery hcount hquery.1, handedBack?_markSubquery hcount hquery.2,
        prefer_markSubquery]
    · exact handedBack?_markSubquery hcount hquery.1
  | .union branches output, _ => by
    rw [handedBack?, uncounted?_markSubquery hcount]
    rfl
  | .relation output table, _ => by rw [handedBack?, answer?_markSubquery]; rfl
  | .localRelation output rows, _ => by rw [handedBack?, answer?_markSubquery]; rfl
  -- only here a mark comes off
  | .oneRow, _ => by
    simp [handedBack?, takesMarksOff, Attribute.dropLastSegment_markSubquery]
  | .view name output body temporary, _ => by
    rw [handedBack?, takesMarksOff]
    split
    · exact answer?_markSubquery _ a
    · exact uncounted?_markSubquery hcount
  | .cached output physical table, _ => by
    rw [handedBack?, takesMarksOff]
    cases PhysicalNode.findLink [physical] with
    | some logical => exact uncounted?_markSubquery hcount
    | none => exact answer?_markSubquery _ a

/-- A marked marker of rows comes back without its mark, if at all. -/
theorem eq_of_handedBack?_markSubquery (hcount : a.isCountMarker = true)
    (h : plan.handedBack? settings a.markSubquery = some e) : e = a := by
  refine of_handedBack? (P := fun b => b = a) ?_ ?_ ?_ h
  · rw [if_pos (Attribute.isSubqueryMarked_markSubquery a),
      Attribute.dropLastSegment_markSubquery]
  · intro hnone
    rw [Attribute.isCountMarker_markSubquery, hcount] at hnone
    cases hnone
  · intro _ _ _ qualifier _ b hb
    rw [answer?_markSubquery] at hb
    exact (Option.some.inj hb).symm

/-- A query hands an unmarked column back without a mark if and only if it takes marks off, the
markers of rows apart. -/
theorem unmarked_of_handedBack?_iff (ha : a.Unmarked) (hquery : plan.isQuery = true) :
    (∀ e, plan.handedBack? settings a.markSubquery = some e → e.Unmarked) ↔
      a.isCountMarker = true ∨ plan.takesMarksOff settings a.qualifier.isEmpty = true := by
  cases hcount : a.isCountMarker with
  | true =>
    refine iff_of_true (fun e he => ?_) (Or.inl rfl)
    exact eq_of_handedBack?_markSubquery hcount he ▸ ha
  | false =>
    rw [handedBack?_markSubquery hcount hquery]
    cases plan.takesMarksOff settings a.qualifier.isEmpty with
    | true =>
      refine iff_of_true (fun e he => ?_) (Or.inr rfl)
      exact Option.some.inj he ▸ ha
    | false =>
      refine iff_of_false (fun h => ?_) (by simp)
      exact Attribute.not_unmarked_markSubquery a (h _ rfl)

end Plan

end ColumnTrace
