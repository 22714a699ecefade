import ColumnTrace.Proofs.Lineage.Replacements

/-!
# The hidden side of a join

A semi or anti join shows the columns of its left side only, and hands requests to that side only.
What stands on the right is not seen, however deep in a plan the join stands
(`extract_eq_of_hiddenSides`): neither by the join itself nor by an operator that asks for the
columns of its children, and not while named queries are written in place.
-/

set_option autoImplicit false

namespace ColumnTrace

namespace Lineage

open Plan

/-- The second plan is the first, a semi or anti join, with another right side. Neither of the right
sides has to do with named queries. -/
inductive HiddenSide : Plan → Plan → Prop
  | mk {left right other : Plan} {type : JoinType} {condition : Option Expr}
    (hhides : type.exposesRight = false) (hright : right.CteFree) (hother : other.CteFree) :
    HiddenSide (.join left right type condition) (.join left other type condition)

/-- Another hidden side is not seen by a trace. -/
theorem unseen_hiddenSide (settings : Settings) : Unseen settings HiddenSide where
  output := by
    rintro _ _ ⟨hhides, -, -⟩
    simp only [Plan.output, hhides, Bool.false_eq_true, if_false]
  inline := by
    rintro _ _ ⟨hhides, hright, hother⟩ scope
    simp only [Plan.inline, hright.inline_eq, hother.inline_eq, pure_bind]
    refine (Traced.matches_of_eq (R := Eq) rfl fun _ _ => rfl).bind fun left _ _ _ hleft => ?_
    rw [hleft]
    exact Traced.matches_pure (.here ⟨hhides, hright, hother⟩)
  step := by
    rintro _ _ ⟨hhides, -, -⟩ below parent
    rw [step_semijoin hhides, step_semijoin hhides]

/-- Plans that differ only on the right of semi and anti joins have one lineage, or fail alike. -/
theorem extract_eq_of_hiddenSides {p q : Plan} (h : Replaced HiddenSide p q) (settings : Settings)
    (request : LineageMap) : p.extract settings request = q.extract settings request := by
  rw [extract_eq, extract_eq]
  exact extractWithin_eq_of_replaced (unseen_hiddenSide settings) _ p q h request

/-- `WITH c AS (SELECT a FROM t LEFT SEMI JOIN ...) TABLE c` -/
def semijoinUnderClause (right : Plan) : Plan :=
  .withCte [.mk 1 (.join (.relation [⟨1, some "a", []⟩] (some ⟨"t", none, none⟩)) right
    .leftSemi none)] (.cteReference 1 [⟨2, some "b", []⟩])

/-- Another hidden side below a clause leaves the lineage as it is. -/
theorem extract_semijoinUnderClause :
    (semijoinUnderClause .oneRow).extract .standard ∅ =
        (semijoinUnderClause (.relation [⟨2, some "b", []⟩] (some ⟨"u", none, none⟩))).extract
          .standard ∅ ∧
      ((semijoinUnderClause .oneRow).extract .standard ∅).result =
        .ok (.ofList [(⟨2, some "b", []⟩, .ofList [⟨1, some "a", ["t"]⟩])]) := by
  have hleaf : ∀ plan : Plan, plan.parts = [] → plan.isScoping = false → plan.CteFree :=
    fun plan hparts hscoping => .mk hscoping fun part hpart =>
      absurd (hparts ▸ hpart) List.not_mem_nil
  refine ⟨extract_eq_of_hiddenSides (.of_corresponds ⟨rfl, .nil, .nil, .nil, .nil,
    .cons (.here ⟨rfl, hleaf _ rfl rfl, hleaf _ rfl rfl⟩) (.cons (.refl _) .nil)⟩) _ _, ?_⟩
  decide +kernel

end Lineage

end ColumnTrace
