import ColumnTrace.Proofs.Lineage.QuerySteps
import Mathlib.Logic.Relation

/-!
# The plans that are traced for a plan

Tracing a plan goes on to the plans in `Plan.tracedBelow`: the children that get a request, the
bodies of opened views and stored results, the queries of commands, and the subqueries of the
expressions that refer to no column. A plan fits into so many levels if these fit into one less
(`Plan.fits`), and it reaches whatever is traced on the way down (`Plan.Reaches`). What a query
hands back of a column that it does not know is told by the tables that it reaches
(`Plan.of_handedBack?`).
-/

set_option autoImplicit false

namespace ColumnTrace

namespace Plan

/-- The columns and the qualifier of a plan that is read as a table. -/
def table? (settings : Settings) : Plan → Option (List Attribute × List String)
  | .relation output table => some (output, Lineage.relationQualifier table)
  | .localRelation output _ => some (output, [localQualifier])
  | .view name output _ temporary =>
    if !temporary && settings.skipPersistedViews then some (output, [name.qualifiedName]) else none
  | .cached output physical table =>
    match PhysicalNode.findLink [physical] with
    | some _ => none
    | none => some (output, table.toList.filter (· != ""))
  | _ => none

/-- The select list of an operator that computes one, and its child. -/
def selectList? : Plan → Option (List SelectItem × Plan)
  | .project items child => some (items, child)
  | .aggregate _ items child => some (items, child)
  | _ => none

/-- The columns of a plan that stand for the columns of other plans by position, and these plans:
the branches of a union, the body of an opened view, the plan of a stored result. -/
def branches? (settings : Settings) : Plan → Option (List Attribute × List Plan)
  | .union branches output => some (output, branches)
  | .view _ output body temporary =>
    if !temporary && settings.skipPersistedViews then none else some (output, [body])
  | .cached output physical _ =>
    match PhysicalNode.findLink [physical] with
    | some logical => some (output, [logical])
    | none => none
  | _ => none

end Plan

/-- The subqueries that an entry of a select list takes its sources from: those of an expression
without columns. -/
def SelectItem.tracedSubqueries : SelectItem → List Plan
  | .column _ => []
  | .aliased definition =>
    if definition.child.references.isEmpty then definition.child.subqueries else []

namespace Plan

/-- The plans that are traced for a plan, one level lower. -/
def tracedBelow (settings : Settings) : Plan → List Plan
  | .project items child => child :: items.flatMap SelectItem.tracedSubqueries
  | .aggregate _ items child => child :: items.flatMap SelectItem.tracedSubqueries
  | .window _ child _ _ => [child]
  | .expand _ _ child => [child]
  | .join left right type _ => if type.exposesRight then [left, right] else [left]
  | .union branches _ => branches
  | .relation .. => []
  | .localRelation .. => []
  | .oneRow => []
  | .view _ _ body temporary => if !temporary && settings.skipPersistedViews then [] else [body]
  | .cached _ physical _ => (PhysicalNode.findLink [physical]).toList
  | .operator _ children _ => children
  | .cteDefinition definition => [definition.child]
  | .cteReference .. => []
  | .withCte definitions body =>
    match ((Plan.withCte definitions body).inline []).result with
    | .ok inlined => [inlined]
    | .error _ => []
  | .commandResult _ command => [command]
  | .alterView _ query => [query]
  | .createView _ query type _ => if type = .persisted then [query] else []
  | .createTable _ query _ => [query]
  | .insertTable _ query _ => [query]
  | .insertDirectory _ query _ => [query]
  | .saveSource query _ => [query]
  | .merge target source _ _ => [target, source]

/-- Tracing the plan goes down no more than so many levels. -/
def fits (settings : Settings) : Nat → Plan → Prop
  | 0, _ => False
  | levels + 1, plan => ∀ below ∈ plan.tracedBelow settings, below.fits settings levels

instance decidableFits (settings : Settings) :
    ∀ (levels : Nat) (plan : Plan), Decidable (plan.fits settings levels)
  | 0, _ => instDecidableFalse
  | levels + 1, plan =>
    have := decidableFits settings levels
    inferInstanceAs (Decidable (∀ below ∈ plan.tracedBelow settings, below.fits settings levels))

variable {settings : Settings} {plan : Plan}

/-- The plans that are read as tables, each with its columns and its qualifier: tables, views that
are not opened, and stored results whose plan is not known. -/
inductive IsTable (settings : Settings) : Plan → List Attribute → List String → Prop
  | relation (output : List Attribute) (table : Option TableName) :
      IsTable settings (.relation output table) output (Lineage.relationQualifier table)
  | localRelation (output : List Attribute) (rows : List (List String)) :
      IsTable settings (.localRelation output rows) output [localQualifier]
  | view {name : TableName} {output : List Attribute} {body : Plan} {temporary : Bool}
      (hskip : (!temporary && settings.skipPersistedViews) = true) :
      IsTable settings (.view name output body temporary) output [name.qualifiedName]
  | cached {output : List Attribute} {physical : PhysicalNode} {table : Option String}
      (hlink : PhysicalNode.findLink [physical] = none) :
      IsTable settings (.cached output physical table) output (table.toList.filter (· != ""))

/-- A plan is read as a table if it is one, or a view or result that is not opened. -/
theorem table?_eq_some_iff {output : List Attribute} {qualifier : List String} :
    plan.table? settings = some (output, qualifier) ↔ plan.IsTable settings output qualifier := by
  constructor
  · intro h
    cases plan with
    | relation columns table =>
      cases h
      exact .relation output table
    | localRelation columns rows =>
      cases h
      exact .localRelation output rows
    | view name columns body temporary =>
      simp only [table?] at h
      split at h <;> cases h
      next hskip => exact .view hskip
    | cached columns physical table =>
      simp only [table?] at h
      split at h <;> cases h
      next hlink => exact .cached hlink
    | _ => cases h
  · intro h
    cases h with
    | relation | localRelation => rfl
    | view hskip => rw [table?, if_pos hskip]
    | cached hlink => simp only [table?, hlink]

/-- A plan that is read as a table has its columns. -/
theorem output_of_table {output : List Attribute} {qualifier : List String}
    (h : plan.table? settings = some (output, qualifier)) :
    plan.output = output := by
  cases table?_eq_some_iff.1 h <;> rfl

/-- An operator with a select list has its columns. -/
theorem output_of_selectList {items : List SelectItem} {child : Plan}
    (h : plan.selectList? = some (items, child)) :
    plan.output = items.map SelectItem.toAttribute := by
  cases plan <;> cases h <;> rfl

/-- The plans whose columns stand for those of others by position: unions, and views and stored
results that are opened. -/
inductive HasBranches (settings : Settings) : Plan → List Attribute → List Plan → Prop
  | union (branches : List Plan) (output : List Attribute) :
      HasBranches settings (.union branches output) output branches
  | view {name : TableName} {output : List Attribute} {body : Plan} {temporary : Bool}
      (hopened : (!temporary && settings.skipPersistedViews) = false) :
      HasBranches settings (.view name output body temporary) output [body]
  | cached {output : List Attribute} {physical : PhysicalNode} {table : Option String}
      {logical : Plan} (hlink : PhysicalNode.findLink [physical] = some logical) :
      HasBranches settings (.cached output physical table) output [logical]

/-- A plan has branches if it is a union, or a view or result that is opened. -/
theorem branches?_eq_some_iff {output : List Attribute} {branches : List Plan} :
    plan.branches? settings = some (output, branches) ↔
      plan.HasBranches settings output branches := by
  constructor
  · intro h
    cases plan with
    | union inner columns =>
      cases h
      exact .union branches output
    | view name columns body temporary =>
      simp only [branches?] at h
      split at h <;> cases h
      next hopened => exact .view (Bool.not_eq_true _ ▸ hopened)
    | cached columns physical table =>
      simp only [branches?] at h
      split at h <;> cases h
      next hlink => exact .cached hlink
    | _ => cases h
  · intro h
    cases h with
    | union => rfl
    | view hopened => rw [branches?, hopened, if_neg Bool.false_ne_true]
    | cached hlink => simp only [branches?, hlink]

/-- A plan with branches has the columns that stand for theirs. -/
theorem output_of_branches {output : List Attribute} {branches : List Plan}
    (h : plan.branches? settings = some (output, branches)) :
    plan.output = output := by
  cases branches?_eq_some_iff.1 h <;> rfl

/-- No plan is read as a table and opened at once. -/
theorem table?_of_branches {output : List Attribute} {branches : List Plan}
    (h : plan.branches? settings = some (output, branches)) : plan.table? settings = none := by
  cases branches?_eq_some_iff.1 h with
  | union => rfl
  | view hopened => rw [table?, hopened, if_neg Bool.false_ne_true]
  | cached hlink => simp only [table?, hlink]

/-- A select list is traced as a projection, whether its rows are grouped or not. -/
theorem step_of_selectList {items : List SelectItem} {child : Plan}
    (h : plan.selectList? = some (items, child)) (below : Lineage.Below) (parent : LineageMap) :
    Lineage.step settings below plan parent =
      Lineage.step settings below (.project items child) parent := by
  cases plan with
  | project _ _ =>
    cases h
    rfl
  | aggregate grouping _ _ =>
    cases h
    exact Lineage.step_aggregate grouping items child
  | _ => cases h

/-- The child of a select list is traced. -/
theorem child_mem_tracedBelow {items : List SelectItem} {child : Plan}
    (h : plan.selectList? = some (items, child)) : child ∈ plan.tracedBelow settings := by
  cases plan with
  | project items child =>
    cases h
    exact List.mem_cons_self
  | aggregate grouping items child =>
    cases h
    exact List.mem_cons_self
  | _ => cases h

/-- The branches of a plan are traced, and nothing else. -/
theorem tracedBelow_of_branches {output : List Attribute} {branches : List Plan}
    (h : plan.branches? settings = some (output, branches)) :
    plan.tracedBelow settings = branches := by
  cases branches?_eq_some_iff.1 h with
  | union => rfl
  | view hopened => rw [tracedBelow, hopened, if_neg Bool.false_ne_true]
  | cached hlink =>
    rw [tracedBelow, hlink]
    rfl

section
variable {left right : Plan} {type : JoinType} {condition : Option Expr}

/-- Both sides of a join that shows them are traced. -/
theorem tracedBelow_of_exposing (hexposes : type.exposesRight = true) :
    (Plan.join left right type condition).tracedBelow settings = [left, right] := by
  rw [tracedBelow, if_pos hexposes]

/-- Of a join that hides its right side the left one is traced. -/
theorem tracedBelow_of_hiding (hhides : type.exposesRight = false) :
    (Plan.join left right type condition).tracedBelow settings = [left] := by
  rw [tracedBelow, hhides, if_neg Bool.false_ne_true]

theorem left_mem_tracedBelow :
    left ∈ (Plan.join left right type condition).tracedBelow settings := by
  rw [tracedBelow]
  split <;> exact List.mem_cons_self

theorem right_mem_tracedBelow (hexposes : type.exposesRight = true) :
    right ∈ (Plan.join left right type condition).tracedBelow settings := by
  rw [tracedBelow_of_exposing hexposes]
  exact List.mem_cons_of_mem left List.mem_cons_self

end

/-! ## Plans on the way down -/

/-- The other plan is traced on the way down from the plan, which counts itself. -/
def Reaches (settings : Settings) : Plan → Plan → Prop :=
  Relation.ReflTransGen fun above below => below ∈ above.tracedBelow settings

theorem Reaches.refl (plan : Plan) : plan.Reaches settings plan := Relation.ReflTransGen.refl

theorem Reaches.of_mem {child below : Plan} (hchild : child ∈ plan.tracedBelow settings)
    (h : child.Reaches settings below) : plan.Reaches settings below :=
  Relation.ReflTransGen.head hchild h

/-- What is traced on the way down is the plan itself, or traced on the way down from a plan below.
-/
theorem reaches_iff {below : Plan} : plan.Reaches settings below ↔
    below = plan ∨ ∃ child ∈ plan.tracedBelow settings, child.Reaches settings below := by
  rw [Reaches, Relation.ReflTransGen.cases_head_iff, eq_comm]

/-- The plans that are traced for a plan within so many levels, the plan itself first. -/
def reachedWithin (settings : Settings) : Nat → Plan → List Plan
  | 0, _ => []
  | levels + 1, plan => plan :: (plan.tracedBelow settings).flatMap (reachedWithin settings levels)

/-- A plan that fits into so many levels reaches nothing beyond them. -/
theorem mem_reachedWithin_of_fits {levels : Nat} : ∀ {plan below : Plan},
    plan.fits settings levels → plan.Reaches settings below →
    below ∈ plan.reachedWithin settings levels := by
  induction levels with
  | zero => exact fun hfits _ => hfits.elim
  | succ levels ih =>
    intro plan below hfits hreaches
    rcases reaches_iff.1 hreaches with rfl | ⟨child, hchild, hreaches⟩
    · exact List.mem_cons_self
    · refine List.mem_cons_of_mem plan (List.mem_flatMap.2 ⟨child, hchild, ?_⟩)
      exact ih (hfits child hchild) hreaches

/-- What holds all the way down holds all the way down from a plan below. -/
theorem Reaches.forall_of_mem {P : Plan → Prop} {child : Plan}
    (hchild : child ∈ plan.tracedBelow settings)
    (h : ∀ below, plan.Reaches settings below → P below) :
    ∀ below, child.Reaches settings below → P below :=
  fun below hbelow => h below (hbelow.of_mem hchild)

section
variable {P : Attribute → Prop} {a e : Attribute}

/-- Whatever holds of the answers of the tables that are reached, of what a row hands back, and of
the column itself unless it counts rows, holds of what a query hands back. -/
theorem of_handedBack? (hrow : P (if a.isSubqueryMarked then a.dropLastSegment else a))
    (hself : a.isCountMarker = false → P a) : ∀ {plan : Plan},
    (∀ below, plan.Reaches settings below → ∀ output qualifier,
      below.table? settings = some (output, qualifier) →
      ∀ b, LineageMap.answer? [] qualifier a = some b → P b) →
    plan.handedBack? settings a = some e → P e
  | .project items child, htable, h => by
    obtain ⟨b, hb, hback⟩ := Option.bind_eq_some_iff.1 h
    obtain ⟨-, rfl⟩ := Attribute.uncounted?_eq_some_iff.1 hb
    exact of_handedBack? hrow hself (Reaches.forall_of_mem List.mem_cons_self htable) hback
  | .aggregate grouping items child, htable, h => by
    obtain ⟨b, hb, hback⟩ := Option.bind_eq_some_iff.1 h
    obtain ⟨-, rfl⟩ := Attribute.uncounted?_eq_some_iff.1 hb
    exact of_handedBack? hrow hself (Reaches.forall_of_mem List.mem_cons_self htable) hback
  | .expand projections output child, htable, h => by
    obtain ⟨b, hb, hback⟩ := Option.bind_eq_some_iff.1 h
    obtain ⟨-, rfl⟩ := Attribute.uncounted?_eq_some_iff.1 hb
    exact of_handedBack? hrow hself (Reaches.forall_of_mem List.mem_cons_self htable) hback
  | .window functions child partition order, htable, h => by
    rw [handedBack?] at h
    exact of_handedBack? hrow hself (Reaches.forall_of_mem List.mem_cons_self htable) h
  | .operator name [child] output, htable, h => by
    rw [handedBack?] at h
    exact of_handedBack? hrow hself (Reaches.forall_of_mem List.mem_cons_self htable) h
  | .join left right type condition, htable, h => by
    have hleft := Reaches.forall_of_mem left_mem_tracedBelow htable
    rw [handedBack?] at h
    split at h
    · next hexposes =>
      have hright := Reaches.forall_of_mem (right_mem_tracedBelow hexposes) htable
      -- the right side has the first say
      rcases prefer_eq_or (right.handedBack? settings a) (left.handedBack? settings a) with hp | hp
      · exact of_handedBack? hrow hself hright (hp ▸ h)
      · exact of_handedBack? hrow hself hleft (hp ▸ h)
    · exact of_handedBack? hrow hself hleft h
  | .union branches output, _, h => by
    obtain ⟨hcount, rfl⟩ := Attribute.uncounted?_eq_some_iff.1 h
    exact hself hcount
  | .relation output table, htable, h => htable _ (Reaches.refl _) _ _ rfl e h
  | .localRelation output rows, htable, h => htable _ (Reaches.refl _) _ _ rfl e h
  | .oneRow, _, h => Option.some.inj h ▸ hrow
  | .view name output body temporary, htable, h => by
    rw [handedBack?] at h
    split at h
    · next hskip => exact htable _ (Reaches.refl _) _ _ (table?_eq_some_iff.2 (.view hskip)) e h
    · obtain ⟨hcount, rfl⟩ := Attribute.uncounted?_eq_some_iff.1 h
      exact hself hcount
  | .cached output physical table, htable, h => by
    rw [handedBack?] at h
    split at h
    · obtain ⟨hcount, rfl⟩ := Attribute.uncounted?_eq_some_iff.1 h
      exact hself hcount
    · next hlink => exact htable _ (Reaches.refl _) _ _ (table?_eq_some_iff.2 (.cached hlink)) e h
  | .cteReference .., _, h | .cteDefinition .., _, h | .withCte .., _, h
  | .commandResult .., _, h | .alterView .., _, h | .createView .., _, h | .createTable .., _, h
  | .insertTable .., _, h | .insertDirectory .., _, h | .saveSource .., _, h | .merge .., _, h
  | .operator _ [] _, _, h | .operator _ (_ :: _ :: _) _, _, h => by cases h

end

end Plan

end ColumnTrace
