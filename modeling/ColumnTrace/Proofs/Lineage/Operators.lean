import ColumnTrace.Proofs.Lineage.Levels
import ColumnTrace.Proofs.Lineage.MapSources
import ColumnTrace.Proofs.Outcomes

/-!
# One level of a plan, operator by operator

For each operator of a query: what it takes to answer a request. The plans below are traced by a
parameter, so that the statements serve every depth. Later proofs read an answer off these
statements and do not open `step`.
-/

set_option autoImplicit false

namespace ColumnTrace

namespace Lineage

open Traced

variable {settings : Settings} {below : Below} {parent m : LineageMap}

/-- A single child gives its answer. -/
theorem result_ofChildren_singleton (child : Plan) (request : LineageMap) :
    (ofChildren below [child] request).result = (below child request).result := by
  simp only [ofChildren, List.mapM_cons, List.mapM_nil, bind_assoc, pure_bind, result_bind]
  cases (below child request).result with
  | ok answer => simp [Except.bind]
  | error e => rfl

/-- A request that is handed to two children is answered by both, the second first. -/
theorem result_ofChildren_pair {left right : Plan} {request : LineageMap} :
    (ofChildren below [left, right] request).result = .ok m ↔
      ∃ l r, (below left request).result = .ok l ∧ (below right request).result = .ok r ∧
        m = l.merge r := by
  simp only [ofChildren, List.mapM_cons, List.mapM_nil, bind_assoc, pure_bind,
    result_bind_eq_ok, result_pure, LineageMap.mergeAll_pair, Except.ok.injEq]
  constructor
  · rintro ⟨l, hl, r, hr, rfl⟩
    exact ⟨l, r, hl, hr, rfl⟩
  · rintro ⟨l, r, hl, hr, rfl⟩
    exact ⟨l, hl, r, hr, rfl⟩

/-! ## Operators with one child -/

/-- A select list joins the request to what it computes and hands it on. -/
theorem step_project {items : List SelectItem} {child : Plan} :
    (step settings below (.project items child) parent).result = .ok m ↔
      ∃ selected request, (ofSelectList below items).result = .ok selected ∧
        (parent.join selected).result = .ok request ∧ (below child request).result = .ok m := by
  simp only [step, stepAt, result_bind_eq_ok, result_ofChildren_singleton]
  constructor
  · rintro ⟨selected, hselected, request, hrequest, hm⟩
    exact ⟨selected, request, hselected, hrequest, hm⟩
  · rintro ⟨selected, request, hselected, hrequest, hm⟩
    exact ⟨selected, hselected, request, hrequest, hm⟩

/-- Grouping does not matter to the lineage of a select list. -/
theorem step_aggregate (grouping : List Expr) (items : List SelectItem) (child : Plan) :
    step settings below (.aggregate grouping items child) parent =
      step settings below (.project items child) parent := rfl

/-- An expansion joins the request to what it computes and hands it on. -/
theorem step_expand {projections : List (List Expr)} {output : List Attribute} {child : Plan} :
    (step settings below (.expand projections output child) parent).result = .ok m ↔
      ∃ request, (parent.join (ofProjections projections output)).result = .ok request ∧
        (below child request).result = .ok m := by
  simp only [step, stepAt, result_bind_eq_ok, result_ofChildren_singleton]

/-- A window puts its functions into the request and hands it on. -/
theorem step_window {functions : List Alias} {child : Plan} {partition order : List Expr} :
    (step settings below (.window functions child partition order) parent).result =
      (below child (windowRequest functions child.output parent)).result :=
  result_ofChildren_singleton child _

/-- An operator without a rule of its own hands the request on to its only child. -/
theorem step_operator {name : String} {child : Plan} {output : List Attribute} :
    (step settings below (.operator name [child] output) parent).result =
      (below child parent).result := by
  rw [step, stepAt, List.isEmpty_cons, if_neg Bool.false_ne_true, result_note_bind,
    result_ofChildren_singleton]

/-! ## Joins and unions -/

/-- A join merges what both sides answer. -/
theorem step_join {left right : Plan} {type : JoinType} {condition : Option Expr}
    (hexposes : type.exposesRight = true) :
    (step settings below (.join left right type condition) parent).result = .ok m ↔
      ∃ l r, (below left parent).result = .ok l ∧ (below right parent).result = .ok r ∧
        m = l.merge r := by
  rw [step, stepAt, if_pos hexposes, result_ofChildren_pair]

/-- A join that hides its right side hands the request on to the left one. -/
theorem step_semijoin {left right : Plan} {type : JoinType} {condition : Option Expr}
    (hhides : type.exposesRight = false) :
    step settings below (.join left right type condition) parent = below left parent := by
  rw [step, stepAt, hhides, if_neg Bool.false_ne_true]

/-- A union joins the request to what its branches answer to an empty one. -/
theorem step_union {branches : List Plan} {output : List Attribute} :
    (step settings below (.union branches output) parent).result = .ok m ↔
      ∃ answers, List.Forall₂ (fun branch answer => (below branch ∅).result = .ok answer)
          branches answers ∧
        (parent.join (ofBranches output answers)).result = .ok m := by
  simp only [step, stepAt, result_bind_eq_ok, result_mapM_eq_ok]

/-! ## Relations -/

/-- The qualifier that a base table gives to its columns. -/
def relationQualifier (table : Option TableName) : List String :=
  match table with
  | none => [localQualifier]
  | some table => [table.qualifiedName]

/-- A table answers a request under its qualifier. -/
theorem step_relation (output : List Attribute) (table : Option TableName) :
    step settings below (.relation output table) parent =
      parent.ofRelation output (relationQualifier table) := by
  cases table <;> rfl

/-- A view that is skipped answers as a table of its name. -/
theorem step_view_skipped {name : TableName} {output : List Attribute} {body : Plan}
    {temporary : Bool} (hskip : (!temporary && settings.skipPersistedViews) = true) :
    step settings below (.view name output body temporary) parent =
      parent.ofRelation output [name.qualifiedName] := by
  rw [step, stepAt, if_pos hskip]

/-- A view that is opened joins the request to the lineage of its body. -/
theorem step_view_opened {name : TableName} {output : List Attribute} {body : Plan}
    {temporary : Bool} (hskip : (!temporary && settings.skipPersistedViews) = false) :
    (step settings below (.view name output body temporary) parent).result = .ok m ↔
      ∃ lineage, (below body ∅).result = .ok lineage ∧
        (parent.ofRelationPlan output lineage).result = .ok m := by
  rw [step, stepAt, hskip, if_neg Bool.false_ne_true, result_bind_eq_ok]

/-- A linked result joins the request to the lineage of the plan that it is linked to. -/
theorem step_cached_linked {output : List Attribute} {physical : PhysicalNode}
    {table : Option String} {logical : Plan}
    (hlink : PhysicalNode.findLink [physical] = some logical) :
    (step settings below (.cached output physical table) parent).result = .ok m ↔
      ∃ lineage, (below logical ∅).result = .ok lineage ∧
        (parent.ofRelationPlan output lineage).result = .ok m := by
  simp only [step, stepAt, hlink, result_bind_eq_ok]

/-- A result without a link answers as a table of its name. -/
theorem step_cached_unlinked {output : List Attribute} {physical : PhysicalNode}
    {table : Option String} (hlink : PhysicalNode.findLink [physical] = none) :
    step settings below (.cached output physical table) parent =
      parent.ofRelation output (table.toList.filter (· != "")) := by
  simp only [step, stepAt, hlink]

/-- A view that answers does so as a table, or as a relation with its body behind it. -/
theorem step_view_cases {name : TableName} {output : List Attribute} {body : Plan}
    {temporary : Bool}
    (hm : (step settings below (.view name output body temporary) parent).result = .ok m) :
    (parent.ofRelation output [name.qualifiedName]).result = .ok m ∨
      ∃ lineage, (below body ∅).result = .ok lineage ∧
        (parent.ofRelationPlan output lineage).result = .ok m := by
  cases hskip : (!temporary && settings.skipPersistedViews) with
  | true => exact Or.inl (step_view_skipped hskip ▸ hm)
  | false => exact Or.inr ((step_view_opened hskip).1 hm)

/-- A stored result that answers does so as a table, or as a relation with its plan behind it. -/
theorem step_cached_cases {output : List Attribute} {physical : PhysicalNode}
    {table : Option String}
    (hm : (step settings below (.cached output physical table) parent).result = .ok m) :
    (parent.ofRelation output (table.toList.filter (· != ""))).result = .ok m ∨
      ∃ logical lineage, (below logical ∅).result = .ok lineage ∧
        (parent.ofRelationPlan output lineage).result = .ok m := by
  cases hlink : PhysicalNode.findLink [physical] with
  | none => exact Or.inl (step_cached_unlinked hlink ▸ hm)
  | some logical => exact Or.inr ⟨logical, (step_cached_linked hlink).1 hm⟩

/-- What a relation with a plan behind it answers, where it answers. -/
theorem result_ofRelationPlan {output : List Attribute} {lineage : LineageMap} :
    (parent.ofRelationPlan output lineage).result = .ok m ↔
      output.length ≤ lineage.size ∧
        (parent.join (.ofList (output.zip lineage.values))).result = .ok m := by
  rw [LineageMap.ofRelationPlan]
  split
  · next h => simp; omega
  · next h => simp; omega

/-- What a relation answers, where it answers. -/
theorem eq_answerOf_of_ofRelation {output : List Attribute} {qualifier : List String}
    (h : (parent.ofRelation output qualifier).result = .ok m) :
    m = parent.answerOf output qualifier := by
  rw [LineageMap.ofRelation] at h
  split at h
  · cases h
  · exact (Except.ok.inj h).symm

/-- A relation answers where every dependency has a name. -/
theorem result_ofRelation_of_named {output : List Attribute} {qualifier : List String}
    (h : ∀ entry ∈ parent.entries, ∀ a ∈ entry.2.attrs, a.isNamed = true) :
    (parent.ofRelation output qualifier).result = .ok (parent.answerOf output qualifier) := by
  have hnone : (parent.dependencies.any fun pair =>
      LineageMap.comparesName output pair.2 && !pair.2.isNamed) = false := by
    rw [List.any_eq_false]
    intro pair hpair
    obtain ⟨sources, hentry, ha⟩ := LineageMap.mem_dependencies.1 hpair
    simp [h _ hentry pair.2 ha]
  rw [LineageMap.ofRelation, hnone, if_neg Bool.false_ne_true, result_pure]

end Lineage

end ColumnTrace
