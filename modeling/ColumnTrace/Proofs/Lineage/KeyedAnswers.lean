import ColumnTrace.Proofs.Lineage.AnsweredBranches
import ColumnTrace.Proofs.Lineage.AnsweredJoins
import ColumnTrace.Proofs.Lineage.AnsweredRequests
import ColumnTrace.Proofs.Lineage.NamedColumns

/-!
# Answers are keyed by what was asked

A query that is asked for columns answers for these, in their order. A query that is asked for all
that it has answers for its own columns, in their order, if no two of them share an identity and
what stands under an operator is as wide as the operator (`Plan.isFull`). That no row of an
expansion is too short, that a union with columns has branches and that an expansion without columns
has none below has to be asked for besides (`Plan.fillsColumns`).

Both are one theorem (`Plan.keys_extract`), which rests on what one level does
(`Lineage.keys_of_step`, `Lineage.KeyedBelow.keys_of_full`).
-/

set_option autoImplicit false

namespace ColumnTrace

namespace Plan

/-! ## Plans with answers for all their columns -/

/-- No two columns of the plan share an identity. -/
def hasOwnIds (plan : Plan) : Bool := decide (plan.output.map Attribute.id).Nodup

/-- The plan is an operator of a query without named queries, and what stands under it has the
width that the operator takes it to have. -/
def widthsAgree : Plan → Bool
  | .project items _ => !items.isEmpty
  | .aggregate _ items _ => !items.isEmpty
  | .window .. => true
  | .expand projections output _ => projections.any (·.length == output.length)
  | .join .. => true
  | .union branches output => branches.all (·.output.length == output.length)
  | .relation .. => true
  | .localRelation .. => true
  | .oneRow => true
  | .view _ output body _ => body.output.length == output.length
  | .cached output physical _ =>
    (PhysicalNode.findLink [physical]).all (·.output.length == output.length)
  | .operator _ [child] output => decide (output = child.output)
  | _ => false

/-- All rows of an expansion have an entry for each of its columns, and there are such columns
unless there are none below; a union with columns has branches. -/
def fillsColumns : Plan → Bool
  | .expand projections output child =>
    projections.all (output.length ≤ ·.length) && (!output.isEmpty || child.output.isEmpty)
  | .union branches output => !branches.isEmpty || output.isEmpty
  | _ => true

/-- The plan has its own identities and widths that agree. -/
def isRegular (plan : Plan) : Bool := plan.hasOwnIds && plan.widthsAgree

/-- The plan answers for all its columns, if the plans below do. -/
def isFull (plan : Plan) : Bool := plan.isRegular && plan.fillsColumns

variable {settings : Settings} {plan : Plan}

/-- A plan is full if its identities, its widths and its rows are as they should be. -/
theorem isFull_iff : plan.isFull = true ↔
    (plan.output.map Attribute.id).Nodup ∧ plan.widthsAgree = true ∧ plan.fillsColumns = true := by
  rw [isFull, isRegular, hasOwnIds, Bool.and_eq_true, Bool.and_eq_true, decide_eq_true_iff,
    and_assoc]

/-- An operator whose widths agree answers requests. -/
theorem isAnswering_of_widthsAgree (h : plan.widthsAgree = true) : plan.isAnswering = true := by
  cases plan with
  | operator name children output =>
    cases children with
    | nil => cases h
    | cons child rest => rfl
  | commandResult | alterView | createView | createTable | insertTable | insertDirectory
  | saveSource | merge | cteReference => cases h
  | _ => rfl

/-- An operator whose widths agree is neither a clause nor a reference. -/
theorem isScoping_of_widthsAgree (h : plan.widthsAgree = true) : plan.isScoping = false := by
  cases plan with
  | withCte | cteReference => cases h
  | _ => rfl

/-- The plans that columns stand for by position are as wide as the plan over them. -/
theorem length_of_branches {output : List Attribute} {branches : List Plan}
    (h : plan.widthsAgree = true) (hbranches : plan.branches? settings = some (output, branches)) :
    ∀ branch ∈ branches, branch.output.length = output.length := by
  intro branch hbranch
  cases branches?_eq_some_iff.1 hbranches with
  | union => exact beq_iff_eq.1 (List.all_eq_true.1 h branch hbranch)
  | view => exact List.mem_singleton.1 hbranch ▸ beq_iff_eq.1 h
  | cached hlink =>
    rw [widthsAgree, hlink] at h
    exact List.mem_singleton.1 hbranch ▸ beq_iff_eq.1 h

/-- A plan that answers for all its columns answers requests with their columns. -/
theorem answering_of_full (plan : Plan) :
    (∀ below, plan.Reaches settings below → below.isFull = true) → plan.Answering := by
  induction plan using Plan.induction_on_parts with
  | h plan ih =>
    intro hfull
    have hwidths := (isFull_iff.1 (hfull plan (.refl plan))).2.1
    refine .mk (isAnswering_of_widthsAgree hwidths) fun child hchild => ?_
    have hentered := handsTo_subset_entered (isScoping_of_widthsAgree hwidths) hchild
    exact ih child (mem_parts.2 (Or.inl hentered))
      (Reaches.forall_of_mem (handsTo_subset_tracedBelow hchild) hfull)

end Plan

namespace Lineage

open Traced

variable {settings : Settings} {below : Below} {plan : Plan} {m : LineageMap}

/-! ## The columns of what operators compute -/

/-- A select list has its columns, in order. -/
theorem keys_ofSelectList {items : List SelectItem} {selected : LineageMap}
    (hnodup : (items.map SelectItem.toAttribute).Nodup)
    (h : (ofSelectList below items).result = .ok selected) :
    selected.keys = items.map SelectItem.toAttribute := by
  obtain ⟨pairs, hpairs, rfl⟩ := ofSelectList_eq_ok.1 h
  rw [← map_fst_of_itemSources hpairs] at hnodup ⊢
  exact OrderedMap.keys_ofList_of_nodup hnodup

/-- A window asks for the columns of its input and its own. -/
theorem keys_windowRequest_of_isEmpty {functions : List Alias} {input : List Attribute}
    (hnodup : ((input ++ functions.map Alias.toAttribute).map Attribute.id).Nodup) :
    (windowRequest functions input ∅).keys = input ++ functions.map Alias.toAttribute := by
  rw [OrderedMap.keys, entries_windowRequest_of_isEmpty hnodup, List.map_append, List.map_map,
    List.map_map]
  exact congrArg (· ++ _) (List.map_id' input)

/-- A table that is asked for nothing answers with all its columns. -/
theorem entries_answerOf_of_isEmpty {output : List Attribute} (hnodup : output.Nodup)
    (qualifier : List String) :
    (LineageMap.answerOf ∅ output qualifier).entries =
      output.map fun a => (a, .singleton (a.withQualifier qualifier)) := by
  rw [LineageMap.answerOf, if_pos OrderedMap.isEmpty_empty]
  apply OrderedMap.entries_ofList_of_nodup
  simpa [Function.comp_def] using hnodup

/-- A table that is asked for nothing answers for all its columns. -/
theorem keys_answerOf_of_isEmpty {output : List Attribute} (hnodup : output.Nodup)
    (qualifier : List String) : (LineageMap.answerOf ∅ output qualifier).keys = output := by
  rw [OrderedMap.keys, entries_answerOf_of_isEmpty hnodup, List.map_map]
  exact List.map_id' output

/-- Branches of one width make up all columns of a union. -/
theorem keys_ofBranches {output : List Attribute} {answers : List LineageMap}
    (hnodup : output.Nodup) (hsizes : ∀ answer ∈ answers, answer.size = output.length)
    (hne : answers ≠ [] ∨ output = []) : (ofBranches output answers).keys = output := by
  match output, answers, hne with
  | [], answers, _ =>
    by_cases hnone : answers = []
    · rw [hnone]
      rfl
    · exact LineageMap.keys_mergeAll hnone fun answer hanswer =>
        List.length_eq_zero_iff.1 (answer.length_keys.trans (hsizes answer hanswer))
  | a :: others, [], hne => exact absurd hne (by simp)
  | a :: others, first :: rest, _ =>
    rw [List.forall_mem_cons] at hsizes
    refine OrderedMap.keys_ofList_zip hnodup ((le_length_foldl_zipWith first.values).2 ⟨?_, ?_⟩)
    · rw [OrderedMap.length_values, hsizes.1]
    · exact fun answer hanswer => Nat.le_of_eq (hsizes.2 answer hanswer).symm

/-! ## One level -/

/-- An empty request asks for what is computed. -/
theorem eq_of_join_empty {computed inner : LineageMap}
    (h : (LineageMap.join ∅ computed).result = .ok inner) : inner = computed := by
  rw [LineageMap.result_join_of_isEmpty rfl] at h
  exact (Except.ok.inj h).symm

/-- The plans below answer for what they are asked for: for the columns of a request that is handed
to them, or else for all their own columns. -/
structure KeyedBelow (settings : Settings) (below : Below) (plan : Plan) : Prop where
  asked : ∀ child ∈ plan.handsTo, ∀ {request answer : LineageMap}, request.isEmpty = false →
    (below child request).result = .ok answer → answer.keys = request.keys
  full : ∀ child ∈ plan.tracedBelow settings, ∀ {request answer : LineageMap},
    request.isEmpty = true → (below child request).result = .ok answer →
    answer.keys = child.output

/-- A child that is asked for the plan's columns answers for these. Where the plan has none, the
child is asked for all that it has, so it must not have any either. -/
theorem KeyedBelow.keys_of_passed (h : KeyedBelow settings below plan) {child : Plan}
    {request : LineageMap} (hchild : child ∈ plan.handsTo) (hkeys : request.keys = plan.output)
    (hnone : plan.output = [] → child.output = [])
    (hm : (below child request).result = .ok m) : m.keys = plan.output := by
  cases hempty : request.isEmpty with
  | false => rw [h.asked child hchild hempty hm, hkeys]
  | true =>
    have houtput : plan.output = [] := by
      rw [← hkeys, ← List.isEmpty_iff, OrderedMap.isEmpty_keys, hempty]
    rw [h.full child (Plan.handsTo_subset_tracedBelow hchild) hempty hm, houtput, hnone houtput]

/-- A select list over a plan that answers has its own columns. -/
theorem KeyedBelow.keys_of_project {items : List SelectItem} {child : Plan}
    (h : KeyedBelow settings below plan) (hchild : child ∈ plan.handsTo)
    (houtput : plan.output = items.map SelectItem.toAttribute) (hnodup : plan.output.Nodup)
    (hitems : items.isEmpty = false)
    (hm : (step settings below (.project items child) ∅).result = .ok m) :
    m.keys = plan.output := by
  obtain ⟨selected, inner, hselected, hjoin, hm⟩ := step_project.1 hm
  obtain rfl := eq_of_join_empty hjoin
  refine h.keys_of_passed hchild ?_ ?_ hm
  · rw [houtput] at hnodup ⊢
    exact keys_ofSelectList hnodup hselected
  · rw [houtput, List.map_eq_nil_iff]
    rintro rfl
    cases hitems

/-- An expansion answers for its own columns. -/
theorem KeyedBelow.keys_of_expand {projections : List (List Expr)} {output : List Attribute}
    {child : Plan} (h : KeyedBelow settings below (.expand projections output child))
    (hnodup : output.Nodup) (hplan : (Plan.expand projections output child).isFull = true)
    (hm : (step settings below (.expand projections output child) ∅).result = .ok m) :
    m.keys = output := by
  obtain ⟨-, hwidths, hfills⟩ := Plan.isFull_iff.1 hplan
  simp only [Plan.fillsColumns, Bool.and_eq_true, List.all_eq_true, decide_eq_true_iff,
    Bool.or_eq_true, Bool.not_eq_true', List.isEmpty_iff, List.isEmpty_eq_false_iff] at hfills
  obtain ⟨inner, hjoin, hm⟩ := step_expand.1 hm
  obtain rfl := eq_of_join_empty hjoin
  refine h.keys_of_passed List.mem_cons_self (keys_ofProjections_of_le ?_ hfills.1 hnodup) ?_ hm
  · rintro rfl
    cases hwidths
  · exact fun hnone => hfills.2.resolve_left fun hne => hne hnone

/-- A join answers for the columns of the sides that it shows. -/
theorem KeyedBelow.keys_of_join {left right : Plan} {type : JoinType} {condition : Option Expr}
    (h : KeyedBelow settings below (.join left right type condition))
    (hnodup : (Plan.join left right type condition).output.Nodup)
    (hm : (step settings below (.join left right type condition) ∅).result = .ok m) :
    m.keys = (Plan.join left right type condition).output := by
  rw [Plan.output] at hnodup ⊢
  cases hexposes : type.exposesRight with
  | true =>
    rw [if_pos hexposes] at hnodup
    rw [if_pos rfl]
    obtain ⟨l, r, hl, hr, rfl⟩ := (step_join hexposes).1 hm
    have hlkeys := h.full left Plan.left_mem_tracedBelow rfl hl
    have hrkeys := h.full right (Plan.right_mem_tracedBelow hexposes) rfl hr
    rw [LineageMap.keys_merge_of_disjoint, hlkeys, hrkeys]
    rw [hlkeys, hrkeys]
    exact fun key hright hleft => (List.nodup_append.1 hnodup).2.2 key hleft key hright rfl
  | false =>
    rw [if_neg Bool.false_ne_true]
    rw [step_semijoin hexposes] at hm
    exact h.full left Plan.left_mem_tracedBelow rfl hm

/-- A union answers for its own columns. -/
theorem KeyedBelow.keys_of_union {branches : List Plan} {output : List Attribute}
    (h : KeyedBelow settings below (.union branches output)) (hnodup : output.Nodup)
    (hplan : (Plan.union branches output).isFull = true)
    (hm : (step settings below (.union branches output) ∅).result = .ok m) : m.keys = output := by
  obtain ⟨-, hwidths, hfills⟩ := Plan.isFull_iff.1 hplan
  simp only [Plan.fillsColumns, Bool.or_eq_true, Bool.not_eq_true', List.isEmpty_iff,
    List.isEmpty_eq_false_iff] at hfills
  have hbranches : (Plan.union branches output).branches? settings = some (output, branches) := rfl
  obtain ⟨answers, hanswers, hjoin⟩ := step_union.1 hm
  obtain rfl := eq_of_join_empty hjoin
  refine keys_ofBranches hnodup (fun answer hanswer => ?_) (hfills.imp_left fun hne => ?_)
  · obtain ⟨branch, hbranch, hanswer⟩ := exists_left_of_forall₂ hanswers hanswer
    rw [← OrderedMap.length_keys, h.full branch hbranch rfl hanswer]
    exact Plan.length_of_branches hwidths hbranches branch hbranch
  · rintro rfl
    exact hne (List.forall₂_nil_right_iff.1 hanswers)

/-- A table answers for its own columns. -/
theorem keys_of_ofRelation {output : List Attribute} {qualifier : List String}
    (hnodup : output.Nodup) (hm : (LineageMap.ofRelation ∅ output qualifier).result = .ok m) :
    m.keys = output := by
  rw [eq_answerOf_of_ofRelation hm, keys_answerOf_of_isEmpty hnodup]

/-- An opened view or result answers for its own columns. -/
theorem keys_of_ofRelationPlan {output : List Attribute} {lineage : LineageMap}
    (hnodup : output.Nodup) (hm : (LineageMap.ofRelationPlan ∅ output lineage).result = .ok m) :
    m.keys = output := by
  obtain ⟨hlength, hjoin⟩ := result_ofRelationPlan.1 hm
  obtain rfl := eq_of_join_empty hjoin
  refine OrderedMap.keys_ofList_zip hnodup ?_
  rwa [OrderedMap.length_values]

/-- One level that is asked for all that it has answers for its own columns, in their order. -/
theorem KeyedBelow.keys_of_full (h : KeyedBelow settings below plan) (hplan : plan.isFull = true)
    (hm : (step settings below plan ∅).result = .ok m) : m.keys = plan.output := by
  obtain ⟨hids, hwidths, -⟩ := Plan.isFull_iff.1 hplan
  have hnodup := LineageMap.nodup_of_nodup_ids hids
  cases plan with
  | project items child =>
    have hitems : items.isEmpty = false := by simpa [Plan.widthsAgree] using hwidths
    exact h.keys_of_project List.mem_cons_self rfl hnodup hitems hm
  | aggregate grouping items child =>
    have hitems : items.isEmpty = false := by simpa [Plan.widthsAgree] using hwidths
    exact h.keys_of_project List.mem_cons_self rfl hnodup hitems hm
  | window functions child partition order =>
    rw [step_window] at hm
    refine h.keys_of_passed List.mem_cons_self (keys_windowRequest_of_isEmpty hids) ?_ hm
    exact fun hnone => (List.append_eq_nil_iff.1 hnone).1
  | expand projections output child => exact h.keys_of_expand hnodup hplan hm
  | join left right type condition => exact h.keys_of_join hnodup hm
  | union branches output => exact h.keys_of_union hnodup hplan hm
  | relation output table =>
    rw [step_relation] at hm
    exact keys_of_ofRelation hnodup hm
  | localRelation output rows => exact keys_of_ofRelation hnodup hm
  | oneRow =>
    obtain rfl := Except.ok.inj hm
    rfl
  | view name output body temporary =>
    rcases step_view_cases hm with hm | ⟨lineage, -, hm⟩
    · exact keys_of_ofRelation hnodup hm
    · exact keys_of_ofRelationPlan hnodup hm
  | cached output physical table =>
    rcases step_cached_cases hm with hm | ⟨logical, lineage, -, hm⟩
    · exact keys_of_ofRelation hnodup hm
    · exact keys_of_ofRelationPlan hnodup hm
  | operator name children output =>
    match children, hwidths with
    | [child], hwidths =>
      rw [step_operator] at hm
      rw [h.full child List.mem_cons_self rfl hm]
      exact (of_decide_eq_true hwidths).symm
  | _ => cases hwidths

/-- By induction on the levels: a plan that is asked for all that it has answers for its columns, in
their order. -/
theorem keys_of_full (n : Nat) : ∀ {plan : Plan} {request m : LineageMap},
    (∀ below, plan.Reaches settings below → below.isFull = true) → request.isEmpty = true →
    (extractWithin settings n plan request).result = .ok m → m.keys = plan.output := by
  induction n with
  | zero => intro plan request m _ _ hm; cases hm
  | succ n ih =>
    intro plan request m hfull hempty hm
    obtain rfl : request = ∅ := OrderedMap.ext (OrderedMap.isEmpty_iff.1 hempty)
    have hbelow : KeyedBelow settings (extractWithin settings n) plan :=
      { asked := fun child hchild _ _ hne hanswer => by
          have hchildren := Plan.Reaches.forall_of_mem
            (Plan.handsTo_subset_tracedBelow hchild) hfull
          exact keys_of_answering n (child.answering_of_full hchildren) hne hanswer
        full := fun child hchild _ _ hinner hanswer =>
          ih (Plan.Reaches.forall_of_mem hchild hfull) hinner hanswer }
    exact hbelow.keys_of_full (hfull plan (.refl plan)) hm

/-! ## Answers -/

/-- A plan that answers for all its columns has no reason of its own to fail. -/
theorem not_ownError_of_full {e : ExtractionError}
    (hfull : ∀ below, plan.Reaches settings below → below.isFull = true) (n : Nat) :
    ¬ OwnError settings (extractWithin settings n) plan e := by
  have hwidths := (Plan.isFull_iff.1 (hfull plan (.refl plan))).2.1
  intro hown
  cases hown with
  | columns hbody hlineage hshort =>
    rename_i body output lineage
    have hbelow : body ∈ plan.tracedBelow settings := by
      rw [Plan.tracedBelow_of_branches hbody]
      exact List.mem_cons_self
    have hkeys := keys_of_full n (Plan.Reaches.forall_of_mem hbelow hfull) rfl hlineage
    have hlength := Plan.length_of_branches hwidths hbody body List.mem_cons_self
    rw [← OrderedMap.length_keys, hkeys, hlength] at hshort
    exact Nat.lt_irrefl _ hshort
  | _ => cases hwidths

/-- A plan that answers for all its columns does so, where it fits into the levels and its columns
have names. -/
theorem exists_answer_of_full {n : Nat} (hfits : plan.fits settings n)
    (hnames : ∀ below, plan.Reaches settings below → below.NamesGiven)
    (hfull : ∀ below, plan.Reaches settings below → below.isFull = true) :
    ∃ m, (extractWithin settings n plan ∅).result = .ok m := by
  have hends : (extractWithin settings n plan ∅).Ends (·.isNamed = true) fun _ => False := by
    refine ends_extractWithin n hnames rfl (Or.inr hfits) fun below hbelow k e hown => ?_
    exact not_ownError_of_full (fun _ h => hfull _ (hbelow.trans h)) k hown
  cases hresult : (extractWithin settings n plan ∅).result with
  | ok m => exact ⟨m, rfl⟩
  | error e => exact (hends.of_error hresult).elim

end Lineage

/-- A request for columns is answered with these columns, in their order: by every query without
operators that lose a request and without references to nothing in scope, whenever it answers. And a
query without named queries that is asked for all that it has answers for its own columns, in their
order, and does answer, if it is not too deep and its columns have names. -/
theorem Plan.keys_extract (settings : Settings) (plan : Plan) :
    (Throughout ScopedPlan.within (·.isAnswering = true) ⟨[], plan⟩ →
      ∀ request m, request.isEmpty = false → (plan.extract settings request).result = .ok m →
        m.keys = request.keys) ∧
    ((∀ below, plan.Reaches settings below → below.isFull = true) →
      (∀ m, (plan.extract settings ∅).result = .ok m → m.keys = plan.output) ∧
      (plan.fits settings (settings.maxPlanDepth + 1) →
        (∀ below, plan.Reaches settings below → below.NamesGiven) →
        ∃ m, (plan.extract settings ∅).result = .ok m)) := by
  refine ⟨fun hplan request m hne hm => ?_, fun hfull => ⟨fun m hm => ?_, fun hfits hnames => ?_⟩⟩
  · rw [Lineage.extract_eq] at hm
    exact Lineage.keys_of_answering _ (plan.answering_of_within hplan) hne hm
  · rw [Lineage.extract_eq] at hm
    exact Lineage.keys_of_full _ hfull rfl hm
  · rw [Lineage.extract_eq]
    exact Lineage.exists_answer_of_full hfits hnames hfull

/-- `SELECT abs(b) AS c, b FROM c` -/
def selectFromNamedTable : Plan :=
  .project [.aliased (.mk (.call "abs" [.column ⟨2, some "b", []⟩]) (some "c") 3),
    .column ⟨2, some "b", []⟩] namedTable

/-- `TABLE t` with one column, known by the number. -/
def numberedTable (id : Int) : Plan := .relation [⟨id, some "a", []⟩] (some ⟨"t", none, none⟩)

/-- An expansion of a stored result, joined to a union of a query and a view, with a sum over all
rows and the rows in order. -/
def queryOfAllKinds : Plan :=
  .operator "Sort" [.window
    [.mk (.windowed (.call "sum" [.column ⟨5, some "x", []⟩]) [] []) (some "s") 9]
    (.join
      (.union [
        .project [.aliased (.mk (.call "abs" [.column ⟨1, some "a", []⟩]) (some "x") 2)]
          (numberedTable 1),
        .view ⟨"v", none, none⟩ [⟨4, some "x", []⟩] (numberedTable 3) false] [⟨5, some "x", []⟩])
      (.expand [[.column ⟨7, some "c", []⟩, .literal "0"], [.literal "NULL", .literal "1"]]
        [⟨7, some "c", []⟩, ⟨8, some "g", []⟩]
        (.cached [⟨7, some "c", []⟩] (.mk "Scan" [] (some (numberedTable 6))) none))
      .inner none) [] []]
    [⟨5, some "x", []⟩, ⟨7, some "c", []⟩, ⟨8, some "g", []⟩, ⟨9, some "s", []⟩]

/-- What is asked of the one query. -/
def bothOfNamedTable : LineageMap := .identity [⟨2, some "b", []⟩, ⟨3, some "c", []⟩]

/-- A request below a clause comes back with its columns, and a query of many operators with its
own. -/
theorem keys_extract_named_and_allKinds :
    (((overNamedTable selectFromNamedTable).extract .standard bothOfNamedTable).result.isOk = true ∧
      ∀ m, ((overNamedTable selectFromNamedTable).extract .standard bothOfNamedTable).result =
        .ok m → m.keys = [⟨2, some "b", []⟩, ⟨3, some "c", []⟩]) ∧
    ∃ m, (queryOfAllKinds.extract .standard ∅).result = .ok m ∧
      m.keys = [⟨5, some "x", []⟩, ⟨7, some "c", []⟩, ⟨8, some "g", []⟩, ⟨9, some "s", []⟩] := by
  have hwithin : Throughout ScopedPlan.within (·.isAnswering = true)
      ⟨[], overNamedTable selectFromNamedTable⟩ := throughout_of_within 5 (by decide)
  have hasked := ((overNamedTable selectFromNamedTable).keys_extract .standard).1 hwithin
  have hfits : queryOfAllKinds.fits .standard 8 := by decide +kernel
  have hreached : ∀ below, queryOfAllKinds.Reaches .standard below →
      below.isFull = true ∧ below.NamesGiven := by
    have hall : ∀ below ∈ queryOfAllKinds.reachedWithin .standard 8,
        below.isFull = true ∧ below.NamesGiven := by decide +kernel
    exact fun below h => hall below (Plan.mem_reachedWithin_of_fits hfits h)
  have hkeys := (queryOfAllKinds.keys_extract .standard).2 fun below h => (hreached below h).1
  obtain ⟨m, hm⟩ := hkeys.2 (by decide +kernel) fun below h => (hreached below h).2
  exact ⟨⟨by decide +kernel, fun m hm => hasked bothOfNamedTable m rfl hm⟩, m, hm, hkeys.1 m hm⟩

/-- All widths in the query agree, and yet it does not answer for its own columns alone. -/
structure Plan.FallsShort (settings : Settings) (plan : Plan) : Prop where
  regular : Throughout Plan.parts (·.isRegular = true) plan
  short : ¬ ∃ m, (plan.extract settings ∅).result = .ok m ∧ m.keys = plan.output

/-- Widths that agree and other columns than the plan's are enough to fall short. -/
theorem Plan.fallsShort_of_keys_ne {settings : Settings} {plan : Plan} (levels : Nat)
    (hregular : ThroughoutWithin Plan.parts Plan.isRegular levels plan = true)
    (hkeys : (plan.extract settings ∅).result.map OrderedMap.keys ≠ .ok plan.output) :
    plan.FallsShort settings where
  regular := throughout_of_within levels hregular
  short := by
    rintro ⟨m, hm, houtput⟩
    exact hkeys (by rw [hm, ← houtput]; rfl)

/-- A union of no branches. -/
def unionOfNothing : Plan := .union [] [⟨2, some "x", []⟩]

/-- An expansion to no columns. -/
def expandedToNothing : Plan := .expand [[]] [] (numberedTable 1)

/-- An expansion with a row that is too short. -/
def expandedUnevenly : Plan :=
  .expand [[.column ⟨1, some "a", []⟩, .literal "0"], [.literal "NULL"]]
    [⟨2, some "x", []⟩, ⟨3, some "g", []⟩] (numberedTable 1)

/-- `SELECT a FROM (SELECT a FROM t)` -/
def selectTwice : Plan :=
  .project [.column ⟨1, some "a", []⟩] (.project [.column ⟨1, some "a", []⟩] (numberedTable 1))

/-- The first has no column, the second has the column of the table, the third lacks `g`, and the
fourth is too deep for a single level. -/
theorem keys_ne_output_of_uneven :
    unionOfNothing.FallsShort .standard ∧ expandedToNothing.FallsShort .standard ∧
      expandedUnevenly.FallsShort .standard ∧ selectTwice.FallsShort ⟨false, 1, Nat.one_pos⟩ :=
  ⟨Plan.fallsShort_of_keys_ne 2 (by decide +kernel) (by decide +kernel),
    Plan.fallsShort_of_keys_ne 2 (by decide +kernel) (by decide +kernel),
    Plan.fallsShort_of_keys_ne 2 (by decide +kernel) (by decide +kernel),
    Plan.fallsShort_of_keys_ne 3 (by decide +kernel) (by decide +kernel)⟩

end ColumnTrace
