import ColumnTrace.Proofs.Lineage.AnsweredBranches
import ColumnTrace.Proofs.Lineage.AnsweredRequests
import ColumnTrace.Proofs.Planner.TraceablePlans
import Mathlib.Data.List.Perm.Subperm

/-!
# Answers of traceable plans

A traceable plan that is asked for columns answers for these (`keys_of_traceable`). A query that is
asked for all that it has answers for each of its columns, unless its select list repeats one
(`length_le_size_iff`): an answer has one entry for a column, however often the column stands in the
list.
-/

set_option autoImplicit false

namespace ColumnTrace

open Traced

/-- What members of a list have in common with their partners, all have in common. -/
theorem forall_mem_iff_of_forall₂ {α β : Type} {R : α → β → Prop} {P : α → Prop} {Q : β → Prop}
    {xs : List α} {ys : List β} (h : List.Forall₂ R xs ys)
    (hiff : ∀ x ∈ xs, ∀ y, R x y → (Q y ↔ P x)) : (∀ y ∈ ys, Q y) ↔ ∀ x ∈ xs, P x := by
  induction h with
  | nil => simp
  | cons hxy _ ih =>
    rw [List.forall_mem_cons, List.forall_mem_cons, hiff _ List.mem_cons_self _ hxy,
      ih fun x hx => hiff x (List.mem_cons_of_mem _ hx)]

/-- A list of pairs brings an entry for each of them where no key comes twice. -/
theorem OrderedMap.length_le_size_ofList {κ ν : Type} [DecidableEq κ] {pairs : List (κ × ν)} :
    pairs.length ≤ (OrderedMap.ofList pairs).size ↔ (pairs.map Prod.fst).Nodup := by
  constructor
  · intro h
    have hsubperm : (OrderedMap.ofList pairs).keys.Subperm (pairs.map Prod.fst) :=
      (OrderedMap.ofList pairs).nodup_keys.subperm fun key hkey => OrderedMap.mem_keys_ofList.1 hkey
    refine (hsubperm.perm_of_length_le ?_).nodup_iff.1 (OrderedMap.ofList pairs).nodup_keys
    simpa [OrderedMap.keys, OrderedMap.size] using h
  · intro h
    rw [OrderedMap.size, OrderedMap.entries_ofList_of_nodup h]

namespace Lineage

variable {settings : Settings} {below : Below}

/-- A clause is traced as what it is written out to. -/
theorem step_withCte {definitions : List CteDefinition} {body inlined : Plan}
    (h : ((Plan.withCte definitions body).inline []).result = .ok inlined) (parent : LineageMap) :
    (step settings below (.withCte definitions body) parent).result =
      (below inlined parent).result := by
  rw [step, stepAt, result_bind_of_ok h]

/-! ## The columns of an answer -/

/-- A traceable plan answers requests with their columns. -/
theorem answering_of_traceable {plan : Plan} (h : plan.Traceable settings) : plan.Answering := by
  induction h with
  | mk harranged _ hresolved _ _ ih =>
    refine .mk ?_ fun child hchild => ih child (Plan.handsTo_subset_tracedBelow hchild)
    cases harranged with
    | cteReference id output => cases hresolved
    | _ => rfl

/-- An answer has the columns of the request, in its order. -/
theorem keys_of_traceable (n : Nat) {plan : Plan} {request m : LineageMap}
    (hplan : plan.Traceable settings) (hne : request.isEmpty = false)
    (hm : (extractWithin settings n plan request).result = .ok m) : m.keys = request.keys :=
  keys_of_answering n (answering_of_traceable hplan) hne hm

/-! ## The number of columns of an answer -/

/-- A union answers for each of its columns where all branches have as many. -/
theorem length_le_size_ofBranches {output : List Attribute} {answers : List LineageMap}
    (hnodup : output.Nodup) (hne : answers ≠ []) :
    output.length ≤ (ofBranches output answers).size ↔
      ∀ answer ∈ answers, output.length ≤ answer.size := by
  cases answers with
  | nil => exact absurd rfl hne
  | cons first rest =>
    cases output with
    | nil => simp
    | cons a others =>
      rw [List.forall_mem_cons, ← OrderedMap.length_values first, ← le_length_foldl_zipWith]
      simp only [ofBranches]
      generalize List.foldl _ first.values rest = columns
      have hkeys := hnodup.sublist (sublist_map_fst_zip (a :: others) columns)
      rw [OrderedMap.size, OrderedMap.entries_ofList_of_nodup hkeys, List.length_zip, Nat.le_min]
      exact and_iff_right (le_refl _)

/-- A select list that is asked for all that it has: each of its columns is answered for once. -/
theorem length_le_size_of_project {n : Nat} {items : List SelectItem} {child : Plan}
    {m : LineageMap} (hchild : child.Traceable settings)
    (hm : (step settings (extractWithin settings n) (.project items child) ∅).result = .ok m) :
    items.length ≤ m.size ↔ (items.map SelectItem.toAttribute).Nodup := by
  obtain ⟨selected, inner, hselected, hjoin, hm⟩ := step_project.1 hm
  rw [LineageMap.result_join_of_isEmpty rfl] at hjoin
  obtain rfl := Except.ok.inj hjoin
  obtain ⟨pairs, hpairs, rfl⟩ := ofSelectList_eq_ok.1 hselected
  have hlength : items.length = pairs.length := hpairs.length_eq
  rw [← map_fst_of_itemSources hpairs, ← OrderedMap.length_le_size_ofList, hlength]
  cases hempty : (OrderedMap.ofList pairs).isEmpty with
  | true =>
    -- nothing is listed, and the child answers for what it likes
    have hnone : pairs = [] := List.eq_nil_iff_forall_not_mem.2 fun pair hpair => by
      have hkey := OrderedMap.mem_keys_ofList.2 (List.mem_map_of_mem (f := Prod.fst) hpair)
      rw [OrderedMap.keys, OrderedMap.isEmpty_iff.1 hempty] at hkey
      cases hkey
    simp [hnone]
  | false =>
    have hkeys := congrArg List.length (keys_of_traceable n hchild hempty hm)
    simp only [OrderedMap.keys, List.length_map] at hkeys
    rw [OrderedMap.size, OrderedMap.size, hkeys]

/-- By induction on the levels: a query that is asked for all that it has answers for each of its
columns unless a column stands twice in a select list that its rows come from. -/
theorem length_le_size_iff (n : Nat) : ∀ {plan : Plan} {m : LineageMap},
    plan.Traceable settings → plan.IsResult → (extractWithin settings n plan ∅).result = .ok m →
    (plan.output.length ≤ m.size ↔ plan.repeatsColumn = false) := by
  induction n with
  | zero => intro plan m _ _ hm; cases hm
  | succ n ih =>
    intro plan m hplan hresult hm
    obtain ⟨harranged, -, hresolved, hinlines, hbelow⟩ := hplan
    rw [extractWithin] at hm
    cases hresult with
    | project items child =>
      simpa [Plan.output, Plan.repeatsColumn] using
        length_le_size_of_project (hbelow child List.mem_cons_self) hm
    | aggregate grouping items child =>
      rw [step_aggregate] at hm
      simpa [Plan.output, Plan.repeatsColumn] using
        length_le_size_of_project (hbelow child List.mem_cons_self) hm
    | @operator name child output hchild =>
      cases harranged with
      | operator _ _ houtput =>
        rw [step_operator] at hm
        have hsize := ih (hbelow child List.mem_cons_self) hchild hm
        simpa [Plan.output, Plan.repeatsColumn, Plan.anyRepeatsColumn, houtput] using hsize
    | @ofLeft left right type condition hhides hleft =>
      rw [step_semijoin hhides] at hm
      have hsize := ih (hbelow left Plan.left_mem_tracedBelow) hleft hm
      simpa [Plan.output, Plan.repeatsColumn, hhides] using hsize
    | union output hbranches =>
      cases harranged with
      | @union first second rest _ hnodup hstands =>
        obtain ⟨answers, hanswers, hjoin⟩ := step_union.1 hm
        rw [LineageMap.result_join_of_isEmpty rfl] at hjoin
        obtain rfl := Except.ok.inj hjoin
        have hne : answers ≠ [] := by rintro rfl; cases hanswers
        -- the answer is as wide as the union if and only if each branch answers in full width
        rw [Plan.output, length_le_size_ofBranches hnodup hne, Plan.repeatsColumn,
          Plan.anyRepeatsColumn_eq_false_iff]
        refine forall_mem_iff_of_forall₂ hanswers fun branch hbranch answer hanswer => ?_
        rw [(hstands branch hbranch).length]
        exact ih (hbelow branch hbranch) (hstands branch hbranch).isResult hanswer
    | @withCte definitions body hbody =>
      -- what the clause is written out to has its width, and repeats a column where it does
      obtain ⟨inlined, hinline, halike⟩ := hinlines definitions body rfl
      rw [step_withCte hinline] at hm
      obtain ⟨hinlined, hrepeats⟩ := halike.result (.withCte definitions hbody)
      rw [← halike.length, ← hrepeats]
      refine ih (hbelow inlined ?_) hinlined hm
      rw [Plan.tracedBelow, hinline]
      exact List.mem_cons_self

/-! ## Plans that were asked -/

/-- The subqueries of a select list that has a lineage have one. -/
theorem exists_answer_of_selectList {items : List SelectItem} {selected : LineageMap}
    (h : (ofSelectList below items).result = .ok selected) {query : Plan}
    (hquery : query ∈ items.flatMap SelectItem.tracedSubqueries) :
    ∃ answer, (below query ∅).result = .ok answer := by
  obtain ⟨pairs, hpairs, -⟩ := ofSelectList_eq_ok.1 h
  obtain ⟨item, hitem, hquery⟩ := List.mem_flatMap.1 hquery
  obtain ⟨pair, -, hsources⟩ := exists_left_of_forall₂ hpairs.flip hitem
  cases item with
  | column a => cases hquery
  | aliased definition =>
    rw [SelectItem.tracedSubqueries] at hquery
    split at hquery
    · next hdirect =>
      obtain ⟨sources, hsources, -⟩ := result_bind_eq_ok.1 hsources
      simp only [aliasSources, if_pos hdirect] at hsources
      obtain ⟨nested, hnested, -⟩ := result_bind_eq_ok.1 hsources
      obtain ⟨answer, -, hanswer⟩ :=
        exists_left_of_forall₂ (result_mapM_eq_ok.1 hnested).flip hquery
      exact ⟨answer, hanswer⟩
    · cases hquery

/-- One level has an answer only where all plans that are traced for it have one. -/
theorem exists_answer_of_mem {plan child : Plan} {parent m : LineageMap} (harranged : plan.Arranged)
    (hm : (step settings below plan parent).result = .ok m)
    (hchild : child ∈ plan.tracedBelow settings) :
    ∃ request answer, (below child request).result = .ok answer := by
  -- an aggregate asks what a projection with its entries asks
  have hlist : ∀ {items : List SelectItem} {source : Plan},
      (step settings below (.project items source) parent).result = .ok m →
      child ∈ source :: items.flatMap SelectItem.tracedSubqueries →
      ∃ request answer, (below child request).result = .ok answer := by
    intro items source hm hchild
    obtain ⟨selected, inner, hselected, -, hm⟩ := step_project.1 hm
    rcases List.mem_cons.1 hchild with rfl | hchild
    · exact ⟨inner, m, hm⟩
    · exact ⟨∅, exists_answer_of_selectList hselected hchild⟩
  cases harranged with
  | project items source => exact hlist hm hchild
  | aggregate grouping items source => exact hlist hm hchild
  | window functions source partition order =>
    rw [step_window] at hm
    exact List.mem_singleton.1 hchild ▸ ⟨_, m, hm⟩
  | expand projections output source =>
    obtain ⟨inner, -, hm⟩ := step_expand.1 hm
    exact List.mem_singleton.1 hchild ▸ ⟨inner, m, hm⟩
  | join left right type condition =>
    cases hexposes : type.exposesRight with
    | true =>
      obtain ⟨l, r, hl, hr, -⟩ := (step_join hexposes).1 hm
      rw [Plan.tracedBelow_of_exposing hexposes, List.mem_pair] at hchild
      rcases hchild with rfl | rfl
      · exact ⟨parent, l, hl⟩
      · exact ⟨parent, r, hr⟩
    | false =>
      rw [step_semijoin hexposes] at hm
      rw [Plan.tracedBelow_of_hiding hexposes] at hchild
      exact List.mem_singleton.1 hchild ▸ ⟨parent, m, hm⟩
  | union hnodup hstands =>
    obtain ⟨answers, hanswers, -⟩ := step_union.1 hm
    obtain ⟨answer, -, hanswer⟩ := exists_left_of_forall₂ hanswers.flip hchild
    exact ⟨∅, answer, hanswer⟩
  | relation output table => cases hchild
  | localRelation output rows => cases hchild
  | oneRow => cases hchild
  | view name temporary hstands =>
    rw [Plan.tracedBelow] at hchild
    cases hskip : (!temporary && settings.skipPersistedViews) with
    | true =>
      rw [if_pos hskip] at hchild
      cases hchild
    | false =>
      rw [hskip, if_neg Bool.false_ne_true] at hchild
      obtain ⟨lineage, hlineage, -⟩ := (step_view_opened hskip).1 hm
      exact List.mem_singleton.1 hchild ▸ ⟨∅, lineage, hlineage⟩
  | cached table hlink hstands =>
    rw [Plan.tracedBelow, hlink] at hchild
    obtain ⟨lineage, hlineage, -⟩ := (step_cached_linked hlink).1 hm
    exact List.mem_singleton.1 hchild ▸ ⟨∅, lineage, hlineage⟩
  | cteReference id output => cases hchild
  | withCte definitions body =>
    rw [Plan.tracedBelow] at hchild
    split at hchild
    · next inlined hinline =>
      rw [step_withCte hinline] at hm
      exact List.mem_singleton.1 hchild ▸ ⟨parent, m, hm⟩
    · cases hchild
  | operator name source houtput =>
    rw [step_operator] at hm
    exact List.mem_singleton.1 hchild ▸ ⟨parent, m, hm⟩

/-- By induction on the levels: a plan has an answer only where all plans that it reaches have one.
-/
theorem exists_answer_of_reaches (n : Nat) : ∀ {plan child : Plan} {request m : LineageMap},
    plan.Traceable settings → (extractWithin settings n plan request).result = .ok m →
    plan.Reaches settings child →
    ∃ n request answer, (extractWithin settings n child request).result = .ok answer := by
  induction n with
  | zero => intro plan child request m _ hm; cases hm
  | succ n ih =>
    intro plan child request m hplan hm hreaches
    rcases Plan.reaches_iff.1 hreaches with rfl | ⟨next, hnext, hreaches⟩
    · exact ⟨n + 1, request, m, hm⟩
    · obtain ⟨inner, answer, hanswer⟩ := exists_answer_of_mem hplan.arranged hm hnext
      exact ih (hplan.of_mem hnext) hanswer hreaches

end Lineage

end ColumnTrace
