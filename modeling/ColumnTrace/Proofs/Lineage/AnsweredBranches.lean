import ColumnTrace.Proofs.Lineage.Agreement
import ColumnTrace.Proofs.Lineage.PassedRequests

/-!
# Branches answer requests

The branches of a union, the body of an opened view and the plan of a stored result are traced for
all that they have. Put side by side, the sources at one place are all that the branches bring for
their columns there (`Plan.exists_columns_ofBranches`), and requests are resolved against these.
-/

set_option autoImplicit false

namespace ColumnTrace

open Traced

/-- The values of a map stand in the order of its keys. -/
theorem LineageMap.getElem?_values (m : LineageMap) (i : Nat) :
    m.values[i]? = m.keys[i]?.map m.sourcesOf := by
  rw [values_eq_map_keys, List.getElem?_map]

/-- The columns of branches are as many as those of the branch with the fewest. -/
theorem Lineage.le_length_foldl_zipWith {width : Nat} {answers : List LineageMap} :
    ∀ columns : List AttributeSet,
      width ≤ (answers.foldl (fun columns branch =>
        List.zipWith (fun s t => s ∪ t) columns branch.values) columns).length ↔
      width ≤ columns.length ∧ ∀ answer ∈ answers, width ≤ answer.size := by
  induction answers with
  | nil => simp
  | cons answer rest ih =>
    intro columns
    rw [List.foldl_cons, ih, List.length_zipWith, List.forall_mem_cons, Nat.le_min, and_assoc,
      OrderedMap.values, List.length_map, OrderedMap.size]

namespace Plan

variable {settings : Settings} {source : Int → Attribute} {plan : Plan} {n : Nat}
variable {output : List Attribute} {branches : List Plan}

/-- What branches bring for their columns at one place. -/
def BringsAt (settings : Settings) (branches : List Plan) (i : Nat) (e : Attribute) : Prop :=
  ∃ branch ∈ branches, ∃ b, branch.output[i]? = some b ∧ branch.Brings settings false b e

/-- At one place arrives what the first branch or the others bring there. -/
theorem bringsAt_cons {branch : Plan} {i : Nat} {e : Attribute} :
    BringsAt settings (branch :: branches) i e ↔
      (∃ b, branch.output[i]? = some b ∧ branch.Brings settings false b e) ∨
        BringsAt settings branches i e := by
  simp [BringsAt]

/-- The sources at one place of a full answer are those of the column there. -/
theorem AnsweredInFull.values {answer : LineageMap} (h : plan.AnsweredInFull settings answer)
    {i : Nat} {s : AttributeSet} (hs : answer.values[i]? = some s) :
    AccountsFor s.attrs fun e =>
      ∃ b, plan.output[i]? = some b ∧ plan.Brings settings false b e := by
  rw [LineageMap.getElem?_values, h.1, Option.map_eq_some_iff] at hs
  obtain ⟨b, hb, rfl⟩ := hs
  refine (h.2 b (List.mem_of_getElem? hb)).congr fun e => ?_
  simp [hb]

/-- A full answer is as wide as the plan. -/
theorem AnsweredInFull.length_values {answer : LineageMap}
    (h : plan.AnsweredInFull settings answer) : answer.values.length = plan.output.length := by
  rw [← h.1, OrderedMap.length_values, OrderedMap.length_keys]

/-- Sources at each place are put together branch by branch. -/
theorem accountsFor_foldl {answers : List LineageMap} {width : Nat}
    (hanswers : List.Forall₂ (AnsweredInFull settings) branches answers)
    (hwidth : ∀ branch ∈ branches, branch.output.length = width) :
    ∀ (columns : List AttributeSet) (P : Nat → Attribute → Prop), columns.length = width →
      (∀ i s, columns[i]? = some s → AccountsFor s.attrs (P i)) →
      (∀ i e, P i e ∨ BringsAt settings branches i e → e.qualifier ≠ [] → e = source e.id) →
      (answers.foldl (fun columns branch =>
        List.zipWith (fun s t => s ∪ t) columns branch.values) columns).length = width ∧
      ∀ i s, (answers.foldl (fun columns branch =>
          List.zipWith (fun s t => s ∪ t) columns branch.values) columns)[i]? = some s →
        AccountsFor s.attrs fun e => P i e ∨ BringsAt settings branches i e := by
  induction hanswers with
  | nil =>
    intro columns P hlength haccounts _
    refine ⟨hlength, fun i s hs => (haccounts i s hs).congr fun e => ?_⟩
    simp [BringsAt]
  | @cons branch answer branches answers hanswer _ ih =>
    intro columns P hlength haccounts hsource
    -- what was put together before the branch and what the branch brings go into one `P`
    have hassoc : ∀ {i e}, (P i e ∨ ∃ b, branch.output[i]? = some b ∧
          branch.Brings settings false b e) ∨ BringsAt settings branches i e ↔
        P i e ∨ BringsAt settings (branch :: branches) i e := by
      intro i e
      rw [bringsAt_cons, or_assoc]
    have hvalues : answer.values.length = width :=
      hanswer.length_values.trans (hwidth branch List.mem_cons_self)
    obtain ⟨hfinal, hsources⟩ := ih
      (fun other hother => hwidth other (List.mem_cons_of_mem branch hother))
      (List.zipWith (fun s t => s ∪ t) columns answer.values)
      (fun i e => P i e ∨ ∃ b, branch.output[i]? = some b ∧ branch.Brings settings false b e)
      (by rw [List.length_zipWith, hlength, hvalues, Nat.min_self])
      (by
        intro i s hs
        obtain ⟨t, u, ht, hu, rfl⟩ := List.getElem?_zipWith_eq_some.1 hs
        refine AccountsFor.union source (haccounts i t ht) (hanswer.values hu) ?_
        exact fun e he => hsource i e (hassoc.1 (Or.inl he)))
      (fun i e he => hsource i e (hassoc.1 he))
    exact ⟨hfinal, fun i s hs => (hsources i s hs).congr fun e => hassoc⟩

/-- Put side by side, full answers have at each place all that the branches bring there. -/
theorem exists_columns_ofBranches {answers : List LineageMap}
    (hanswers : List.Forall₂ (AnsweredInFull settings) branches answers)
    (hne : branches ≠ []) (houtput : output ≠ []) (hnodup : output.Nodup)
    (hwidth : ∀ branch ∈ branches, branch.output.length = output.length)
    (hsource : ∀ i e, BringsAt settings branches i e → e.qualifier ≠ [] → e = source e.id) :
    ∃ columns, (Lineage.ofBranches output answers).entries = output.zip columns ∧
      columns.length = output.length ∧
      ∀ i s, columns[i]? = some s → AccountsFor s.attrs (BringsAt settings branches i) := by
  cases hanswers with
  | nil => exact absurd rfl hne
  | @cons branch answer branches answers hanswer hrest =>
    obtain ⟨hlength, haccounts⟩ := accountsFor_foldl hrest
      (fun other hother => hwidth other (List.mem_cons_of_mem branch hother)) answer.values _
      (hanswer.length_values.trans (hwidth branch List.mem_cons_self))
      (fun i s hs => hanswer.values hs)
      (fun i e he => hsource i e (bringsAt_cons.2 he))
    refine ⟨_, ?_, hlength, fun i s hs => (haccounts i s hs).congr fun e => bringsAt_cons.symm⟩
    have hfst : (output.zip (answers.foldl (fun columns branch =>
        List.zipWith (fun s t => s ∪ t) columns branch.values) answer.values)).map Prod.fst =
        output := List.map_fst_zip (Nat.le_of_eq hlength.symm)
    cases output with
    | nil => exact absurd rfl houtput
    | cons a rest =>
      exact OrderedMap.entries_ofList_of_nodup (by rwa [hfst])

/-! ## Plans with branches -/

/-- A union, an opened view or a linked result answers with what its branches bring side by side,
joined to the request. -/
theorem step_of_branches {below : Lineage.Below} {parent m : LineageMap}
    {answers : List LineageMap} (h : plan.branches? settings = some (output, branches))
    (houtput : output ≠ [])
    (hanswers : List.Forall₂ (fun branch answer => (below branch ∅).result = .ok answer)
      branches answers)
    (hsizes : ∀ answer ∈ answers, answer.size = output.length)
    (hm : (parent.join (Lineage.ofBranches output answers)).result = .ok m) :
    (Lineage.step settings below plan parent).result = .ok m := by
  -- a single branch is read by position, as the body of a view is
  have hsingle : ∀ {body : Plan},
      List.Forall₂ (fun branch answer => (below branch ∅).result = .ok answer) [body] answers →
      ∃ lineage, (below body ∅).result = .ok lineage ∧
        (parent.ofRelationPlan output lineage).result = .ok m := by
    intro body hbody
    obtain ⟨lineage, rest, hlineage, hrest, rfl⟩ := List.forall₂_cons_left_iff.1 hbody
    obtain rfl := List.forall₂_nil_left_iff.1 hrest
    refine ⟨lineage, hlineage, Lineage.result_ofRelationPlan.2 ⟨?_, ?_⟩⟩
    · exact Nat.le_of_eq (hsizes lineage List.mem_cons_self).symm
    · cases output with
      | nil => exact absurd rfl houtput
      | cons a rest => exact hm
  cases branches?_eq_some_iff.1 h with
  | union => exact Lineage.step_union.2 ⟨answers, hanswers, hm⟩
  | view hopened => exact (Lineage.step_view_opened hopened).2 (hsingle hanswers)
  | cached hlink => exact (Lineage.step_cached_linked hlink).2 (hsingle hanswers)

/-- A plan of branches knows its own columns only. -/
theorem columnIds_of_branches (h : plan.branches? settings = some (output, branches))
    (houtput : output ≠ []) : plan.columnIds = output.map Attribute.id := by
  cases branches?_eq_some_iff.1 h with
  | union => exact columnIds_union houtput
  | view | cached => rfl

/-- A plan of branches hands every column back but the marker of rows. -/
theorem handedBack?_of_branches (h : plan.branches? settings = some (output, branches))
    (a : Attribute) : plan.handedBack? settings a = a.uncounted? := by
  cases branches?_eq_some_iff.1 h with
  | union => rfl
  | view hopened => rw [handedBack?, hopened, if_neg Bool.false_ne_true]
  | cached hlink => simp only [handedBack?, hlink]

/-- No branch is asked for a single column. -/
theorem asksBelow_of_branches (h : plan.branches? settings = some (output, branches))
    (asked : Bool) : plan.asksBelow asked = false := by
  cases branches?_eq_some_iff.1 h <;> rfl

/-- A column is fed by the columns of the branches at its place. -/
theorem feeds_of_branches (h : plan.branches? settings = some (output, branches))
    {a r : Attribute} {below : Plan} : plan.Feeds settings a below r ↔
      ∃ i : Nat, below ∈ branches ∧ output[i]? = some a ∧ below.output[i]? = some r := by
  constructor
  · intro hfeeds
    cases hfeeds with
    | item hlist => cases plan <;> cases hlist <;> cases h
    | branch hbranches hbranch ha hb =>
      rw [h] at hbranches
      cases hbranches
      exact ⟨_, hbranch, ha, hb⟩
    | _ => cases h
  · rintro ⟨i, hbranch, ha, hb⟩
    exact .branch h hbranch ha hb

/-- A column of a plan with branches brings what the branches bring at its place. -/
theorem brings_of_branches (h : plan.branches? settings = some (output, branches))
    (hnodup : output.Nodup) {i : Nat} {a e : Attribute} (ha : output[i]? = some a)
    {asked : Bool} :
    plan.Brings settings asked a e ↔ BringsAt settings branches i e := by
  rw [brings_iff, table?_of_branches h, asksBelow_of_branches h]
  constructor
  · rintro (⟨_, _, hsome, -⟩ | ⟨below, r, hfeeds, hbrings⟩ | ⟨-, hhands⟩)
    · cases hsome
    · obtain ⟨k, hbelow, hk, hr⟩ := (feeds_of_branches h).1 hfeeds
      obtain rfl : k = i := by
        have hlt := (List.getElem?_eq_some_iff.1 hk).1
        exact (List.getElem?_inj hlt hnodup).1 (hk.trans ha.symm)
      exact ⟨below, hbelow, r, hr, hbrings⟩
    · cases hhands <;> cases h
  · rintro ⟨branch, hbranch, b, hb, hbrings⟩
    exact Or.inr (Or.inl ⟨branch, b, (feeds_of_branches h).2 ⟨i, hbranch, ha, hb⟩, hbrings⟩)

/-- What branches bring side by side is all that the plan over them brings for its columns. -/
theorem accountsFor_ofBranches {answers : List LineageMap} (hplan : plan.Resolved settings source)
    (h : plan.branches? settings = some (output, branches))
    (hanswers : List.Forall₂ (AnsweredInFull settings) branches answers) :
    (Lineage.ofBranches output answers).keys = output ∧
      ∀ asked, ∀ a ∈ output, AccountsFor ((Lineage.ofBranches output answers).sourcesOf a).attrs
        (plan.Brings settings asked a) := by
  have hwf := hplan.wellFormed
  obtain ⟨houtput, hne, hwidth⟩ := hwf.branches output branches h
  have hnodup : output.Nodup :=
    LineageMap.nodup_of_nodup_ids (output_of_branches h ▸ hwf.nodup_ids)
  have hsource : ∀ i e, BringsAt settings branches i e → e.qualifier ≠ [] →
      e = source e.id := by
    rintro i e ⟨branch, hbranch, b, -, hbrings⟩
    refine hbrings.eq_source (hplan.of_traced ?_)
    rw [tracedBelow_of_branches h]
    exact hbranch
  obtain ⟨columns, hentries, hlength, haccounts⟩ :=
    exists_columns_ofBranches hanswers hne houtput hnodup hwidth hsource
  refine ⟨?_, fun asked a ha => ?_⟩
  · rw [OrderedMap.keys, hentries, List.map_fst_zip (Nat.le_of_eq hlength.symm)]
  · obtain ⟨i, hi⟩ := List.mem_iff_getElem?.1 ha
    have hlt : i < columns.length := hlength ▸ (List.getElem?_eq_some_iff.1 hi).1
    have hcolumn : columns[i]? = some columns[i] := List.getElem?_eq_getElem hlt
    have hentry : (a, columns[i]) ∈ (Lineage.ofBranches output answers).entries := by
      rw [hentries]
      exact List.mem_of_getElem? (List.getElem?_zip_eq_some.2 ⟨hi, hcolumn⟩)
    rw [LineageMap.sourcesOf_of_mem hentry]
    exact (haccounts i _ hcolumn).congr fun e => (brings_of_branches h hnodup hi).symm

/-- A dependency that the plan may be asked for is resolved to all that the plan gives for it: to
what the branches bring, where it is a column of the plan, and else to itself. -/
theorem accountsFor_resolve_of_branches {computed : LineageMap} {entry : Attribute × AttributeSet}
    {d : Attribute} (hplan : plan.WellFormed settings source)
    (h : plan.branches? settings = some (output, branches)) (hkeys : computed.keys = output)
    (hcolumn : ∀ a ∈ output,
      AccountsFor (computed.sourcesOf a).attrs (plan.Brings settings true a))
    (hask : plan.Askable entry) (hd : d ∈ entry.2.attrs) :
    AccountsFor (computed.resolve d) (plan.Gives settings d) := by
  have heq := output_of_branches h
  rcases hask.own_or_unknown d hd with hown | hunknown
  · rw [LineageMap.resolve_of_mem_keys (hkeys.symm ▸ heq ▸ hplan.nodup_ids)
      (hkeys.symm ▸ heq ▸ hown)]
    exact (hcolumn d (heq ▸ hown)).congr fun e => (gives_of_mem_output hplan hown).symm
  · have hplain := hask.plain d hd
    have hforeign : ∀ key ∈ computed.keys, key.id ≠ d.id := by
      intro key hkey hid
      rw [columnIds_of_branches h (hplan.branches output branches h).1, ← hid] at hunknown
      exact hunknown (List.mem_map_of_mem (hkeys ▸ hkey))
    rw [LineageMap.resolve_of_isPlain hplain hforeign]
    refine .of_mem_iff fun x => ?_
    rw [gives_of_unknown hplan hunknown, handedBack?_of_branches h,
      Attribute.uncounted?_of_isPlain hplain, List.mem_singleton, Option.some.injEq, eq_comm]

/-- A plan of branches answers requests if its branches answer in full. -/
theorem answers_of_branches (hplan : plan.Resolved settings source)
    (h : plan.branches? settings = some (output, branches))
    (hbranches : ∀ branch ∈ branches, branch.AnswersInFull settings n) :
    plan.AnswersRequests settings (n + 1) ∧ plan.AnswersInFull settings (n + 1) := by
  have hwf := hplan.wellFormed
  obtain ⟨houtput, -, hwidth⟩ := hwf.branches output branches h
  have heq := output_of_branches h
  obtain ⟨answers, hanswers⟩ := exists_forall₂ hbranches
  obtain ⟨hkeys, hcolumn⟩ :=
    accountsFor_ofBranches hplan h (hanswers.imp fun _ _ hanswer => hanswer.2)
  have hstep : ∀ {request m : LineageMap},
      (request.join (Lineage.ofBranches output answers)).result = .ok m →
      (Lineage.extractWithin settings (n + 1) plan request).result = .ok m := by
    intro request m hm
    refine step_of_branches h houtput (hanswers.imp fun _ _ hanswer => hanswer.1) ?_ hm
    intro answer hanswer
    obtain ⟨branch, hbranch, -, hkeys, -⟩ := exists_left_of_forall₂ hanswers hanswer
    rw [← hwidth branch hbranch, ← hkeys, OrderedMap.length_keys]
  constructor
  · intro request hasked haskable
    refine ⟨request.resolveAll (Lineage.ofBranches output answers), hstep ?_, ?_⟩
    · refine LineageMap.result_join_of_resolvable fun entry hentry a ha => Or.inr ?_
      have hplain := (haskable entry hentry).plain a ha
      exact ⟨Attribute.isNamed_of_isPlain hplain, Attribute.isCountMarker_of_isPlain hplain⟩
    · intro entry hentry
      have hask := haskable entry hentry
      rw [LineageMap.sourcesOf_resolveAll hasked _ hentry]
      refine AccountsFor.ofList source (.flatMap fun d hd => ?_) ?_
      · exact accountsFor_resolve_of_branches hwf h hkeys (hcolumn true) hask hd
      · rintro x ⟨d, hd, hgives⟩
        exact hgives.eq_source hplan (hask.plain d hd)
  · refine ⟨_, hstep (LineageMap.result_join_of_isEmpty rfl _), hkeys.trans heq.symm, ?_⟩
    exact fun a ha => hcolumn false a (heq ▸ ha)

end Plan

end ColumnTrace
