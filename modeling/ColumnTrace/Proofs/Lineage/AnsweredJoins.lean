import ColumnTrace.Proofs.Lineage.Agreement
import ColumnTrace.Proofs.Lineage.PassedRequests

/-!
# Tables, single rows and joins answer requests

A table answers for its columns under its name and drops the others. The single row of a query
without tables hands every column back. Operators that hand a request on answer as their child does,
and a join puts the answers of both sides together: what a side gives for the columns of the other
is what strays (`Plan.answers_of_exposing`).
-/

set_option autoImplicit false

namespace ColumnTrace

open Traced

/-- Keys that are not in the first map follow its keys. -/
theorem LineageMap.keys_merge_of_disjoint {left right : LineageMap}
    (h : ∀ key ∈ right.keys, key ∉ left.keys) :
    (left.merge right).keys = left.keys ++ right.keys := by
  rw [keys_merge]
  refine eraseDups_of_nodup (List.nodup_append.2 ⟨left.nodup_keys, right.nodup_keys, ?_⟩)
  rintro a ha b hb rfl
  exact h a hb ha

namespace Plan

variable {settings : Settings} {source : Int → Attribute} {plan child left right : Plan} {n : Nat}
variable {output : List Attribute} {qualifier : List String} {type : JoinType}
variable {condition : Option Expr}

/-! ## Tables -/

/-- A table answers a request under its qualifier. -/
theorem step_of_table {below : Lineage.Below} {parent : LineageMap}
    (h : plan.table? settings = some (output, qualifier)) :
    Lineage.step settings below plan parent = parent.ofRelation output qualifier := by
  cases table?_eq_some_iff.1 h with
  | relation output table => exact Lineage.step_relation output table
  | localRelation => rfl
  | view hskip => exact Lineage.step_view_skipped hskip
  | cached hlink => exact Lineage.step_cached_unlinked hlink

/-- A table knows its own columns only. -/
theorem columnIds_of_table (h : plan.table? settings = some (output, qualifier)) :
    plan.columnIds = output.map Attribute.id := by
  cases table?_eq_some_iff.1 h <;> rfl

/-- A table hands back what it would answer without columns of its own. -/
theorem handedBack?_of_table (h : plan.table? settings = some (output, qualifier))
    (a : Attribute) : plan.handedBack? settings a = LineageMap.answer? [] qualifier a := by
  cases table?_eq_some_iff.1 h with
  | relation | localRelation => rfl
  | view hskip => rw [handedBack?, if_pos hskip]
  | cached hlink => simp only [handedBack?, hlink]

/-- Nothing below feeds a table. -/
theorem not_feeds_of_table (h : plan.table? settings = some (output, qualifier))
    {a r : Attribute} {below : Plan} : ¬ plan.Feeds settings a below r := by
  intro hfeeds
  cases hfeeds with
  | item hlist =>
    rw [table?_of_selectList hlist] at h
    cases h
  | branch hbranches =>
    rw [table?_of_branches hbranches] at h
    cases h
  | _ => cases h

/-- A table brings for its column the column under its qualifier. -/
theorem brings_of_table (h : plan.table? settings = some (output, qualifier)) {asked : Bool}
    {a e : Attribute} : plan.Brings settings asked a e ↔
      a ∈ output ∧ e = a.withQualifier qualifier := by
  rw [brings_iff, h]
  constructor
  · rintro (⟨_, _, heq, ha, he⟩ | ⟨_, _, hfeeds, -⟩ | ⟨-, hhands⟩)
    · cases heq
      exact ⟨ha, he⟩
    · exact absurd hfeeds (not_feeds_of_table h)
    · cases hhands <;> cases h
  · rintro ⟨ha, he⟩
    exact Or.inl ⟨_, _, rfl, ha, he⟩

/-- A table gives for a column what it answers for it. -/
theorem gives_of_table (hplan : plan.WellFormed settings source)
    (h : plan.table? settings = some (output, qualifier)) {d e : Attribute}
    (hd : d ∈ plan.output ∨ d.id ∉ plan.columnIds) :
    plan.Gives settings d e ↔ LineageMap.answer? output qualifier d = some e := by
  have houtput := output_of_table h
  rcases hd with hown | hunknown
  · rw [gives_of_mem_output hplan hown, brings_of_table h]
    have hany : output.any (·.id == d.id) = true :=
      List.any_eq_true.2 ⟨d, houtput ▸ hown, by simp⟩
    rw [LineageMap.answer?, if_pos hany, Option.some.injEq, eq_comm]
    exact and_iff_right (houtput ▸ hown)
  · have hforeign : ∀ key ∈ output, key.id ≠ d.id := by
      intro key hkey heq
      rw [columnIds_of_table h, ← heq] at hunknown
      exact hunknown (List.mem_map_of_mem hkey)
    rw [gives_of_unknown hplan hunknown, handedBack?_of_table h,
      LineageMap.answer?_of_unknown hforeign]

/-- A table answers requests. -/
theorem answers_of_table (hplan : plan.Resolved settings source)
    (h : plan.table? settings = some (output, qualifier)) :
    plan.AnswersRequests settings (n + 1) ∧ plan.AnswersInFull settings (n + 1) := by
  have hwf := hplan.wellFormed
  have houtput := output_of_table h
  constructor
  · intro request hasked haskable
    refine ⟨request.answerOf output qualifier, ?_, fun entry hentry => ?_⟩
    · rw [Lineage.extractWithin, step_of_table h]
      exact Lineage.result_ofRelation_of_named fun entry hentry a ha =>
        Attribute.isNamed_of_isPlain ((haskable entry hentry).plain a ha)
    · have hask := haskable entry hentry
      rw [LineageMap.answerOf, hasked, if_neg Bool.false_ne_true,
        LineageMap.sourcesOf_mapValues _ hentry]
      refine AccountsFor.ofList source (.of_mem_iff fun x => ?_) ?_
      · rw [List.mem_filterMap]
        refine exists_congr fun d => and_congr_right fun hd => ?_
        exact (gives_of_table hwf h (hask.own_or_unknown d hd)).symm
      · rintro x ⟨d, hd, hgives⟩
        exact hgives.eq_source hplan (hask.plain d hd)
  · have hnodup : output.Nodup := houtput ▸ LineageMap.nodup_of_nodup_ids hwf.nodup_ids
    have hentries : (LineageMap.answerOf ∅ output qualifier).entries =
        output.map fun a => (a, AttributeSet.singleton (a.withQualifier qualifier)) := by
      rw [LineageMap.answerOf, if_pos OrderedMap.isEmpty_empty,
        OrderedMap.entries_ofList_of_nodup]
      simpa [Function.comp_def] using hnodup
    refine ⟨LineageMap.answerOf ∅ output qualifier, ?_, ?_, fun a ha => ?_⟩
    · rw [Lineage.extractWithin, step_of_table h]
      rfl
    · rw [OrderedMap.keys, hentries, List.map_map, houtput]
      exact List.map_id' _
    · rw [houtput] at ha
      have hentry : (a, AttributeSet.singleton (a.withQualifier qualifier)) ∈
          (LineageMap.answerOf ∅ output qualifier).entries := by
        rw [hentries]
        exact List.mem_map.2 ⟨a, ha, rfl⟩
      rw [LineageMap.sourcesOf_of_mem hentry]
      refine .of_mem_iff fun x => ?_
      rw [brings_of_table h, and_iff_right ha]
      exact List.mem_singleton

/-! ## Single rows -/

/-- The row of a query without tables hands every column back. -/
theorem answers_of_oneRow :
    Plan.oneRow.AnswersRequests settings (n + 1) ∧
      Plan.oneRow.AnswersInFull settings (n + 1) := by
  constructor
  · intro request _ haskable
    refine ⟨_, rfl, fun entry hentry => ?_⟩
    have hplain := (haskable entry hentry).plain
    have hself : (entry.2.attrs.map fun a => if a.isSubqueryMarked then a.dropLastSegment else a) =
        entry.2.attrs := by
      refine (List.map_congr_left fun a ha => ?_).trans (List.map_id' _)
      rw [Attribute.isSubqueryMarked_of_isPlain (hplain a ha), if_neg Bool.false_ne_true]
    rw [Lineage.ofOneRow, LineageMap.sourcesOf_mapValues _ hentry, hself,
      AttributeSet.ofList_attrs]
    refine .of_mem_iff fun x => ⟨fun hx => ⟨x, hx, Or.inr ⟨List.not_mem_nil, ?_⟩⟩, ?_⟩
    · rw [handedBack?, Attribute.isSubqueryMarked_of_isPlain (hplain x hx),
        if_neg Bool.false_ne_true]
    · rintro ⟨d, hd, ⟨hmem, -⟩ | ⟨-, hback⟩⟩
      · cases hmem
      · rw [eq_of_handedBack?_of_isPlain (hplain d hd) _ hback]
        exact hd
  · exact ⟨∅, rfl, rfl, fun a ha => absurd ha List.not_mem_nil⟩

/-! ## Operators that hand a request on -/

/-- A plan that hands requests on as they are, and has the columns of its child, answers as the
child does. -/
theorem answers_of_handOn
    (hstep : ∀ request, (Lineage.extractWithin settings (n + 1) plan request).result =
      (Lineage.extractWithin settings n child request).result)
    (houtput : plan.output = child.output)
    (hids : ∀ id, id ∈ plan.columnIds ↔ id ∈ child.columnIds)
    (hback : ∀ a, plan.handedBack? settings a = child.handedBack? settings a)
    (hbrings : ∀ asked, ∀ a ∈ plan.output, ∀ e,
      plan.Brings settings asked a e ↔ child.Brings settings asked a e)
    (hanswers : child.AnswersRequests settings n ∧ child.AnswersInFull settings n) :
    plan.AnswersRequests settings (n + 1) ∧ plan.AnswersInFull settings (n + 1) := by
  obtain ⟨hrequests, m, hm, hkeys, haccounts⟩ := hanswers
  constructor
  · intro request hasked haskable
    obtain ⟨m, hm, haccounts⟩ := hrequests request hasked fun entry hentry =>
      { plain := (haskable entry hentry).plain
        own_or_unknown := fun d hd => by
          rw [← houtput, ← hids]
          exact (haskable entry hentry).own_or_unknown d hd
        key := fun hmem => (haskable entry hentry).key ((hids _).2 hmem) }
    refine ⟨m, (hstep request).trans hm, fun entry hentry => ?_⟩
    refine (haccounts entry hentry).congr fun e => exists_congr fun d => and_congr_right fun _ => ?_
    rw [Gives, Gives, houtput, hids, hback]
    refine or_congr (and_congr_right fun hd => ?_) Iff.rfl
    exact (hbrings true d (houtput ▸ hd) e).symm
  · refine ⟨m, (hstep ∅).trans hm, hkeys.trans houtput.symm, fun a ha => ?_⟩
    exact (haccounts a (houtput ▸ ha)).congr fun e => (hbrings false a ha e).symm

/-- A join that hides its right side answers as its left side does. -/
theorem answers_of_semijoin (hhides : type.exposesRight = false)
    (hanswers : left.AnswersRequests settings n ∧ left.AnswersInFull settings n) :
    (Plan.join left right type condition).AnswersRequests settings (n + 1) ∧
      (Plan.join left right type condition).AnswersInFull settings (n + 1) := by
  have houtput : (Plan.join left right type condition).output = left.output := by
    rw [Plan.output, hhides, if_neg Bool.false_ne_true]
  refine answers_of_handOn (fun request => ?_) houtput (fun id => ?_) (fun a => ?_) ?_ hanswers
  · rw [Lineage.extractWithin, Lineage.step_semijoin hhides]
  · rw [columnIds, hhides, if_neg Bool.false_ne_true]
  · rw [handedBack?, hhides, if_neg Bool.false_ne_true]
  · intro asked a ha e
    rw [houtput] at ha
    rw [brings_iff]
    constructor
    · rintro (⟨_, _, htable, -⟩ | ⟨_, _, hfeeds, hbrings⟩ | ⟨-, hhands⟩)
      · cases htable
      · cases hfeeds with
        | item hlist => cases hlist
        | branch hbranches => cases hbranches
        | left _ => exact hbrings
        | right hexposes =>
          rw [hhides] at hexposes
          cases hexposes
      · cases hhands with
        | fromRight hexposes =>
          rw [hhides] at hexposes
          cases hexposes
        | fromLeft hexposes =>
          rw [hhides] at hexposes
          cases hexposes
    · exact fun hbrings => Or.inr (Or.inl ⟨left, a, .left ha, hbrings⟩)

/-- An operator without a rule of its own answers as its only child does. -/
theorem answers_of_operator {name : String}
    (hplan : (Plan.operator name [child] output).Resolved settings source)
    (hanswers : child.AnswersRequests settings n ∧ child.AnswersInFull settings n) :
    (Plan.operator name [child] output).AnswersRequests settings (n + 1) ∧
      (Plan.operator name [child] output).AnswersInFull settings (n + 1) := by
  have hwf := hplan.wellFormed
  have hbelow : child ∈ (Plan.operator name [child] output).tracedBelow settings :=
    List.mem_cons_self
  have hchild := (hplan.of_traced hbelow).wellFormed
  have houtput : output = child.output := hwf.operator _ _ _ rfl
  refine answers_of_handOn (fun request => ?_) houtput (fun id => ?_) (fun a => rfl) ?_ hanswers
  · rw [Lineage.extractWithin, Lineage.step_operator]
  · have hcolumnIds : (Plan.operator name [child] output).columnIds =
        output.map Attribute.id ++ (child.columnIds ++ []) := rfl
    rw [hcolumnIds, List.append_nil, List.mem_append, houtput, or_iff_right_iff_imp]
    intro hid
    obtain ⟨a, ha, rfl⟩ := List.mem_map.1 hid
    exact hchild.id_mem_columnIds ha
  · intro asked a ha e
    rw [brings_iff]
    constructor
    · rintro (⟨_, _, htable, -⟩ | ⟨_, _, hfeeds, hbrings⟩ | ⟨-, hhands⟩)
      · cases htable
      · cases hfeeds with
        | item hlist => cases hlist
        | branch hbranches => cases hbranches
        | same _ => exact hbrings
      · cases hhands
    · exact fun hbrings => Or.inr (Or.inl ⟨child, a, .same ha, hbrings⟩)

/-! ## Joins that have the columns of both sides -/

/-- A join has the columns of both sides. -/
theorem mem_output_of_exposing (hexposes : type.exposesRight = true) {a : Attribute} :
    a ∈ (Plan.join left right type condition).output ↔ a ∈ left.output ∨ a ∈ right.output := by
  rw [Plan.output, if_pos hexposes, List.mem_append]

/-- A join knows what one of its sides knows. -/
theorem mem_columnIds_of_exposing (hexposes : type.exposesRight = true) {id : Int} :
    id ∈ (Plan.join left right type condition).columnIds ↔
      id ∈ left.columnIds ∨ id ∈ right.columnIds := by
  rw [columnIds, if_pos hexposes, List.mem_append]

/-- A join brings what a side brings for its own columns; where it is asked, also what the other
side hands back. -/
theorem brings_of_exposing (hexposes : type.exposesRight = true) {asked : Bool}
    {a e : Attribute} : (Plan.join left right type condition).Brings settings asked a e ↔
      (a ∈ left.output ∧ (left.Brings settings asked a e ∨
        (asked = true ∧ right.handedBack? settings a = some e))) ∨
      (a ∈ right.output ∧ (right.Brings settings asked a e ∨
        (asked = true ∧ left.handedBack? settings a = some e))) := by
  rw [brings_iff]
  constructor
  · rintro (⟨_, _, htable, -⟩ | ⟨_, _, hfeeds, hbrings⟩ | ⟨hasked, hhands⟩)
    · cases htable
    · cases hfeeds with
      | item hlist => cases hlist
      | branch hbranches => cases hbranches
      | left ha => exact Or.inl ⟨ha, Or.inl hbrings⟩
      | right _ ha => exact Or.inr ⟨ha, Or.inl hbrings⟩
    · cases hhands with
      | fromRight _ ha hback => exact Or.inl ⟨ha, Or.inr ⟨hasked, hback⟩⟩
      | fromLeft _ ha hback => exact Or.inr ⟨ha, Or.inr ⟨hasked, hback⟩⟩
  · rintro (⟨ha, hbrings | ⟨hasked, hback⟩⟩ | ⟨ha, hbrings | ⟨hasked, hback⟩⟩)
    · exact Or.inr (Or.inl ⟨left, a, .left ha, hbrings⟩)
    · exact Or.inr (Or.inr ⟨hasked, .fromRight hexposes ha hback⟩)
    · exact Or.inr (Or.inl ⟨right, a, .right hexposes ha, hbrings⟩)
    · exact Or.inr (Or.inr ⟨hasked, .fromLeft hexposes ha hback⟩)

section
variable (hplan : (Plan.join left right type condition).Resolved settings source)
variable (hexposes : type.exposesRight = true)

include hplan hexposes

theorem resolved_sides : left.Resolved settings source ∧ right.Resolved settings source :=
  ⟨hplan.of_traced left_mem_tracedBelow, hplan.of_traced (right_mem_tracedBelow hexposes)⟩

/-- What a join gives for a column is what its sides give for it. -/
theorem gives_of_exposing {d e : Attribute} (hplain : d.isPlain = true)
    (hd : d ∈ (Plan.join left right type condition).output ∨
      d.id ∉ (Plan.join left right type condition).columnIds) :
    (Plan.join left right type condition).Gives settings d e ↔
      right.Gives settings d e ∨ left.Gives settings d e := by
  obtain ⟨hleft, hright⟩ := resolved_sides hplan hexposes
  have hwf := hplan.wellFormed
  have hdisjoint := hwf.join _ _ _ _ rfl hexposes
  -- a column of one side is unknown to the other
  have hunknownRight : d ∈ left.output → d.id ∉ right.columnIds :=
    fun hmem => hdisjoint _ (hleft.wellFormed.id_mem_columnIds hmem)
  have hunknownLeft : d ∈ right.output → d.id ∉ left.columnIds :=
    fun hmem hknown => hdisjoint _ hknown (hright.wellFormed.id_mem_columnIds hmem)
  rcases hd with hown | hunknown
  · rw [gives_of_mem_output hwf hown, brings_of_exposing hexposes]
    rcases (mem_output_of_exposing hexposes).1 hown with hmem | hmem
    · have hnot : d ∉ right.output :=
        fun hother => hunknownRight hmem (hright.wellFormed.id_mem_columnIds hother)
      rw [gives_of_unknown hright.wellFormed (hunknownRight hmem),
        gives_of_mem_output hleft.wellFormed hmem]
      simp [hmem, hnot, or_comm]
    · have hnot : d ∉ left.output :=
        fun hother => hunknownLeft hmem (hleft.wellFormed.id_mem_columnIds hother)
      rw [gives_of_unknown hleft.wellFormed (hunknownLeft hmem),
        gives_of_mem_output hright.wellFormed hmem]
      simp [hmem, hnot]
  · have hsides := hunknown
    rw [mem_columnIds_of_exposing hexposes, not_or] at hsides
    rw [gives_of_unknown hwf hunknown, gives_of_unknown hleft.wellFormed hsides.1,
      gives_of_unknown hright.wellFormed hsides.2, handedBack?, if_pos hexposes]
    constructor
    · intro hback
      rcases prefer_eq_or (right.handedBack? settings d) (left.handedBack? settings d) with hp | hp
      · exact Or.inl (hp ▸ hback)
      · exact Or.inr (hp ▸ hback)
    · rintro (hback | hback)
      · obtain rfl := eq_of_handedBack?_of_isPlain hplain _ hback
        rw [hback]
        cases hother : left.handedBack? settings e with
        | none => rfl
        | some f =>
          obtain rfl := eq_of_handedBack?_of_isPlain hplain _ hother
          exact prefer_eq_left_iff.2 (Or.inl rfl)
      · obtain rfl := eq_of_handedBack?_of_isPlain hplain _ hback
        rw [hback]
        cases hother : right.handedBack? settings e with
        | none => rfl
        | some f =>
          obtain rfl := eq_of_handedBack?_of_isPlain hplain _ hother
          exact prefer_eq_left_iff.2 (Or.inl rfl)

/-- What may be asked of a join may be asked of both sides. -/
theorem askable_sides {entry : Attribute × AttributeSet}
    (hentry : (Plan.join left right type condition).Askable entry) :
    left.Askable entry ∧ right.Askable entry := by
  obtain ⟨hleft, hright⟩ := resolved_sides hplan hexposes
  have hdisjoint := hplan.wellFormed.join _ _ _ _ rfl hexposes
  have hknown : ∀ {id}, id ∈ left.columnIds ∨ id ∈ right.columnIds →
      id ∈ (Plan.join left right type condition).columnIds :=
    (mem_columnIds_of_exposing hexposes).2
  constructor
  · refine ⟨hentry.plain, fun d hd => ?_, fun hmem => hentry.key (hknown (Or.inl hmem))⟩
    rcases hentry.own_or_unknown d hd with hown | hunknown
    · refine ((mem_output_of_exposing hexposes).1 hown).imp_right fun hmem hother => ?_
      exact hdisjoint _ hother (hright.wellFormed.id_mem_columnIds hmem)
    · exact Or.inr fun hmem => hunknown (hknown (Or.inl hmem))
  · refine ⟨hentry.plain, fun d hd => ?_, fun hmem => hentry.key (hknown (Or.inr hmem))⟩
    rcases hentry.own_or_unknown d hd with hown | hunknown
    · refine ((mem_output_of_exposing hexposes).1 hown).symm.imp_right fun hmem => ?_
      exact hdisjoint _ (hleft.wellFormed.id_mem_columnIds hmem)
    · exact Or.inr fun hmem => hunknown (hknown (Or.inr hmem))

/-- A join answers with what both sides give: what a side gives for a column of the other comes on
top. -/
theorem answers_of_exposing
    (hanswersLeft : left.AnswersRequests settings n ∧ left.AnswersInFull settings n)
    (hanswersRight : right.AnswersRequests settings n ∧ right.AnswersInFull settings n) :
    (Plan.join left right type condition).AnswersRequests settings (n + 1) ∧
      (Plan.join left right type condition).AnswersInFull settings (n + 1) := by
  obtain ⟨hleft, hright⟩ := resolved_sides hplan hexposes
  have hstep : ∀ {request l r : LineageMap},
      (Lineage.extractWithin settings n left request).result = .ok l →
      (Lineage.extractWithin settings n right request).result = .ok r →
      (Lineage.extractWithin settings (n + 1) (.join left right type condition)
        request).result = .ok (l.merge r) :=
    fun hl hr => (Lineage.step_join hexposes).2 ⟨_, _, hl, hr, rfl⟩
  obtain ⟨hrequestsLeft, l, hl, hlkeys, hlaccounts⟩ := hanswersLeft
  obtain ⟨hrequestsRight, r, hr, hrkeys, hraccounts⟩ := hanswersRight
  constructor
  · intro request hasked haskable
    obtain ⟨l, hl, hlaccounts⟩ := hrequestsLeft request hasked fun entry hentry =>
      (askable_sides hplan hexposes (haskable entry hentry)).1
    obtain ⟨r, hr, hraccounts⟩ := hrequestsRight request hasked fun entry hentry =>
      (askable_sides hplan hexposes (haskable entry hentry)).2
    refine ⟨l.merge r, hstep hl hr, fun entry hentry => ?_⟩
    have hask := haskable entry hentry
    -- every column asked for is one of the join's or unknown to it, so the sides give it together
    have hiff : ∀ e, ((∃ d ∈ entry.2.attrs, right.Gives settings d e) ∨
          ∃ d ∈ entry.2.attrs, left.Gives settings d e) ↔
        ∃ d ∈ entry.2.attrs, (Plan.join left right type condition).Gives settings d e := by
      intro e
      rw [← exists_or]
      refine exists_congr fun d => ?_
      rw [← and_or_left]
      exact and_congr_right fun hd =>
        (gives_of_exposing hplan hexposes (hask.plain d hd) (hask.own_or_unknown d hd)).symm
    rw [LineageMap.sourcesOf_merge]
    refine AccountsFor.congr
      (AccountsFor.union source (hraccounts entry hentry) (hlaccounts entry hentry) ?_) hiff
    intro e he hqualified
    obtain ⟨d, hd, hgives⟩ := (hiff e).1 he
    exact hgives.eq_source hplan (hask.plain d hd) hqualified
  · have hdisjoint : ∀ {a}, a ∈ left.output → a ∉ right.output := fun hmem hother =>
      hplan.wellFormed.join _ _ _ _ rfl hexposes _ (hleft.wellFormed.id_mem_columnIds hmem)
        (hright.wellFormed.id_mem_columnIds hother)
    refine ⟨l.merge r, hstep hl hr, ?_, fun a ha => ?_⟩
    · rw [LineageMap.keys_merge_of_disjoint, hlkeys, hrkeys, Plan.output, if_pos hexposes]
      rw [hlkeys, hrkeys]
      exact fun a hmem hother => hdisjoint hother hmem
    · rw [LineageMap.sourcesOf_merge]
      rcases (mem_output_of_exposing hexposes).1 ha with hmem | hmem
      · have hnot := hdisjoint hmem
        rw [LineageMap.sourcesOf_of_not_mem (m := r) (by rwa [hrkeys]), AttributeSet.empty_union]
        refine (hlaccounts a hmem).congr fun e => ?_
        rw [brings_of_exposing hexposes]
        simp [hmem, hnot]
      · have hnot : a ∉ left.output := fun hother => hdisjoint hother hmem
        rw [LineageMap.sourcesOf_of_not_mem (m := l) (by rwa [hlkeys]), AttributeSet.union_empty]
        refine (hraccounts a hmem).congr fun e => ?_
        rw [brings_of_exposing hexposes]
        simp [hmem, hnot]

end

end Plan

end ColumnTrace
