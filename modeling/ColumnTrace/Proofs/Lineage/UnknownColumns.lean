import ColumnTrace.Proofs.Lineage.QuerySteps

/-!
# Columns that a query does not know

The answer of a query has the columns of the request (`keys_of_request`); an empty request brings
columns whose identities the plan knows (`id_mem_columnIds`). A column of the request that depends
on identities unknown to the plan only is answered by what the plan hands back of them
(`find?_sourcesOf_unknown`, `mem_sourcesOf_unknown`), whatever else is asked and whatever stands in
the plan's expressions.
-/

set_option autoImplicit false

namespace ColumnTrace

namespace AttributeSet

/-- What is found in a set that is changed attribute by attribute, where identities stay. -/
theorem find?_ofList_filterMap (s : AttributeSet) {f : Attribute → Option Attribute}
    (hid : ∀ a b, f a = some b → b.id = a.id) (id : Int) :
    (ofList (s.attrs.filterMap f)).find? id = (s.find? id).bind f := by
  have hnodup : ((s.attrs.filterMap f).map Attribute.id).Nodup := by
    have hsub : ∀ attrs : List Attribute,
        ((attrs.filterMap f).map Attribute.id).Sublist (attrs.map Attribute.id) := by
      intro attrs
      induction attrs with
      | nil => exact List.Sublist.refl _
      | cons a rest ih =>
        cases hfa : f a with
        | none =>
          rw [List.filterMap_cons_none hfa]
          exact ih.cons _
        | some b =>
          rw [List.filterMap_cons_some hfa, List.map_cons, List.map_cons, hid a b hfa]
          exact ih.cons_cons _
    exact s.nodup_ids.sublist (hsub s.attrs)
  ext b
  rw [find?_eq_some_iff, attrs_ofList_of_nodup hnodup, List.mem_filterMap,
    Option.bind_eq_some_iff]
  constructor
  · rintro ⟨⟨a, ha, hfa⟩, rfl⟩
    exact ⟨a, find?_eq_some_iff.2 ⟨ha, (hid a b hfa).symm⟩, hfa⟩
  · rintro ⟨a, ha, hfa⟩
    obtain ⟨hmem, rfl⟩ := find?_eq_some_iff.1 ha
    exact ⟨⟨a, hmem, hfa⟩, hid a b hfa⟩

end AttributeSet

/-- What is kept has its identity. -/
theorem Attribute.id_of_uncounted? {a b : Attribute} (h : a.uncounted? = some b) :
    b.id = a.id := by
  rw [(Attribute.uncounted?_eq_some_iff.1 h).2]

namespace LineageMap

/-- A table answers for a column under its identity. -/
theorem id_of_answer? {output : List Attribute} {qualifier : List String} {a b : Attribute}
    (h : answer? output qualifier a = some b) : b.id = a.id := by
  simp only [answer?] at h
  split at h
  · exact Option.some.inj h ▸ rfl
  · split at h
    · exact Option.some.inj h ▸ rfl
    · split at h
      · exact Option.some.inj h ▸ rfl
      · split at h
        · exact Option.some.inj h ▸ rfl
        · cases h

/-- A column that is none of a table's columns is answered as if the table had none. -/
theorem answer?_of_unknown {output : List Attribute} {a : Attribute}
    (h : ∀ key ∈ output, key.id ≠ a.id) (qualifier : List String) :
    answer? output qualifier a = answer? [] qualifier a := by
  have hany : output.any (·.id == a.id) = false := by
    rw [List.any_eq_false]
    intro key hkey
    simpa using h key hkey
  rw [answer?, answer?, hany]
  rfl

/-- Resolving leaves a column that nothing below knows as it is, the marker of rows apart. -/
theorem flatMap_resolve_of_unknown {child : LineageMap} {attrs : List Attribute}
    (h : ∀ a ∈ attrs, child.byId? a.id = none) :
    attrs.flatMap child.resolve = attrs.filterMap Attribute.uncounted? := by
  induction attrs with
  | nil => rfl
  | cons a rest ih =>
    rw [List.flatMap_cons, ih fun b hb => h b (List.mem_cons_of_mem a hb),
      resolve_of_unknown (h a List.mem_cons_self), List.filterMap_cons, Attribute.uncounted?]
    cases a.isCountMarker <;> rfl

/-- What is found under an identity after a request has been resolved, where nothing below knows the
column's dependencies. -/
theorem find?_sourcesOf_join_of_unknown {parent child m : LineageMap}
    (hm : (parent.join child).result = .ok m) {entry : Attribute × AttributeSet}
    (hentry : entry ∈ parent.entries) (h : ∀ a ∈ entry.2.attrs, child.byId? a.id = none)
    (id : Int) :
    (m.sourcesOf entry.1).find? id = (entry.2.find? id).bind Attribute.uncounted? := by
  have hne := OrderedMap.isEmpty_eq_false_of_mem hentry
  rw [eq_resolveAll_of_join hm, sourcesOf_resolveAll hne child hentry,
    flatMap_resolve_of_unknown h,
    AttributeSet.find?_ofList_filterMap _ fun _ _ => Attribute.id_of_uncounted?]

end LineageMap

/-- The plan knows neither the column nor anything that the column depends on. -/
structure Plan.KnowsNothingOf (plan : Plan) (entry : Attribute × AttributeSet) : Prop where
  key : entry.1.id ∉ plan.columnIds
  dependencies : ∀ a ∈ entry.2.attrs, a.id ∉ plan.columnIds

section
variable {plan child : Plan} {request computed inner : LineageMap}
variable {entry : Attribute × AttributeSet}

/-- A plan below that knows less knows nothing of it either. -/
theorem Plan.KnowsNothingOf.mono (h : plan.KnowsNothingOf entry)
    (hids : child.columnIds ⊆ plan.columnIds) : child.KnowsNothingOf entry where
  key hmem := h.key (hids hmem)
  dependencies a ha hmem := h.dependencies a ha (hids hmem)

/-- What the plan computes is nothing that the column depends on. -/
theorem Plan.KnowsNothingOf.byId?_eq_none (h : plan.KnowsNothingOf entry)
    (hkeys : ∀ key ∈ computed.keys, key.id ∈ plan.columnIds) :
    ∀ a ∈ entry.2.attrs, computed.byId? a.id = none := by
  intro a ha
  rw [LineageMap.byId?_eq_none_iff]
  exact fun key hmem heq => h.dependencies a ha (heq ▸ hkeys key hmem)

/-- Resolving brings in no identity that the plan knows. -/
theorem Plan.KnowsNothingOf.of_join (h : plan.KnowsNothingOf entry)
    (hentry : entry ∈ request.entries) (hkeys : ∀ key ∈ computed.keys, key.id ∈ plan.columnIds)
    (hjoin : (request.join computed).result = .ok inner) :
    plan.KnowsNothingOf (entry.1, inner.sourcesOf entry.1) where
  key := h.key
  dependencies a ha hmem := by
    have hfound := LineageMap.find?_sourcesOf_join_of_unknown hjoin hentry
      (h.byId?_eq_none hkeys) a.id
    rw [AttributeSet.find?_of_mem ha, eq_comm, Option.bind_eq_some_iff] at hfound
    obtain ⟨b, hb, -⟩ := hfound
    obtain ⟨hb, hid⟩ := AttributeSet.find?_eq_some_iff.1 hb
    exact h.dependencies b hb (hid ▸ hmem)

end

namespace Lineage

open Traced

variable {settings : Settings}

/-! ## The columns of an answer -/

/-- A request that is not empty keeps its columns. -/
theorem keys_of_join {parent child m : LineageMap} (h : parent.isEmpty = false)
    (hm : (parent.join child).result = .ok m) : m.keys = parent.keys := by
  rw [LineageMap.eq_resolveAll_of_join hm, LineageMap.keys_resolveAll h]

/-- The answer of a query has the columns of the request, in its order. -/
theorem keys_of_request (n : Nat) : ∀ {plan : Plan} {request m : LineageMap},
    plan.isQuery = true → request.isEmpty = false →
    (extractWithin settings n plan request).result = .ok m → m.keys = request.keys := by
  induction n with
  | zero => intro plan request m _ _ hm; cases hm
  | succ n ih =>
    intro plan request m hquery hne hm
    -- a request that keeps its columns on the way down keeps them on the way up
    have hpass : ∀ {child : Plan} {inner : LineageMap}, child.isQuery = true →
        inner.keys = request.keys → (extractWithin settings n child inner).result = .ok m →
        m.keys = request.keys := by
      intro child inner hchild hkeys hinner
      rw [ih hchild ((OrderedMap.isEmpty_eq_of_keys_eq hkeys).trans hne) hinner, hkeys]
    cases queryStep_of_ok hquery hm with
    | through child computed inner hchild _ _ _ hjoin hm =>
      exact hpass hchild (keys_of_join hne hjoin) hm
    | window functions child hchild _ _ _ _ hm =>
      exact hpass hchild (keys_windowRequest hne) hm
    | handOn child hchild _ _ hm => exact ih hchild hne hm
    | both left right l r hleft hright _ _ _ hl hr hmerge =>
      have hlkeys := ih hleft hne hl
      have hrkeys := ih hright hne hr
      rw [hmerge, LineageMap.keys_merge_of_keys_eq (hrkeys.trans hlkeys.symm), hlkeys]
    | own computed _ _ hjoin => exact keys_of_join hne hjoin
    | gathered branches answers _ _ _ _ hjoin => exact keys_of_join hne hjoin
    | table output qualifier _ _ hm => rw [eq_answerOf_of_ofRelation hm, keys_answerOf hne]
    | oneRow _ hm => rw [hm, ofOneRow, OrderedMap.keys_mapValues]

/-- An empty request brings columns whose identities the plan knows. -/
theorem id_mem_columnIds (n : Nat) : ∀ {plan : Plan} {request m : LineageMap},
    plan.isQuery = true → request.isEmpty = true →
    (extractWithin settings n plan request).result = .ok m →
    ∀ key ∈ m.keys, key.id ∈ plan.columnIds := by
  induction n with
  | zero => intro plan request m _ _ hm; cases hm
  | succ n ih =>
    intro plan request m hquery hempty hm key hkey
    -- the child is asked for columns that the plan knows, or for all that it has
    have hpass : ∀ {child : Plan} {inner : LineageMap}, child.isQuery = true →
        child.columnIds ⊆ plan.columnIds → (∀ key ∈ inner.keys, key.id ∈ plan.columnIds) →
        (extractWithin settings n child inner).result = .ok m → key.id ∈ plan.columnIds := by
      intro child inner hchild hids hkeys hinner
      cases hne : inner.isEmpty with
      | true => exact hids (ih hchild hne hinner key hkey)
      | false => exact hkeys key (keys_of_request n hchild hne hinner ▸ hkey)
    have hcomputed : ∀ {computed answer : LineageMap},
        (request.join computed).result = .ok answer → answer = computed := by
      intro computed answer hjoin
      rw [LineageMap.eq_resolveAll_of_join hjoin, LineageMap.resolveAll_of_isEmpty hempty]
    cases queryStep_of_ok hquery hm with
    | through child computed inner hchild hkeys hids _ hjoin hm =>
      rw [hcomputed hjoin] at hm
      exact hpass hchild hids hkeys hm
    | window functions child hchild hkeys houtput hids _ hm =>
      refine hpass hchild hids ?_ hm
      intro key hkey
      exact ((mem_keys_windowRequest_of_isEmpty hempty).1 hkey).elim (houtput key) (hkeys key)
    | handOn child hchild hids _ hm => exact hids (ih hchild hempty hm key hkey)
    | both left right l r hleft hright hleftIds hrightIds _ hl hr hmerge =>
      rw [hmerge, LineageMap.mem_keys_merge] at hkey
      rcases hkey with hkey | hkey
      · exact hleftIds (ih hleft hempty hl key hkey)
      · exact hrightIds (ih hright hempty hr key hkey)
    | own computed hkeys _ hjoin =>
      rw [hcomputed hjoin] at hkey
      exact hkeys key hkey
    | gathered branches answers hqueries hids _ hanswers hjoin =>
      rw [hcomputed hjoin, LineageMap.mem_keys_mergeAll] at hkey
      obtain ⟨answer, hanswer, hkey⟩ := hkey
      obtain ⟨branch, hbranch, hm⟩ := exists_left_of_forall₂ hanswers hanswer
      exact hids branch hbranch (ih (hqueries branch hbranch) rfl hm key hkey)
    | table output qualifier hkeys _ hm =>
      rw [eq_answerOf_of_ofRelation hm] at hkey
      exact hkeys key (mem_output_of_mem_answerOf hempty hkey)
    | oneRow _ hm =>
      rw [hm, ofOneRow, OrderedMap.keys_mapValues, OrderedMap.keys,
        OrderedMap.isEmpty_iff.1 hempty] at hkey
      cases hkey

/-! ## What is handed back -/

/-- A window leaves the entry of a column as it is of which its functions know nothing. -/
theorem windowRequest_of_unknown {functions : List Alias} {input : List Attribute}
    {parent : LineageMap} {entry : Attribute × AttributeSet} (hentry : entry ∈ parent.entries)
    (hkey : ∀ key ∈ functions.map Alias.toAttribute, key.id ≠ entry.1.id)
    (hdeps : ∀ a ∈ entry.2.attrs, ∀ key ∈ functions.map Alias.toAttribute, key.id ≠ a.id) :
    entry ∈ (windowRequest functions input parent).entries := by
  have hunknown : ∀ {id : Int}, (∀ key ∈ functions.map Alias.toAttribute, key.id ≠ id) →
      (ofWindowFunctions functions).byId? id = none := by
    intro id h
    rw [LineageMap.byId?_eq_none_iff]
    exact fun key hmem => h key (mem_keys_ofWindowFunctions.1 hmem)
  have hself : ∀ f : Attribute → List Attribute, (∀ a ∈ entry.2.attrs, f a = [a]) →
      entry.2.attrs.flatMap f = entry.2.attrs := by
    intro f hf
    rw [List.flatMap_congr hf, List.flatMap_singleton']
  rw [windowRequest, OrderedMap.isEmpty_eq_false_of_mem hentry, if_neg Bool.false_ne_true,
    OrderedMap.entries_mapValues, List.mem_map]
  refine ⟨entry, hentry, Prod.ext rfl ?_⟩
  simp only [hunknown hkey]
  rw [hself, AttributeSet.ofList_attrs]
  intro a ha
  rw [hunknown (hdeps a ha)]

/-- What a table answers for a column that depends on none of its columns. -/
theorem find?_sourcesOf_answerOf_of_unknown {output : List Attribute} {qualifier : List String}
    {request : LineageMap} {entry : Attribute × AttributeSet} (hentry : entry ∈ request.entries)
    (h : ∀ a ∈ entry.2.attrs, ∀ key ∈ output, key.id ≠ a.id) (id : Int) :
    ((request.answerOf output qualifier).sourcesOf entry.1).find? id =
      (entry.2.find? id).bind (LineageMap.answer? [] qualifier) := by
  have hanswer : ∀ a ∈ entry.2.attrs, LineageMap.answer? output qualifier a =
      LineageMap.answer? [] qualifier a :=
    fun a ha => LineageMap.answer?_of_unknown (h a ha) qualifier
  rw [LineageMap.answerOf, OrderedMap.isEmpty_eq_false_of_mem hentry, if_neg Bool.false_ne_true,
    LineageMap.sourcesOf_mapValues _ hentry, List.filterMap_congr hanswer,
    AttributeSet.find?_ofList_filterMap _ fun _ _ => LineageMap.id_of_answer?]

/-- What the row of a query without tables answers for a column. -/
theorem find?_sourcesOf_ofOneRow {request : LineageMap} {entry : Attribute × AttributeSet}
    (hentry : entry ∈ request.entries) (id : Int) :
    ((ofOneRow request).sourcesOf entry.1).find? id =
      (entry.2.find? id).bind fun a =>
        some (if a.isSubqueryMarked then a.dropLastSegment else a) := by
  rw [ofOneRow, LineageMap.sourcesOf_mapValues _ hentry, ← List.filterMap_eq_map,
    AttributeSet.find?_ofList_filterMap]
  · rfl
  · intro a b hab
    rw [← Option.some.inj hab]
    dsimp only
    split <;> rfl

/-- A column that depends on identities unknown to a query only is answered by what the query hands
back of them. -/
theorem find?_sourcesOf_unknown (n : Nat) : ∀ {plan : Plan} {request m : LineageMap},
    plan.isQuery = true → (extractWithin settings n plan request).result = .ok m →
    ∀ {entry : Attribute × AttributeSet}, entry ∈ request.entries → plan.KnowsNothingOf entry →
    ∀ id, (m.sourcesOf entry.1).find? id =
      (entry.2.find? id).bind (plan.handedBack? settings) := by
  induction n with
  | zero => intro plan request m _ hm; cases hm
  | succ n ih =>
    intro plan request m hquery hm entry hentry hunknown id
    have hbind : ∀ f : Attribute → Option Attribute,
        (∀ a, plan.handedBack? settings a = f a) →
        (entry.2.find? id).bind (plan.handedBack? settings) = (entry.2.find? id).bind f := by
      intro f hf
      rw [funext hf]
    cases queryStep_of_ok hquery hm with
    | through child computed inner hchild hkeys hids hback hjoin hm =>
      -- the operator does not compute the column: the child is asked for it as it is
      have hasked := LineageMap.find?_sourcesOf_join_of_unknown hjoin hentry
        (hunknown.byId?_eq_none hkeys)
      have hinner : (entry.1, inner.sourcesOf entry.1) ∈ inner.entries := by
        refine LineageMap.mem_entries_of_mem_keys ?_
        rw [keys_of_join (OrderedMap.isEmpty_eq_false_of_mem hentry) hjoin]
        exact OrderedMap.key_mem_of_entry_mem hentry
      rw [ih hchild hm hinner ((hunknown.of_join hentry hkeys hjoin).mono hids) id, hasked,
        hbind _ hback, Option.bind_assoc]
    | window functions child hchild hkeys _ hids hback hm =>
      have hinner : entry ∈ (windowRequest functions child.output request).entries := by
        refine windowRequest_of_unknown hentry ?_ ?_
        · exact fun key hmem heq => hunknown.key (heq ▸ hkeys key hmem)
        · exact fun a ha key hmem heq => hunknown.dependencies a ha (heq ▸ hkeys key hmem)
      rw [hbind _ hback]
      exact ih hchild hm hinner (hunknown.mono hids) id
    | handOn child hchild hids hback hm =>
      rw [hbind _ hback]
      exact ih hchild hm hentry (hunknown.mono hids) id
    | both left right l r hleft hright hleftIds hrightIds hback hl hr hmerge =>
      -- both sides are asked, and the right one has the first say
      have hlfound := ih hleft hl hentry (hunknown.mono hleftIds) id
      have hrfound := ih hright hr hentry (hunknown.mono hrightIds) id
      rw [hmerge, LineageMap.sourcesOf_merge, AttributeSet.find?_union, hlfound, hrfound,
        hbind _ hback]
      cases entry.2.find? id <;> rfl
    | own computed hkeys hback hjoin =>
      rw [hbind _ hback]
      exact LineageMap.find?_sourcesOf_join_of_unknown hjoin hentry
        (hunknown.byId?_eq_none hkeys) id
    | gathered branches answers hqueries hids hback hanswers hjoin =>
      rw [hbind _ hback]
      refine LineageMap.find?_sourcesOf_join_of_unknown hjoin hentry
        (hunknown.byId?_eq_none fun key hmem => ?_) id
      obtain ⟨answer, hanswer, hmem⟩ := LineageMap.mem_keys_mergeAll.1 hmem
      obtain ⟨branch, hbranch, hm⟩ := exists_left_of_forall₂ hanswers hanswer
      exact hids branch hbranch (id_mem_columnIds n (hqueries branch hbranch) rfl hm key hmem)
    | table output qualifier hkeys hback hm =>
      rw [eq_answerOf_of_ofRelation hm, hbind _ hback]
      refine find?_sourcesOf_answerOf_of_unknown hentry (fun a ha key hmem heq => ?_) id
      exact hunknown.dependencies a ha (heq ▸ hkeys key hmem)
    | oneRow hback hm =>
      rw [hm, hbind _ hback]
      exact find?_sourcesOf_ofOneRow hentry id

/-- What a query answers for a column of which it knows nothing: all that it hands back. -/
theorem mem_sourcesOf_unknown {n : Nat} {plan : Plan} {request m : LineageMap}
    (hquery : plan.isQuery = true)
    (hm : (extractWithin settings n plan request).result = .ok m)
    {entry : Attribute × AttributeSet} (hentry : entry ∈ request.entries)
    (hunknown : plan.KnowsNothingOf entry) {e : Attribute} :
    e ∈ (m.sourcesOf entry.1).attrs ↔
      ∃ d ∈ entry.2.attrs, plan.handedBack? settings d = some e := by
  have hfound := find?_sourcesOf_unknown n hquery hm hentry hunknown
  constructor
  · intro he
    have h := AttributeSet.find?_of_mem he
    rw [hfound, Option.bind_eq_some_iff] at h
    obtain ⟨d, hd, hback⟩ := h
    exact ⟨d, (AttributeSet.find?_eq_some_iff.1 hd).1, hback⟩
  · rintro ⟨d, hd, hback⟩
    have h := hfound d.id
    rw [AttributeSet.find?_of_mem hd, Option.bind_some, hback] at h
    exact (AttributeSet.find?_eq_some_iff.1 h).1

end Lineage

end ColumnTrace
