import ColumnTrace.Proofs.Lineage.Agreement

/-!
# Select lists, expansions and window functions pass requests on

The three operators that turn a request into one for their child ask it for what their own columns
refer to, and for columns unknown to them as they are. So what they answer is what they bring
(`Plan.answers_of_selectList`, `Plan.answers_of_expand`, `Plan.answers_of_window`).
-/

set_option autoImplicit false

namespace ColumnTrace

open Traced

/-! ## Sources read off a map -/

/-- A set of one attribute, told by its members. -/
theorem AttributeSet.attrs_eq_singleton {s : AttributeSet} {a : Attribute} (ha : a ∈ s.attrs)
    (hall : ∀ x ∈ s.attrs, x = a) : s.attrs = [a] := by
  match hattrs : s.attrs with
  | [] =>
    rw [hattrs] at ha
    cases ha
  | [x] =>
    rw [hattrs] at hall
    rw [hall x List.mem_cons_self]
  | x :: y :: rest =>
    rw [hattrs] at hall
    have hids := s.nodup_ids
    have hy := hall y (List.mem_cons_of_mem x List.mem_cons_self)
    rw [hattrs, hall x List.mem_cons_self, hy] at hids
    simp at hids

/-- The attributes of an expression are its references, where an identity tells an attribute. -/
theorem Expr.mem_references_iff {e : Expr} {columns : List Attribute}
    (hcolumns : (columns.map Attribute.id).Nodup) (h : ∀ r ∈ e.attributes, r ∈ columns)
    {r : Attribute} : r ∈ e.references.attrs ↔ r ∈ e.attributes :=
  AttributeSet.mem_ofList_iff fun _ hx _ hy hid =>
    List.inj_on_of_nodup_map hcolumns (h _ hx) (h _ hy) hid

namespace LineageMap

/-- Columns with distinct identities are distinct. -/
theorem nodup_of_nodup_ids {columns : List Attribute} (h : (columns.map Attribute.id).Nodup) :
    columns.Nodup :=
  List.Nodup.of_map _ h

/-- Distinct columns stand for themselves, in order. -/
theorem entries_identity {columns : List Attribute} (h : columns.Nodup) :
    (identity columns).entries = columns.map fun a => (a, .singleton a) := by
  rw [identity, OrderedMap.entries_ofList_of_nodup]
  simpa [Function.comp_def] using h

/-- A column that is computed gives way to what it is computed from. -/
theorem resolve_of_mem_keys {computed : LineageMap}
    (hnodup : (computed.keys.map Attribute.id).Nodup) {d : Attribute} (h : d ∈ computed.keys) :
    computed.resolve d = (computed.sourcesOf d).attrs := by
  obtain ⟨entry, hentry, rfl⟩ := List.mem_map.1 h
  rw [resolve_of_byId? (byId?_of_mem hnodup hentry), sourcesOf_of_mem hentry]

/-- A plain column that is not computed stays. -/
theorem resolve_of_isPlain {computed : LineageMap} {d : Attribute} (hplain : d.isPlain = true)
    (h : ∀ key ∈ computed.keys, key.id ≠ d.id) : computed.resolve d = [d] := by
  rw [resolve_of_unknown (byId?_eq_none_iff.2 h), Attribute.isCountMarker_of_isPlain hplain,
    if_neg Bool.false_ne_true]

end LineageMap

namespace Plan

variable {settings : Settings} {source : Int → Attribute} {plan child : Plan} {n : Nat}

/-- An operator that passes requests on answers what it is asked, and for all that it has. -/
theorem Passes.answers {refs : Attribute → List Attribute}
    (hpasses : Passes settings plan child refs) (hplan : plan.Resolved settings source)
    (hanswers : child.AnswersRequests settings n) (hcolumns : plan.output ≠ [])
    (hrequest : ∀ request : LineageMap, request.isEmpty = false →
      (∀ entry ∈ request.entries, plan.Askable entry) →
      ∃ inner : LineageMap, inner.keys = request.keys ∧
        (∀ entry ∈ request.entries,
          inner.sourcesOf entry.1 = .ofList (entry.2.attrs.flatMap refs)) ∧
        ∀ m, (Lineage.extractWithin settings n child inner).result = .ok m →
          (Lineage.extractWithin settings (n + 1) plan request).result = .ok m)
    (hfull : ∃ inner : LineageMap, inner.keys = plan.output ∧
      (∀ a ∈ plan.output, inner.sourcesOf a = .ofList (refs a)) ∧
      ∀ m, (Lineage.extractWithin settings n child inner).result = .ok m →
        (Lineage.extractWithin settings (n + 1) plan ∅).result = .ok m) :
    plan.AnswersRequests settings (n + 1) ∧ plan.AnswersInFull settings (n + 1) := by
  constructor
  · intro request hasked haskable
    obtain ⟨inner, hkeys, hinner, hstep⟩ := hrequest request hasked haskable
    obtain ⟨m, hm, -, haccounts⟩ :=
      hpasses.answered hplan hanswers hasked hkeys hinner haskable
    exact ⟨m, hstep m hm, haccounts⟩
  · obtain ⟨inner, hkeys, hinner, hstep⟩ := hfull
    have hwf := hplan.wellFormed
    have hentries := LineageMap.entries_identity
      (LineageMap.nodup_of_nodup_ids hwf.nodup_ids)
    have hall : (LineageMap.identity plan.output).keys = plan.output := by
      rw [OrderedMap.keys, hentries, List.map_map]
      exact List.map_id' _
    -- asking for nothing is asking for all columns as they are
    have hasked : (LineageMap.identity plan.output).isEmpty = false := by
      rw [← OrderedMap.isEmpty_keys, hall]
      simpa using hcolumns
    obtain ⟨m, hm, hmkeys, haccounts⟩ := hpasses.answered hplan hanswers hasked
      (hkeys.trans hall.symm) (by
        intro entry hentry
        rw [hentries] at hentry
        obtain ⟨a, ha, rfl⟩ := List.mem_map.1 hentry
        rw [hinner a ha]
        exact congrArg AttributeSet.ofList (List.flatMap_singleton refs a).symm) (by
        intro entry hentry
        rw [hentries] at hentry
        obtain ⟨a, ha, rfl⟩ := List.mem_map.1 hentry
        exact askable_identity hwf ha)
    refine ⟨m, hstep m hm, hmkeys.trans hall, fun a ha => ?_⟩
    have hentry : (a, AttributeSet.singleton a) ∈ (LineageMap.identity plan.output).entries := by
      rw [hentries]
      exact List.mem_map.2 ⟨a, ha, rfl⟩
    refine (haccounts _ hentry).congr fun e => ?_
    have hsingle : (AttributeSet.singleton a).attrs = [a] := rfl
    simp only [hsingle, List.mem_singleton, exists_eq_left]
    rw [gives_of_mem_output hwf ha, hpasses.brings_iff a ha, hpasses.brings_iff a ha]

/-- What an operator brings whose columns are computed from columns of one child. -/
theorem brings_iff_of_feeds {refs : Attribute → List Attribute} {asked : Bool} {d e : Attribute}
    (htable : plan.table? settings = none) (hacross : ¬ plan.HandsAcross settings d e)
    (hasks : plan.asksBelow asked = true)
    (hfeeds : ∀ below r, plan.Feeds settings d below r ↔ below = child ∧ r ∈ refs d) :
    plan.Brings settings asked d e ↔ ∃ r ∈ refs d, child.Brings settings true r e := by
  rw [brings_iff, htable, hasks]
  constructor
  · rintro (⟨_, _, hsome, -⟩ | ⟨below, r, hfeed, hbrings⟩ | ⟨-, hhands⟩)
    · cases hsome
    · obtain ⟨rfl, hr⟩ := (hfeeds below r).1 hfeed
      exact ⟨r, hr, hbrings⟩
    · exact absurd hhands hacross
  · rintro ⟨r, hr, hbrings⟩
    exact Or.inr (Or.inl ⟨child, r, (hfeeds child r).2 ⟨rfl, hr⟩, hbrings⟩)

/-- An operator that resolves requests against what it computes answers what it is asked. -/
theorem answers_of_join {computed : LineageMap}
    (hpasses : Passes settings plan child computed.resolve)
    (hplan : plan.Resolved settings source) (hanswers : child.AnswersRequests settings n)
    (hkeys : computed.keys = plan.output) (hcolumns : plan.output ≠ [])
    (hstep : ∀ request inner m : LineageMap, (request.join computed).result = .ok inner →
      (Lineage.extractWithin settings n child inner).result = .ok m →
      (Lineage.extractWithin settings (n + 1) plan request).result = .ok m) :
    plan.AnswersRequests settings (n + 1) ∧ plan.AnswersInFull settings (n + 1) := by
  refine hpasses.answers hplan hanswers hcolumns ?_ ?_
  · intro request hasked haskable
    refine ⟨request.resolveAll computed, LineageMap.keys_resolveAll hasked computed, ?_, ?_⟩
    · exact fun entry hentry => LineageMap.sourcesOf_resolveAll hasked computed hentry
    · refine fun m => hstep request _ m (LineageMap.result_join_of_resolvable ?_)
      intro entry hentry a ha
      have hplain := (haskable entry hentry).plain a ha
      exact Or.inr ⟨Attribute.isNamed_of_isPlain hplain,
        Attribute.isCountMarker_of_isPlain hplain⟩
  · refine ⟨computed, hkeys, fun a ha => ?_, fun m => hstep ∅ computed m ?_⟩
    · rw [LineageMap.resolve_of_mem_keys (hkeys ▸ hplan.wellFormed.nodup_ids) (hkeys ▸ ha),
        AttributeSet.ofList_attrs]
    · exact LineageMap.result_join_of_isEmpty rfl computed

end Plan

/-! ## Select lists -/

namespace Lineage

/-- The columns of a select list with what they refer to. -/
def selectSources (items : List SelectItem) : LineageMap :=
  .ofList (items.map fun item => (item.toAttribute, .ofList item.toExpr.attributes))

/-- Select lists that take nothing from subqueries and count no rows. -/
theorem result_ofSelectList {below : Below} {items : List SelectItem}
    (h : ∀ f, .aliased f ∈ items → f.child.countsRows = false ∧
      (f.child.attributes = [] → f.child.subqueries = [])) :
    (ofSelectList below items).result = .ok (selectSources items) := by
  rw [ofSelectList_eq_ok]
  refine ⟨_, ?_, rfl⟩
  rw [List.forall₂_map_right_iff, List.forall₂_same]
  intro item hitem
  cases item with
  | column a => rfl
  | aliased f =>
    obtain ⟨hcounts, hsubqueries⟩ := h f hitem
    have hsources : (aliasSources below f).result = .ok f.child.references := by
      rw [aliasSources]
      cases hdirect : f.child.references.isEmpty with
      | true =>
        have hattributes := AttributeSet.isEmpty_ofList.1 hdirect
        simp [hcounts, hsubqueries hattributes, Expr.references, hattributes,
          LineageMap.mergeAll, OrderedMap.values]
      | false => simp [hcounts]
    obtain ⟨e, name, id⟩ := f
    exact result_bind_of_ok hsources

/-- A select list has an entry for each of its columns, with what it refers to. -/
theorem entries_selectSources {items : List SelectItem}
    (h : (items.map SelectItem.toAttribute).Nodup) :
    (selectSources items).entries =
      items.map fun item => (item.toAttribute, .ofList item.toExpr.attributes) := by
  rw [selectSources, OrderedMap.entries_ofList_of_nodup]
  rwa [List.map_map]

/-- A select list has its columns, in order. -/
theorem keys_selectSources {items : List SelectItem}
    (h : (items.map SelectItem.toAttribute).Nodup) :
    (selectSources items).keys = items.map SelectItem.toAttribute := by
  rw [OrderedMap.keys, entries_selectSources h, List.map_map]
  rfl

/-- A column of a select list is resolved to what its entry refers to. -/
theorem resolve_selectSources {items : List SelectItem}
    (hids : ((items.map SelectItem.toAttribute).map Attribute.id).Nodup) {item : SelectItem}
    (hitem : item ∈ items) :
    (selectSources items).resolve item.toAttribute = item.toExpr.references.attrs := by
  have hnodup := LineageMap.nodup_of_nodup_ids hids
  have hentry : (item.toAttribute, item.toExpr.references) ∈ (selectSources items).entries := by
    rw [entries_selectSources hnodup]
    exact List.mem_map.2 ⟨item, hitem, rfl⟩
  rw [LineageMap.resolve_of_mem_keys (keys_selectSources hnodup ▸ hids)
    (OrderedMap.key_mem_of_entry_mem hentry), LineageMap.sourcesOf_of_mem hentry]

end Lineage

namespace Plan

variable {settings : Settings} {source : Int → Attribute} {plan child : Plan} {n : Nat}
variable {items : List SelectItem}

/-- A select list adds its own columns to those that are known below. -/
theorem columnIds_of_selectList (h : plan.selectList? = some (items, child)) :
    plan.columnIds = items.map (·.toAttribute.id) ++ child.columnIds := by
  cases plan <;> cases h <;> rfl

/-- A select list hands back what the plan below does, but for the marker of rows. -/
theorem handedBack?_of_selectList (h : plan.selectList? = some (items, child)) (a : Attribute) :
    plan.handedBack? settings a = a.uncounted?.bind (child.handedBack? settings) := by
  cases plan <;> cases h <;> rfl

/-- A select list is no table. -/
theorem table?_of_selectList (h : plan.selectList? = some (items, child)) :
    plan.table? settings = none := by
  cases plan <;> cases h <;> rfl

/-- A select list asks the plan below for certain columns. -/
theorem asksBelow_of_selectList (h : plan.selectList? = some (items, child)) (asked : Bool) :
    plan.asksBelow asked = true := by
  cases plan <;> cases h <;> rfl

/-- A select list hands nothing across. -/
theorem not_handsAcross_of_selectList (h : plan.selectList? = some (items, child))
    {a e : Attribute} : ¬ plan.HandsAcross settings a e := by
  intro hhands
  cases hhands <;> cases h

/-- A column of a select list is fed by the columns that its entry refers to. -/
theorem feeds_of_selectList (h : plan.selectList? = some (items, child)) {a r : Attribute}
    {below : Plan} : plan.Feeds settings a below r ↔
      below = child ∧ ∃ item ∈ items, item.toAttribute = a ∧ r ∈ item.toExpr.attributes := by
  constructor
  · intro hfeeds
    cases hfeeds with
    | item hlist hitem hr =>
      rw [h] at hlist
      cases hlist
      exact ⟨rfl, _, hitem, rfl, hr⟩
    | branch hbranches => cases plan <;> cases h <;> cases hbranches
    | _ => cases h
  · rintro ⟨rfl, item, hitem, rfl, hr⟩
    exact .item h hitem hr

/-- A request turns at a select list into one for what its entries refer to. -/
theorem passes_of_selectList (hplan : plan.Resolved settings source)
    (hlist : plan.selectList? = some (items, child)) :
    Passes settings plan child (Lineage.selectSources items).resolve := by
  have hwf := hplan.wellFormed
  have hchild := (hplan.of_traced (child_mem_tracedBelow hlist)).wellFormed
  obtain ⟨-, hrefs, hnew⟩ := hwf.selectList items child hlist
  have houtput := output_of_selectList hlist
  have hids : ((items.map SelectItem.toAttribute).map Attribute.id).Nodup :=
    houtput ▸ hwf.nodup_ids
  -- the child has no two columns of one identity, so no reference of an entry is lost
  have hresolve : ∀ item ∈ items, ∀ r,
      r ∈ (Lineage.selectSources items).resolve item.toAttribute ↔
        r ∈ item.toExpr.attributes := by
    intro item hitem r
    rw [Lineage.resolve_selectSources hids hitem]
    exact Expr.mem_references_iff hchild.nodup_ids (hrefs item hitem)
  have hitems : ∀ {d}, d ∈ plan.output → ∃ item ∈ items, item.toAttribute = d :=
    fun hd => List.mem_map.1 (houtput ▸ hd)
  constructor
  case mem_tracedBelow => exact child_mem_tracedBelow hlist
  case columnIds_subset =>
    rw [columnIds_of_selectList hlist]
    exact List.subset_append_right _ _
  case mem_output =>
    intro d hd r hr
    obtain ⟨item, hitem, rfl⟩ := hitems hd
    exact hrefs item hitem r ((hresolve item hitem r).1 hr)
  case brings_iff =>
    intro d hd asked e
    refine brings_iff_of_feeds (table?_of_selectList hlist) (not_handsAcross_of_selectList hlist)
      (asksBelow_of_selectList hlist asked) fun below r => ?_
    rw [feeds_of_selectList hlist]
    refine and_congr_right' ?_
    constructor
    · rintro ⟨item, hitem, rfl, hr⟩
      exact (hresolve item hitem r).2 hr
    · intro hr
      obtain ⟨item, hitem, rfl⟩ := hitems hd
      exact ⟨item, hitem, rfl, (hresolve item hitem r).1 hr⟩
  case known =>
    intro d hd hknown
    obtain ⟨item, hitem, rfl⟩ := hitems hd
    cases item with
    | aliased f => exact absurd hknown (hnew f hitem).1
    | column a => exact Lineage.resolve_selectSources hids hitem
  case unknown =>
    intro d hplain hunknown
    refine ⟨LineageMap.resolve_of_isPlain hplain fun key hkey heq => hunknown ?_, ?_⟩
    · rw [Lineage.keys_selectSources (LineageMap.nodup_of_nodup_ids hids)] at hkey
      obtain ⟨item, hitem, rfl⟩ := List.mem_map.1 hkey
      rw [columnIds_of_selectList hlist, ← heq]
      exact List.mem_append_left _ (List.mem_map_of_mem (f := (·.toAttribute.id)) hitem)
    · rw [handedBack?_of_selectList hlist, Attribute.uncounted?_of_isPlain hplain,
        Option.bind_some]

/-- An operator with a select list answers requests if the plan below does. -/
theorem answers_of_selectList (hplan : plan.Resolved settings source)
    (hlist : plan.selectList? = some (items, child))
    (hanswers : child.AnswersRequests settings n) :
    plan.AnswersRequests settings (n + 1) ∧ plan.AnswersInFull settings (n + 1) := by
  have hwf := hplan.wellFormed
  obtain ⟨hne, -, hnew⟩ := hwf.selectList items child hlist
  have houtput := output_of_selectList hlist
  have hids : ((items.map SelectItem.toAttribute).map Attribute.id).Nodup :=
    houtput ▸ hwf.nodup_ids
  refine answers_of_join (passes_of_selectList hplan hlist) hplan hanswers ?_ ?_ ?_
  · rw [Lineage.keys_selectSources (LineageMap.nodup_of_nodup_ids hids), houtput]
  · rw [houtput]
    simpa using hne
  · intro request inner m hinner hm
    rw [Lineage.extractWithin, step_of_selectList hlist]
    refine Lineage.step_project.2 ⟨_, inner, ?_, hinner, hm⟩
    exact Lineage.result_ofSelectList fun f hf => (hnew f hf).2

end Plan

/-! ## Expansions -/

/-- Rows of one length have as many columns, and a column has the entries at its place. -/
theorem columnsOf_of_length_eq {α : Type} {rows : List (List α)} {width : Nat} (hne : rows ≠ [])
    (h : ∀ row ∈ rows, row.length = width) :
    columnsOf rows = (List.range width).map fun i => rows.filterMap (·[i]?) := by
  have hfold : ∀ rest : List (List α), (∀ row ∈ rest, row.length = width) →
      rest.foldl (fun width other => min width other.length) width = width := by
    intro rest
    induction rest with
    | nil => exact fun _ => rfl
    | cons row rest ih =>
      intro hrest
      rw [List.foldl_cons, hrest row List.mem_cons_self, Nat.min_self]
      exact ih fun other hother => hrest other (List.mem_cons_of_mem row hother)
  cases rows with
  | nil => exact absurd rfl hne
  | cons row rest =>
    simp only [columnsOf]
    rw [h row List.mem_cons_self, hfold rest fun other hother =>
      h other (List.mem_cons_of_mem row hother)]

/-- Rows that all have so many entries have as many columns. -/
theorem le_length_columnsOf {α : Type} {rows : List (List α)} {width : Nat} (hne : rows ≠ [])
    (h : ∀ row ∈ rows, width ≤ row.length) : width ≤ (columnsOf rows).length := by
  have hfold : ∀ (rest : List (List α)) (start : Nat), width ≤ start →
      (∀ row ∈ rest, width ≤ row.length) →
      width ≤ rest.foldl (fun width other => min width other.length) start := by
    intro rest
    induction rest with
    | nil => exact fun _ hstart _ => hstart
    | cons row rest ih =>
      intro start hstart hrest
      rw [List.forall_mem_cons] at hrest
      exact ih _ (Nat.le_min.2 ⟨hstart, hrest.1⟩) hrest.2
  cases rows with
  | nil => exact absurd rfl hne
  | cons row rest =>
    rw [List.forall_mem_cons] at h
    rw [columnsOf, List.length_map, List.length_range]
    exact hfold rest row.length h.1 h.2

namespace Lineage

/-- The references of an expansion at one place. -/
def placeRefs (projections : List (List Expr)) (i : Nat) : AttributeSet :=
  .ofList ((projections.filterMap (·[i]?)).flatMap fun e => e.references.attrs)

variable {projections : List (List Expr)} {output : List Attribute}

/-- An expansion has an entry for each of its columns, with the references at its place. -/
theorem entries_ofProjections (hne : projections ≠ [])
    (hrows : ∀ row ∈ projections, row.length = output.length) (houtput : output.Nodup) :
    (ofProjections projections output).entries =
      (output.zip (List.range output.length)).map fun pair =>
        (pair.1, placeRefs projections pair.2) := by
  have hpairs : (output.zip (columnsOf projections)).map (fun pair =>
        (pair.1, AttributeSet.ofList (pair.2.flatMap fun e => e.references.attrs))) =
      (output.zip (List.range output.length)).map fun pair =>
        (pair.1, placeRefs projections pair.2) := by
    rw [columnsOf_of_length_eq hne hrows, List.zip_map_right, List.map_map]
    rfl
  rw [ofProjections, hpairs, OrderedMap.entries_ofList_of_nodup]
  rw [List.map_map]
  show ((output.zip (List.range output.length)).map Prod.fst).Nodup
  rwa [List.map_fst_zip (by simp)]

/-- An expansion with rows that are long enough has its columns, in order. -/
theorem keys_ofProjections_of_le (hne : projections ≠ [])
    (hrows : ∀ row ∈ projections, output.length ≤ row.length) (houtput : output.Nodup) :
    (ofProjections projections output).keys = output := by
  have hfst : ((output.zip (columnsOf projections)).map fun pair =>
      (pair.1, AttributeSet.ofList (pair.2.flatMap fun e => e.references.attrs))).map Prod.fst =
      output := by
    rw [List.map_map]
    exact List.map_fst_zip (le_length_columnsOf hne hrows)
  rw [ofProjections, OrderedMap.keys_ofList_of_nodup (hfst.symm ▸ houtput), hfst]

/-- An expansion has its columns, in order. -/
theorem keys_ofProjections (hne : projections ≠ [])
    (hrows : ∀ row ∈ projections, row.length = output.length) (houtput : output.Nodup) :
    (ofProjections projections output).keys = output :=
  keys_ofProjections_of_le hne (fun row hrow => Nat.le_of_eq (hrows row hrow).symm) houtput

/-- The column at a place has the references there. -/
theorem mem_entries_ofProjections (hne : projections ≠ [])
    (hrows : ∀ row ∈ projections, row.length = output.length) (houtput : output.Nodup)
    {i : Nat} {a : Attribute} (ha : output[i]? = some a) :
    (a, placeRefs projections i) ∈ (ofProjections projections output).entries := by
  rw [entries_ofProjections hne hrows houtput, List.mem_map]
  have hlt : i < output.length := (List.getElem?_eq_some_iff.1 ha).1
  refine ⟨(a, i), List.mem_of_getElem? (i := i) ?_, rfl⟩
  rw [List.getElem?_zip_eq_some]
  exact ⟨ha, List.getElem?_range hlt⟩

/-- A column of an expansion is resolved to the references at its place. -/
theorem resolve_ofProjections (hne : projections ≠ [])
    (hrows : ∀ row ∈ projections, row.length = output.length)
    (hids : (output.map Attribute.id).Nodup) {i : Nat} {d : Attribute} (hd : output[i]? = some d) :
    (ofProjections projections output).resolve d = (placeRefs projections i).attrs := by
  have hnodup := LineageMap.nodup_of_nodup_ids hids
  have hentry := mem_entries_ofProjections hne hrows hnodup hd
  rw [LineageMap.resolve_of_mem_keys ((keys_ofProjections hne hrows hnodup).symm ▸ hids)
    (OrderedMap.key_mem_of_entry_mem hentry), LineageMap.sourcesOf_of_mem hentry]

/-- The references at a place are those of its expressions: as columns of one child, none of them
hides another. -/
theorem mem_placeRefs_iff {columns : List Attribute} (hcolumns : (columns.map Attribute.id).Nodup)
    (hrefs : ∀ row ∈ projections, ∀ e ∈ row, ∀ r ∈ e.attributes, r ∈ columns) {i : Nat}
    {r : Attribute} : r ∈ (placeRefs projections i).attrs ↔
      ∃ row e, row ∈ projections ∧ row[i]? = some e ∧ r ∈ e.attributes := by
  have hmem : ∀ {x : Attribute},
      x ∈ (projections.filterMap (·[i]?)).flatMap (fun e => e.references.attrs) ↔
        ∃ row e, row ∈ projections ∧ row[i]? = some e ∧ x ∈ e.attributes := by
    intro x
    simp only [List.mem_flatMap, List.mem_filterMap]
    constructor
    · rintro ⟨e, ⟨row, hrow, he⟩, hx⟩
      exact ⟨row, e, hrow, he, AttributeSet.mem_of_mem_ofList hx⟩
    · rintro ⟨row, e, hrow, he, hx⟩
      refine ⟨e, ⟨row, hrow, he⟩, (Expr.mem_references_iff hcolumns ?_).2 hx⟩
      exact hrefs row hrow e (List.mem_of_getElem? he)
  have hcolumn : ∀ {x : Attribute},
      x ∈ (projections.filterMap (·[i]?)).flatMap (fun e => e.references.attrs) →
      x ∈ columns := by
    intro x hx
    obtain ⟨row, e, hrow, he, hx⟩ := hmem.1 hx
    exact hrefs row hrow e (List.mem_of_getElem? he) x hx
  rw [placeRefs, AttributeSet.mem_ofList_iff fun x hx y hy hid =>
    List.inj_on_of_nodup_map hcolumns (hcolumn hx) (hcolumn hy) hid, hmem]

end Lineage

namespace Plan

variable {settings : Settings} {source : Int → Attribute} {child : Plan} {n : Nat}
variable {projections : List (List Expr)} {output : List Attribute}

/-- A column of an expansion is fed by the columns that stand at its place in some row. -/
theorem feeds_expand {a r : Attribute} {below : Plan} :
    (Plan.expand projections output child).Feeds settings a below r ↔
      below = child ∧ ∃ (i : Nat) (row : List Expr) (e : Expr), output[i]? = some a ∧
        row ∈ projections ∧ row[i]? = some e ∧ r ∈ e.attributes := by
  constructor
  · intro hfeeds
    cases hfeeds with
    | item hlist => cases hlist
    | branch hbranches => cases hbranches
    | place ha hrow he hr => exact ⟨rfl, _, _, _, ha, hrow, he, hr⟩
  · rintro ⟨rfl, i, row, e, ha, hrow, he, hr⟩
    exact .place ha hrow he hr

/-- A request turns at an expansion into one for what its rows refer to. -/
theorem passes_expand (hplan : (Plan.expand projections output child).Resolved settings source) :
    Passes settings (.expand projections output child) child
      (Lineage.ofProjections projections output).resolve := by
  have hwf := hplan.wellFormed
  have hbelow : child ∈ (Plan.expand projections output child).tracedBelow settings :=
    List.mem_cons_self
  have hchild := (hplan.of_traced hbelow).wellFormed
  obtain ⟨-, hne, hrows, hrepeated⟩ := hwf.expand _ _ _ rfl
  have hlengths := fun row hrow => (hrows row hrow).1
  have hids : (output.map Attribute.id).Nodup := hwf.nodup_ids
  have hset : ∀ {i : Nat} {d : Attribute}, output[i]? = some d →
      (Lineage.ofProjections projections output).resolve d =
        (Lineage.placeRefs projections i).attrs :=
    fun hd => Lineage.resolve_ofProjections hne hlengths hids hd
  have hplace : ∀ {i : Nat} {r : Attribute}, r ∈ (Lineage.placeRefs projections i).attrs ↔
      ∃ row e, row ∈ projections ∧ row[i]? = some e ∧ r ∈ e.attributes :=
    Lineage.mem_placeRefs_iff hchild.nodup_ids fun row hrow => (hrows row hrow).2
  have hat : ∀ {d : Attribute}, d ∈ output → ∃ i : Nat, output[i]? = some d :=
    fun hd => List.mem_iff_getElem?.1 hd
  constructor
  case mem_tracedBelow => exact hbelow
  case columnIds_subset => exact List.subset_append_right _ _
  case mem_output =>
    intro d hd r hr
    obtain ⟨i, hi⟩ := hat hd
    rw [hset hi, hplace] at hr
    obtain ⟨row, e, hrow, he, hr⟩ := hr
    exact (hrows row hrow).2 e (List.mem_of_getElem? he) r hr
  case brings_iff =>
    intro d hd asked e
    refine brings_iff_of_feeds rfl (fun hhands => by cases hhands) rfl fun below r => ?_
    rw [feeds_expand]
    refine and_congr_right' ?_
    constructor
    · rintro ⟨i, row, e, hi, hrow, he, hr⟩
      rw [hset hi]
      exact hplace.2 ⟨row, e, hrow, he, hr⟩
    · intro hr
      obtain ⟨i, hi⟩ := hat hd
      rw [hset hi, hplace] at hr
      obtain ⟨row, e, hrow, he, hr⟩ := hr
      exact ⟨i, row, e, hi, hrow, he, hr⟩
  case known =>
    -- where an identity of the child comes again, every projection has that column there
    intro d hd hknown
    obtain ⟨i, hi⟩ := hat hd
    rw [hset hi]
    refine AttributeSet.attrs_eq_singleton ?_ ?_
    · obtain ⟨row, hrow⟩ := List.exists_mem_of_ne_nil _ hne
      have hlt : i < row.length := by
        rw [hlengths row hrow]
        exact (List.getElem?_eq_some_iff.1 hi).1
      refine hplace.2 ⟨row, row[i], hrow, List.getElem?_eq_getElem hlt, ?_⟩
      rw [hrepeated i d hi hknown row hrow row[i] (List.getElem?_eq_getElem hlt)]
      exact List.mem_cons_self
    · intro x hx
      obtain ⟨row, e, hrow, he, hx⟩ := hplace.1 hx
      rw [hrepeated i d hi hknown row hrow e he] at hx
      exact List.mem_singleton.1 hx
  case unknown =>
    intro d hplain hunknown
    refine ⟨LineageMap.resolve_of_isPlain hplain fun key hkey heq => hunknown ?_, ?_⟩
    · rw [Lineage.keys_ofProjections hne hlengths (LineageMap.nodup_of_nodup_ids hids)] at hkey
      exact heq ▸ List.mem_append_left _ (List.mem_map_of_mem hkey)
    · rw [handedBack?, Attribute.uncounted?_of_isPlain hplain, Option.bind_some]

/-- An expansion answers requests if the plan below does. -/
theorem answers_of_expand
    (hplan : (Plan.expand projections output child).Resolved settings source)
    (hanswers : child.AnswersRequests settings n) :
    (Plan.expand projections output child).AnswersRequests settings (n + 1) ∧
      (Plan.expand projections output child).AnswersInFull settings (n + 1) := by
  have hwf := hplan.wellFormed
  obtain ⟨houtput, hne, hrows, -⟩ := hwf.expand _ _ _ rfl
  refine answers_of_join (passes_expand hplan) hplan hanswers ?_ houtput ?_
  · exact Lineage.keys_ofProjections hne (fun row hrow => (hrows row hrow).1)
      (LineageMap.nodup_of_nodup_ids hwf.nodup_ids)
  · intro request inner m hinner hm
    exact Lineage.step_expand.2 ⟨inner, hinner, hm⟩

end Plan

/-! ## Window functions -/

namespace Lineage

/-- What a column gives way to under window functions: a function's column to what the function
refers to, any other to itself. -/
def windowRefs (functions : List Alias) (d : Attribute) : List Attribute :=
  match (ofWindowFunctions functions).byId? d.id with
  | some found => found.attrs
  | none => [d]

variable {functions : List Alias} {input : List Attribute} {parent : LineageMap}

/-- Window functions have an entry each, with what they refer to. -/
theorem entries_ofWindowFunctions (h : (functions.map Alias.toAttribute).Nodup) :
    (ofWindowFunctions functions).entries =
      functions.map fun f => (f.toAttribute, f.child.references) := by
  rw [ofWindowFunctions, OrderedMap.entries_ofList_of_nodup]
  rwa [List.map_map]

/-- Under the identity of a function is found what it refers to. -/
theorem byId?_ofWindowFunctions (h : ((functions.map Alias.toAttribute).map Attribute.id).Nodup)
    {f : Alias} (hf : f ∈ functions) :
    (ofWindowFunctions functions).byId? f.id = some f.child.references := by
  have hentries := entries_ofWindowFunctions (LineageMap.nodup_of_nodup_ids h)
  have hkeys : (ofWindowFunctions functions).keys = functions.map Alias.toAttribute := by
    rw [OrderedMap.keys, hentries, List.map_map]
    rfl
  have hentry : (f.toAttribute, f.child.references) ∈ (ofWindowFunctions functions).entries := by
    rw [hentries]
    exact List.mem_map.2 ⟨f, hf, rfl⟩
  exact LineageMap.byId?_of_mem (hkeys ▸ h) hentry

/-- Under any other identity nothing is found. -/
theorem byId?_ofWindowFunctions_eq_none {id : Int} (h : ∀ f ∈ functions, f.id ≠ id) :
    (ofWindowFunctions functions).byId? id = none := by
  rw [LineageMap.byId?_eq_none_iff]
  intro key hkey
  obtain ⟨f, hf, rfl⟩ := List.mem_map.1 (mem_keys_ofWindowFunctions.1 hkey)
  exact h f hf

/-- The column of a function gives way to what the function refers to. -/
theorem windowRefs_function (h : ((functions.map Alias.toAttribute).map Attribute.id).Nodup)
    {f : Alias} (hf : f ∈ functions) :
    windowRefs functions f.toAttribute = f.child.references.attrs := by
  have hfound : (ofWindowFunctions functions).byId? f.toAttribute.id = some f.child.references :=
    byId?_ofWindowFunctions h hf
  rw [windowRefs, hfound]

/-- Any other column stays. -/
theorem windowRefs_other {d : Attribute} (h : ∀ f ∈ functions, f.id ≠ d.id) :
    windowRefs functions d = [d] := by
  rw [windowRefs, byId?_ofWindowFunctions_eq_none h]

/-- The request for the child of window functions, where a function's column is asked for as it is.
-/
theorem sourcesOf_windowRequest
    (h : ((functions.map Alias.toAttribute).map Attribute.id).Nodup)
    {entry : Attribute × AttributeSet} (hentry : entry ∈ parent.entries)
    (hkey : ∀ f ∈ functions, f.id = entry.1.id → entry.2.attrs = [entry.1]) :
    (windowRequest functions input parent).sourcesOf entry.1 =
      .ofList (entry.2.attrs.flatMap (windowRefs functions)) := by
  rw [windowRequest, OrderedMap.isEmpty_eq_false_of_mem hentry, if_neg Bool.false_ne_true,
    LineageMap.sourcesOf_mapValues _ hentry]
  by_cases hfunction : ∃ f ∈ functions, f.id = entry.1.id
  · obtain ⟨f, hf, hid⟩ := hfunction
    have hfound := byId?_ofWindowFunctions h hf
    rw [hid] at hfound
    have hrefs : AttributeSet.ofList (entry.2.attrs.flatMap (windowRefs functions)) =
        f.child.references := by
      rw [hkey f hf hid, List.flatMap_singleton, windowRefs, hfound, AttributeSet.ofList_attrs]
    rw [hrefs, hfound]
  · have hnone : (ofWindowFunctions functions).byId? entry.1.id = none :=
      byId?_ofWindowFunctions_eq_none fun f hf hid => hfunction ⟨f, hf, hid⟩
    rw [hnone]
    rfl

/-- A window that is asked for nothing asks for the columns of its input, and then for what its
functions refer to. -/
theorem entries_windowRequest_of_isEmpty
    (h : ((input ++ functions.map Alias.toAttribute).map Attribute.id).Nodup) :
    (windowRequest functions input ∅).entries =
      input.map (fun a => (a, .singleton a)) ++
        functions.map fun f => (f.toAttribute, f.child.references) := by
  have hnodup := LineageMap.nodup_of_nodup_ids h
  rw [List.nodup_append] at hnodup
  have hidentity := LineageMap.entries_identity hnodup.1
  have hfunctions := entries_ofWindowFunctions hnodup.2.1
  rw [windowRequest, if_pos OrderedMap.isEmpty_empty, hfunctions,
    OrderedMap.entries_insertAll_of_nodup, hidentity]
  rw [hidentity, List.map_append, List.map_map, List.map_map]
  simpa [Function.comp_def] using LineageMap.nodup_of_nodup_ids h

end Lineage

namespace Plan

variable {settings : Settings} {source : Int → Attribute} {child : Plan} {n : Nat}
variable {functions : List Alias} {partition order : List Expr}

/-- A function's column is fed by what the function refers to, and a column of the input by itself.
-/
theorem feeds_window {a r : Attribute} {below : Plan} :
    (Plan.window functions child partition order).Feeds settings a below r ↔
      below = child ∧ ((∃ f ∈ functions, f.toAttribute = a ∧ r ∈ f.child.attributes) ∨
        (a ∈ child.output ∧ r = a)) := by
  constructor
  · intro hfeeds
    cases hfeeds with
    | item hlist => cases hlist
    | branch hbranches => cases hbranches
    | function hf hr => exact ⟨rfl, Or.inl ⟨_, hf, rfl, hr⟩⟩
    | beside ha => exact ⟨rfl, Or.inr ⟨ha, rfl⟩⟩
  · rintro ⟨rfl, ⟨f, hf, rfl, hr⟩ | ⟨ha, rfl⟩⟩
    · exact .function hf hr
    · exact .beside ha

/-- Window functions have identities of their own. -/
theorem WellFormed.nodup_functions
    (h : (Plan.window functions child partition order).WellFormed settings source) :
    ((functions.map Alias.toAttribute).map Attribute.id).Nodup := by
  have hids : ((child.output ++ functions.map Alias.toAttribute).map Attribute.id).Nodup :=
    h.nodup_ids
  rw [List.map_append] at hids
  exact (List.nodup_append.1 hids).2.1

/-- A request turns at a window into one for its input and for what the functions refer to. -/
theorem passes_window
    (hplan : (Plan.window functions child partition order).Resolved settings source) :
    Passes settings (.window functions child partition order) child
      (Lineage.windowRefs functions) := by
  have hwf := hplan.wellFormed
  have hbelow : child ∈ (Plan.window functions child partition order).tracedBelow settings :=
    List.mem_cons_self
  have hchild := (hplan.of_traced hbelow).wellFormed
  obtain ⟨-, hfunctions⟩ := hwf.window _ _ _ _ rfl
  have hnodup := hwf.nodup_functions
  -- what the child knows is no function's column
  have hother : ∀ {d : Attribute}, d.id ∈ child.columnIds →
      Lineage.windowRefs functions d = [d] :=
    fun hknown => Lineage.windowRefs_other fun f hf heq => (hfunctions f hf).1 (heq ▸ hknown)
  have hrefs : ∀ {f}, f ∈ functions → ∀ {r}, r ∈ Lineage.windowRefs functions f.toAttribute ↔
      r ∈ f.child.attributes := by
    intro f hf r
    rw [Lineage.windowRefs_function hnodup hf]
    exact Expr.mem_references_iff hchild.nodup_ids (hfunctions f hf).2
  have hcolumns : ∀ {d : Attribute},
      d ∈ (Plan.window functions child partition order).output →
      d ∈ child.output ∨ ∃ f ∈ functions, f.toAttribute = d :=
    fun hd => (List.mem_append.1 hd).imp_right List.mem_map.1
  constructor
  case mem_tracedBelow => exact hbelow
  case columnIds_subset =>
    intro id hid
    exact List.mem_append_right _ (List.mem_append_right _ hid)
  case mem_output =>
    intro d hd r hr
    rcases hcolumns hd with hmem | ⟨f, hf, rfl⟩
    · rw [hother (hchild.id_mem_columnIds hmem), List.mem_singleton] at hr
      exact hr ▸ hmem
    · exact (hfunctions f hf).2 r ((hrefs hf).1 hr)
  case brings_iff =>
    intro d hd asked e
    refine brings_iff_of_feeds rfl (fun hhands => by cases hhands) rfl fun below r => ?_
    rw [feeds_window]
    refine and_congr_right' ?_
    constructor
    · rintro (⟨f, hf, rfl, hr⟩ | ⟨hmem, rfl⟩)
      · exact (hrefs hf).2 hr
      · rw [hother (hchild.id_mem_columnIds hmem)]
        exact List.mem_cons_self
    · intro hr
      rcases hcolumns hd with hmem | ⟨f, hf, rfl⟩
      · rw [hother (hchild.id_mem_columnIds hmem), List.mem_singleton] at hr
        exact Or.inr ⟨hmem, hr⟩
      · exact Or.inl ⟨f, hf, rfl, (hrefs hf).1 hr⟩
  case known => exact fun d _ hknown => hother hknown
  case unknown =>
    intro d _ hunknown
    refine ⟨Lineage.windowRefs_other fun f hf heq => hunknown ?_, rfl⟩
    exact heq ▸ List.mem_append_left _ (List.mem_map_of_mem (f := Alias.id) hf)

/-- A window answers requests if the plan below does. -/
theorem answers_of_window
    (hplan : (Plan.window functions child partition order).Resolved settings source)
    (hanswers : child.AnswersRequests settings n) :
    (Plan.window functions child partition order).AnswersRequests settings (n + 1) ∧
      (Plan.window functions child partition order).AnswersInFull settings (n + 1) := by
  have hwf := hplan.wellFormed
  have hpasses := passes_window hplan
  have hchild := (hplan.of_traced hpasses.mem_tracedBelow).wellFormed
  obtain ⟨hne, hfunctions⟩ := hwf.window _ _ _ _ rfl
  have hids : ((child.output ++ functions.map Alias.toAttribute).map Attribute.id).Nodup :=
    hwf.nodup_ids
  have hnodup := hwf.nodup_functions
  refine hpasses.answers hplan hanswers ?_ ?_ ?_
  · intro hnil
    exact hne (List.map_eq_nil_iff.1 (List.append_eq_nil_iff.1 hnil).2)
  · intro request hasked haskable
    refine ⟨Lineage.windowRequest functions child.output request,
      Lineage.keys_windowRequest hasked, fun entry hentry => ?_, fun m hm => ?_⟩
    · refine Lineage.sourcesOf_windowRequest hnodup hentry fun f hf heq => ?_
      exact (haskable entry hentry).key
        (heq ▸ List.mem_append_left _ (List.mem_map_of_mem (f := Alias.id) hf))
    · rw [Lineage.extractWithin, Lineage.step_window]
      exact hm
  -- asked for all, the operator asks for the columns of its child and what its functions read
  · have hentries := Lineage.entries_windowRequest_of_isEmpty hids
    refine ⟨Lineage.windowRequest functions child.output ∅, ?_, fun a ha => ?_, fun m hm => ?_⟩
    · rw [OrderedMap.keys, hentries, List.map_append, List.map_map, List.map_map]
      exact congrArg₂ _ (List.map_id' _) rfl
    · have hmem : (a, AttributeSet.ofList (Lineage.windowRefs functions a)) ∈
          (Lineage.windowRequest functions child.output ∅).entries := by
        rw [hentries, List.mem_append, List.mem_map, List.mem_map]
        rcases List.mem_append.1 ha with hcolumn | hfunction
        · refine Or.inl ⟨a, hcolumn, ?_⟩
          rw [hpasses.known a ha (hchild.id_mem_columnIds hcolumn)]
          rfl
        · obtain ⟨f, hf, rfl⟩ := List.mem_map.1 hfunction
          refine Or.inr ⟨f, hf, ?_⟩
          rw [Lineage.windowRefs_function hnodup hf, AttributeSet.ofList_attrs]
      exact LineageMap.sourcesOf_of_mem hmem
    · rw [Lineage.extractWithin, Lineage.step_window]
      exact hm

end Plan

end ColumnTrace
