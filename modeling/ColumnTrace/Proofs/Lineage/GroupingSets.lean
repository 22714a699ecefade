import ColumnTrace.Planner.Grouping
import ColumnTrace.Proofs.Lineage.SelectedSources

/-!
# Grouping sets

A query with grouping sets is planned as an aggregation over an expansion of its source, where the
select list refers to copies of the grouping columns. The expansion computes a copy from the column
that it copies and every other column from itself, so each column of the select list is traced to
what it is traced to without the expansion, with one exception: an expansion drops markers of rows
(`sourcesOf_groupedBySets`).
-/

set_option autoImplicit false

namespace ColumnTrace

/-! ## What an expansion by grouping sets computes -/

/-- The sets group a table with these columns, and the copies of the grouping columns and the number
of the set are new columns. -/
structure GroupsColumns (output : List Attribute) (sets : List AttributeSet)
    (copies : List Attribute) (number : Attribute) : Prop where
  nonempty : sets ≠ []
  members : ∀ members ∈ sets, ∀ c ∈ members.attrs, c ∈ output
  copied : copies.length = (groupingColumns sets).length
  nodup : ((output ++ copies ++ [number]).map Attribute.id).Nodup

namespace Lineage

/-- A place at which every row has a column or nothing refers to that column. -/
theorem attrs_placeRefs {projections : List (List Expr)} {i : Nat} {c : Attribute}
    (hall : ∀ row ∈ projections, ∀ e, row[i]? = some e → ∀ a ∈ e.attributes, a = c)
    (hsome : ∃ row ∈ projections, row[i]? = some (.column c)) :
    (placeRefs projections i).attrs = [c] := by
  have hrefs : ∀ a ∈ (projections.filterMap (·[i]?)).flatMap (fun e => e.references.attrs),
      a = c := by
    intro a ha
    obtain ⟨e, he, ha⟩ := List.mem_flatMap.1 ha
    obtain ⟨row, hrow, hget⟩ := List.mem_filterMap.1 he
    exact hall row hrow e hget a (AttributeSet.mem_of_mem_ofList ha)
  have hmem : c ∈ (projections.filterMap (·[i]?)).flatMap fun e => e.references.attrs := by
    obtain ⟨row, hrow, hget⟩ := hsome
    refine List.mem_flatMap.2 ⟨.column c, List.mem_filterMap.2 ⟨row, hrow, hget⟩, ?_⟩
    exact List.mem_singleton_self c
  refine AttributeSet.attrs_eq_singleton ?_ fun a ha => hrefs a (AttributeSet.mem_of_mem_ofList ha)
  exact (AttributeSet.mem_ofList_iff fun x hx y hy _ => (hrefs x hx).trans (hrefs y hy).symm).2 hmem

end Lineage

namespace GroupsColumns

variable {output copies : List Attribute} {sets : List AttributeSet} {number : Attribute}

/-- The columns of the expansion with what they are computed from. -/
abbrev computed (output : List Attribute) (sets : List AttributeSet) (copies : List Attribute)
    (number : Attribute) : LineageMap :=
  Lineage.ofProjections (sets.map (groupingRow output (groupingColumns sets)))
    (output ++ copies ++ [number])

/-- The columns that are grouped are columns of the table. -/
theorem mem_output_of_mem_columns (h : GroupsColumns output sets copies number) {c : Attribute}
    (hc : c ∈ groupingColumns sets) : c ∈ output := by
  obtain ⟨members, hmembers, hc⟩ := List.mem_flatMap.1 (AttributeSet.mem_of_mem_ofList hc)
  exact h.members members hmembers c hc

/-- Every row has an entry for each column of the expansion. -/
theorem length_row (h : GroupsColumns output sets copies number) :
    ∀ row ∈ sets.map (groupingRow output (groupingColumns sets)),
      row.length = (output ++ copies ++ [number]).length := by
  intro row hrow
  obtain ⟨members, -, rfl⟩ := List.mem_map.1 hrow
  simp [groupingRow, h.copied]

/-- The columns of the table have identities of their own. -/
theorem nodup_output (h : GroupsColumns output sets copies number) :
    (output.map Attribute.id).Nodup := by
  have hnodup := h.nodup
  rw [List.append_assoc, List.map_append] at hnodup
  exact (List.nodup_append.1 hnodup).1

/-- A column of the expansion that is computed from one column alone is resolved to it. -/
theorem resolve_of_place (h : GroupsColumns output sets copies number) {i : Nat}
    {a c d : Attribute} (ha : (output ++ copies ++ [number])[i]? = some a) (hd : d.id = a.id)
    (hplace : (Lineage.placeRefs (sets.map (groupingRow output (groupingColumns sets))) i).attrs =
      [c]) : (computed output sets copies number).resolve d = [c] := by
  have hne : sets.map (groupingRow output (groupingColumns sets)) ≠ [] := by
    simp [h.nonempty]
  have hnodup := LineageMap.nodup_of_nodup_ids h.nodup
  have hkeys := Lineage.keys_ofProjections hne h.length_row hnodup
  have hentry := Lineage.mem_entries_ofProjections hne h.length_row hnodup ha
  have hfound := LineageMap.byId?_of_mem (by rw [hkeys]; exact h.nodup) hentry
  rw [LineageMap.resolve_of_byId? (hd ▸ hfound)]
  exact hplace

/-- A column of the table is computed from itself. -/
theorem resolve_output (h : GroupsColumns output sets copies number) {c d : Attribute}
    (hc : c ∈ output) (hd : d.id = c.id) :
    (computed output sets copies number).resolve d = [c] := by
  obtain ⟨i, hlt, hget⟩ := List.getElem_of_mem hc
  have hrow : ∀ members : AttributeSet,
      (groupingRow output (groupingColumns sets) members)[i]? = some (.column c) := by
    intro members
    rw [groupingRow, List.append_assoc, List.getElem?_append_left (by simpa using hlt)]
    simp [List.getElem?_eq_getElem hlt, hget]
  have hplace : (output ++ copies ++ [number])[i]? = some c := by
    rw [List.append_assoc, List.getElem?_append_left hlt, List.getElem?_eq_getElem hlt, hget]
  refine h.resolve_of_place hplace hd (Lineage.attrs_placeRefs ?_ ?_)
  · intro row hmem e he a ha
    obtain ⟨members, -, rfl⟩ := List.mem_map.1 hmem
    rw [hrow members] at he
    cases he
    exact List.mem_singleton.1 ha
  · obtain ⟨members, hmembers⟩ := List.exists_mem_of_ne_nil _ h.nonempty
    exact ⟨_, List.mem_map_of_mem hmembers, hrow members⟩

/-- A copy is computed from the column that it copies, as some set has that column. -/
theorem resolve_copy (h : GroupsColumns output sets copies number) {c copy d : Attribute}
    (hcopy : (c, copy) ∈ (groupingColumns sets).zip copies) (hd : d.id = copy.id) :
    (computed output sets copies number).resolve d = [c] := by
  obtain ⟨i, hlt, hget⟩ := List.getElem_of_mem hcopy
  simp only [List.length_zip, h.copied, Nat.min_self] at hlt
  simp only [List.getElem_zip, Prod.mk.injEq] at hget
  have hcolumn : (groupingColumns sets)[i]? = some c := by
    rw [List.getElem?_eq_getElem hlt, hget.1]
  have hrow : ∀ members : AttributeSet,
      (groupingRow output (groupingColumns sets) members)[output.length + i]? =
        some (if members.contains c then .column c else .literal "NULL") := by
    intro members
    rw [groupingRow, List.append_assoc, List.getElem?_append_right (by simp),
      List.getElem?_append_left (by simpa using hlt)]
    simp [hcolumn]
  have hplace : (output ++ copies ++ [number])[output.length + i]? = some copy := by
    have hlt' : i < copies.length := h.copied ▸ hlt
    rw [List.append_assoc, List.getElem?_append_right (by simp),
      List.getElem?_append_left (by simpa using hlt')]
    simp [List.getElem?_eq_getElem hlt', hget.2]
  refine h.resolve_of_place hplace hd (Lineage.attrs_placeRefs ?_ ?_)
  · intro row hmem e he a ha
    obtain ⟨members, -, rfl⟩ := List.mem_map.1 hmem
    rw [hrow members] at he
    cases he
    split at ha
    · exact List.mem_singleton.1 ha
    · cases ha
  · have hc : c ∈ groupingColumns sets := List.mem_of_getElem? hcolumn
    obtain ⟨members, hmembers, hmem⟩ := List.mem_flatMap.1 (AttributeSet.mem_of_mem_ofList hc)
    refine ⟨_, List.mem_map_of_mem hmembers, ?_⟩
    have hcontains : members.contains c = true :=
      List.any_eq_true.2 ⟨c, hmem, by simp⟩
    rw [hrow members, if_pos hcontains]

/-- Any other column passes the expansion as it is, unless it is a marker of rows. -/
theorem byId?_other (h : GroupsColumns output sets copies number) {d : Attribute}
    (hd : d.id ∉ (output ++ copies ++ [number]).map Attribute.id) :
    (computed output sets copies number).byId? d.id = none := by
  rw [LineageMap.byId?_eq_none_iff]
  intro key hkey heq
  rw [Lineage.keys_ofProjections (by simp [h.nonempty]) h.length_row
    (LineageMap.nodup_of_nodup_ids h.nodup)] at hkey
  exact hd (heq ▸ List.mem_map_of_mem hkey)

/-- A column of the table is still traced to itself where it gives way to its copy. -/
theorem resolve_exchange (h : GroupsColumns output sets copies number) {c d : Attribute}
    (hc : c ∈ output) (hd : d.id = (c.exchange (copyOf? (groupingColumns sets) copies)).id) :
    (computed output sets copies number).resolve d = [c] := by
  rw [Attribute.exchange] at hd
  cases hcopy : copyOf? (groupingColumns sets) copies c.id with
  | none =>
    rw [hcopy] at hd
    exact h.resolve_output hc hd
  | some copy =>
    rw [hcopy] at hd
    obtain ⟨pair, hfound, rfl⟩ := Option.map_eq_some_iff.1 hcopy
    have hpair := List.mem_of_find?_eq_some hfound
    have hid : pair.1.id = c.id := by simpa using List.find?_some hfound
    have hcolumn := h.mem_output_of_mem_columns (List.of_mem_zip hpair).1
    have heq : pair.1 = c := List.inj_on_of_nodup_map h.nodup_output hcolumn hc hid
    exact h.resolve_copy (heq ▸ hpair) hd

/-- A column stays or gives way to a copy. -/
theorem exchange_mem {c : Attribute} (hc : c ∈ output) :
    c.exchange (copyOf? (groupingColumns sets) copies) ∈ output ∨
      c.exchange (copyOf? (groupingColumns sets) copies) ∈ copies := by
  rw [Attribute.exchange]
  cases hcopy : copyOf? (groupingColumns sets) copies c.id with
  | none => exact Or.inl hc
  | some copy =>
    obtain ⟨pair, hfound, rfl⟩ := Option.map_eq_some_iff.1 hcopy
    exact Or.inr (List.of_mem_zip (List.mem_of_find?_eq_some hfound)).2

/-- Different columns do not give way to one. -/
theorem eq_of_exchange_id_eq (h : GroupsColumns output sets copies number) {c d : Attribute}
    (hc : c ∈ output) (hd : d ∈ output)
    (hid : (c.exchange (copyOf? (groupingColumns sets) copies)).id =
      (d.exchange (copyOf? (groupingColumns sets) copies)).id) : c = d := by
  have hsame := (h.resolve_exchange hc rfl).symm.trans (h.resolve_exchange hd hid)
  exact (List.cons.inj hsame).1

end GroupsColumns

/-! ## What a select list depends on -/

/-- The marker of rows has a name. -/
theorem Attribute.isNamed_of_isCountMarker {a : Attribute} (h : a.isCountMarker = true) :
    a.isNamed = true := by
  obtain ⟨id, name, qualifier⟩ := a
  cases name with
  | none => cases h
  | some name => rfl

/-- Under the name of the marker a column is one. -/
theorem Alias.isCountMarker_countName (f : Alias) :
    (f.toAttribute.withName countName).isCountMarker = true := by
  show (Text.lower countName == countName) = true
  decide

/-- What an entry of a select list over a table depends on: a column of the table, a column that
subqueries lend and that bears the same name if it is one of the table's, or the marker of its rows.
None of it is one of the new columns. -/
inductive SelectSource (output : List Attribute) (new : List Int) (x : Attribute) : Prop
  | own (hmem : x ∈ output)
  | lent (hmarked : x.isSubqueryMarked = true) (hnamed : x.isNamed = true) (hnew : x.id ∉ new)
      (hname : ∀ c ∈ output, c.id = x.id → c.name = x.name)
  | rows (hcount : x.isCountMarker = true) (hmarked : x.isSubqueryMarked = false)
      (hnew : x.id ∉ new) (hid : x.id ∉ output.map Attribute.id)

/-- A select list of columns of a table and of named expressions over them. The names stand for new
columns, and the subqueries have a lineage where `below` traces them. -/
structure SelectsColumns (below : Lineage.Below) (output : List Attribute) (new : List Int)
    (items : List SelectItem) : Prop where
  columns : ∀ a, .column a ∈ items → a ∈ output
  reads : ∀ f, .aliased f ∈ items → ∀ a ∈ f.child.attributes, a ∈ output
  named : ∀ f, .aliased f ∈ items → f.name.isSome = true
  fresh : ∀ f, .aliased f ∈ items → f.id ∉ output.map Attribute.id ∧ f.id ∉ new
  distinct : ∀ f g, .aliased f ∈ items → .aliased g ∈ items → f.id = g.id → f = g
  traced : ∀ item ∈ items, ∀ query ∈ item.tracedSubqueries, ∃ m, (below query ∅).result = .ok m
  lent : ∀ item ∈ items, ∀ b, item.Borrows below b → b.isNamed = true ∧ b.id ∉ new ∧
    ∀ c ∈ output, c.id = b.id → c.name = b.name

namespace SelectsColumns

variable {below : Lineage.Below} {output : List Attribute} {new : List Int}
variable {items : List SelectItem} {item other : SelectItem} {pair : Attribute × AttributeSet}

/-- Whatever an entry depends on is of one of these sorts. -/
theorem selectSource (h : SelectsColumns below output new items) (hitem : item ∈ items)
    (hpair : (Lineage.itemSources below item).result = .ok pair) :
    ∀ x ∈ pair.2.attrs, SelectSource output new x := by
  intro x hx
  rcases Lineage.mem_itemSources hpair hx with hread | ⟨b, hb, rfl⟩ | ⟨f, rfl, rfl⟩
  · refine .own ?_
    cases item with
    | column a => exact List.mem_singleton.1 hread ▸ h.columns a hitem
    | aliased f =>
      cases f
      exact h.reads _ hitem x hread
  · obtain ⟨hnamed, hnew, hname⟩ := h.lent item hitem b hb
    exact .lent (Attribute.isSubqueryMarked_markSubquery b) hnamed hnew hname
  · obtain ⟨hid, hnew⟩ := h.fresh f hitem
    exact .rows (Alias.isCountMarker_countName f) rfl hnew hid

/-- Every entry has sources. -/
theorem exists_itemSources (h : SelectsColumns below output new items) (hitem : item ∈ items) :
    ∃ pair, (Lineage.itemSources below item).result = .ok pair := by
  cases item with
  | column a => exact ⟨_, rfl⟩
  | aliased f =>
    obtain ⟨sources, hsources⟩ := Lineage.exists_aliasSources (h.traced _ hitem)
    exact ⟨_, Traced.result_bind_of_ok hsources⟩

/-- The select list has a lineage. -/
theorem exists_selected (h : SelectsColumns below output new items) :
    ∃ selected, (Lineage.ofSelectList below items).result = .ok selected := by
  obtain ⟨pairs, hpairs⟩ := exists_forall₂ fun item hitem => h.exists_itemSources hitem
  exact ⟨_, Lineage.ofSelectList_eq_ok.2 ⟨pairs, hpairs, rfl⟩⟩

/-- An identity tells the entry. -/
theorem eq_of_toAttribute_eq (h : SelectsColumns below output new items) (hitem : item ∈ items)
    (hother : other ∈ items) (heq : item.toAttribute = other.toAttribute) : item = other := by
  have hid := congrArg Attribute.id heq
  cases item with
  | column a =>
    cases other with
    | column b => exact congrArg _ heq
    | aliased g =>
      refine absurd ?_ (h.fresh g hother).1
      exact List.mem_map.2 ⟨a, h.columns a hitem, hid⟩
  | aliased f =>
    cases other with
    | column b =>
      refine absurd ?_ (h.fresh f hitem).1
      exact List.mem_map.2 ⟨b, h.columns b hother, hid.symm⟩
    | aliased g => exact congrArg _ (h.distinct f g hitem hother hid)

end SelectsColumns

/-! ## The select list over the expansion -/

namespace GroupsColumns

variable {below : Lineage.Below} {output copies : List Attribute} {sets : List AttributeSet}
variable {number : Attribute} {items : List SelectItem} {item : SelectItem}
variable {pair : Attribute × AttributeSet} {x y z e : Attribute} {qualifier : List String}

/-- The identities of the columns that the expansion adds. -/
def newIds (copies : List Attribute) (number : Attribute) : List Int :=
  (copies ++ [number]).map Attribute.id

/-- What the select list depends on over the expansion, where it depends on `x` over the table. -/
def StandsFor (output : List Attribute) (sets : List AttributeSet) (copies : List Attribute)
    (y x : Attribute) : Prop :=
  (x ∈ output ∧ y = x.exchange (copyOf? (groupingColumns sets) copies)) ∨ y = x

/-- The sources over the expansion stand for those over the table, and for all of them. -/
structure Mirrors (output : List Attribute) (sets : List AttributeSet) (copies : List Attribute)
    (exchanged sources : AttributeSet) : Prop where
  back : ∀ y ∈ exchanged.attrs, ∃ x ∈ sources.attrs, StandsFor output sets copies y x
  forth : ∀ x ∈ sources.attrs, ∃ y ∈ exchanged.attrs, StandsFor output sets copies y x

theorem Mirrors.refl (sources : AttributeSet) : Mirrors output sets copies sources sources :=
  ⟨fun y hy => ⟨y, hy, Or.inr rfl⟩, fun x hx => ⟨x, hx, Or.inr rfl⟩⟩

/-- What stands for a source over the expansion is resolved as the source is. -/
theorem resolve_of_standsFor (h : GroupsColumns output sets copies number)
    (hy : StandsFor output sets copies y x) :
    (computed output sets copies number).resolve y =
      (computed output sets copies number).resolve x := by
  rcases hy with ⟨hx, rfl⟩ | rfl
  · rw [h.resolve_exchange hx rfl, h.resolve_output hx rfl]
  · rfl

/-- What is neither of the table nor new is unknown to the expansion. -/
theorem not_mem_ids (hold : x.id ∉ output.map Attribute.id) (hnew : x.id ∉ newIds copies number) :
    x.id ∉ (output ++ copies ++ [number]).map Attribute.id := by
  rw [List.append_assoc, List.map_append, List.mem_append, not_or]
  exact ⟨hold, hnew⟩

/-- The expansion computes what a select list depends on from the table's column of that name, it
drops the marker of rows, and it passes on what subqueries lend. -/
theorem resolve_selectSource (h : GroupsColumns output sets copies number)
    (hx : SelectSource output (newIds copies number) x) :
    (∃ c ∈ output, c.id = x.id ∧ c.name = x.name ∧
      (computed output sets copies number).resolve x = [c]) ∨
    (x.id ∉ output.map Attribute.id ∧ x.isCountMarker = true ∧
      (computed output sets copies number).resolve x = []) ∨
    (x.id ∉ output.map Attribute.id ∧ x.isCountMarker = false ∧ x.isSubqueryMarked = true ∧
      (computed output sets copies number).resolve x = [x]) := by
  by_cases hold : x.id ∈ output.map Attribute.id
  · obtain ⟨c, hc, hid⟩ := List.mem_map.1 hold
    refine Or.inl ⟨c, hc, hid, ?_, h.resolve_output hc hid.symm⟩
    cases hx with
    | own hmem => rw [List.inj_on_of_nodup_map h.nodup_output hc hmem hid]
    | lent _ _ _ hname => exact hname c hc hid
    | rows _ _ _ hfresh => exact absurd hold hfresh
  · have hnew : x.id ∉ newIds copies number := by
      cases hx with
      | own hmem => exact absurd (List.mem_map_of_mem hmem) hold
      | lent _ _ hnew _ => exact hnew
      | rows _ _ hnew _ => exact hnew
    have hresolve := LineageMap.resolve_of_unknown (h.byId?_other (not_mem_ids hold hnew))
    cases hcount : x.isCountMarker with
    | true => exact Or.inr (Or.inl ⟨hold, rfl, by rw [hresolve, if_pos hcount]⟩)
    | false =>
      refine Or.inr (Or.inr ⟨hold, rfl, ?_, by simp [hresolve, hcount]⟩)
      cases hx with
      | own hmem => exact absurd (List.mem_map_of_mem hmem) hold
      | lent hmarked _ _ _ => exact hmarked
      | rows hmarker _ _ _ =>
        rw [hmarker] at hcount
        cases hcount

/-- Through the expansion the table answers as without it, markers of rows apart. -/
theorem answer_resolve_iff (h : GroupsColumns output sets copies number)
    (hx : SelectSource output (newIds copies number) x) :
    (∃ z ∈ (computed output sets copies number).resolve x,
      LineageMap.answer? output qualifier z = some e) ↔
    LineageMap.answer? output qualifier x = some e ∧
      (e.id ∈ output.map Attribute.id ∨ e.isCountMarker = false) := by
  have hknown : ∀ {a : Attribute}, a.id ∈ output.map Attribute.id →
      LineageMap.answer? output qualifier a = some (a.withQualifier qualifier) := by
    intro a ha
    obtain ⟨c, hc, hid⟩ := List.mem_map.1 ha
    rw [LineageMap.answer?, if_pos (List.any_eq_true.2 ⟨c, hc, by simp [hid]⟩)]
  have hunknown : x.id ∉ output.map Attribute.id → ¬ (output.any (·.id == x.id)) = true := by
    intro hold hany
    obtain ⟨c, hc, hid⟩ := List.any_eq_true.1 hany
    exact hold (List.mem_map.2 ⟨c, hc, by simpa using hid⟩)
  rcases h.resolve_selectSource hx with ⟨c, hc, hid, hname, hresolve⟩ | ⟨hold, hcount, hresolve⟩ |
    ⟨hold, hcount, hmarked, hresolve⟩
  · have hmem : x.id ∈ output.map Attribute.id := List.mem_map.2 ⟨c, hc, hid⟩
    have hsame : c.withQualifier qualifier = x.withQualifier qualifier := by
      simp only [Attribute.withQualifier, hid, hname]
    -- a column of the table: its copy comes from it alone
    rw [hresolve, hknown hmem]
    simp only [List.mem_singleton, exists_eq_left, hknown (hid ▸ hmem), hsame]
    constructor
    · intro he
      exact ⟨he, Or.inl (Option.some.inj he ▸ hmem)⟩
    · exact And.left
  · rw [hresolve]
    -- a marker of rows: the expansion has no such column and drops it
    simp only [List.not_mem_nil, false_and, exists_false, false_iff, not_and, not_or]
    intro he
    -- whether it is marked or not, the marker of rows keeps its name
    have hkept : e.isCountMarker = x.isCountMarker := by
      rw [LineageMap.answer?, if_neg (hunknown hold), if_pos hcount] at he
      split at he
      · exact Option.some.inj he ▸ rfl
      · exact Option.some.inj he ▸ rfl
    rw [LineageMap.id_of_answer? he, hkept, hcount]
    exact ⟨hold, by simp⟩
  · rw [hresolve]
    simp only [List.mem_singleton, exists_eq_left, iff_self_and]
    intro he
    rw [LineageMap.answer?, if_neg (hunknown hold), if_pos hmarked] at he
    rw [← Option.some.inj he]
    exact Or.inr hcount

/-- The references of an expression over the expansion stand for those over the table. -/
theorem mem_references_substitute (h : GroupsColumns output sets copies number) {child : Expr}
    (hreads : ∀ a ∈ child.attributes, a ∈ output) :
    y ∈ (child.substitute (copyOf? (groupingColumns sets) copies)).references.attrs ↔
      ∃ x ∈ child.references.attrs,
        y = x.exchange (copyOf? (groupingColumns sets) copies) := by
  rw [Expr.references, Expr.attributes_substitute, AttributeSet.mem_ofList_iff]
  · simp only [List.mem_map, Expr.mem_references_iff h.nodup_output hreads, eq_comm]
  · intro a ha b hb hid
    obtain ⟨c, hc, rfl⟩ := List.mem_map.1 ha
    obtain ⟨d, hd, rfl⟩ := List.mem_map.1 hb
    rw [h.eq_of_exchange_id_eq (hreads c hc) (hreads d hd) hid]

/-- A new column is none of those that an expression reads over the expansion. -/
theorem not_mem_references_substitute (h : GroupsColumns output sets copies number) {child : Expr}
    {id : Int} (hreads : ∀ a ∈ child.attributes, a ∈ output) (hold : id ∉ output.map Attribute.id)
    (hnew : id ∉ newIds copies number) :
    id ∉ (child.substitute (copyOf? (groupingColumns sets) copies)).references.attrs.map
      Attribute.id := by
  intro hmem
  obtain ⟨y, hy, hid⟩ := List.mem_map.1 hmem
  obtain ⟨x, hx, rfl⟩ := (h.mem_references_substitute hreads).1 hy
  rcases exchange_mem (hreads x (AttributeSet.mem_of_mem_ofList hx)) with hmem | hmem
  · exact hold (List.mem_map.2 ⟨_, hmem, hid⟩)
  · exact hnew (List.mem_map.2 ⟨_, List.mem_append_left _ hmem, hid⟩)

/-- What an expression reads is exchanged column by column, and the marker of rows stays. -/
theorem mirrors_directSources (h : GroupsColumns output sets copies number) {child : Expr}
    {name : Label} {id : Int} (hreads : ∀ a ∈ child.attributes, a ∈ output)
    (hold : id ∉ output.map Attribute.id) (hnew : id ∉ newIds copies number) :
    Mirrors output sets copies
      (Alias.mk (child.substitute (copyOf? (groupingColumns sets) copies)) name id).directSources
      (Alias.mk child name id).directSources := by
  have hfresh : id ∉ child.references.attrs.map Attribute.id := by
    intro hmem
    obtain ⟨a, ha, hid⟩ := List.mem_map.1 hmem
    exact hold (List.mem_map.2 ⟨a, hreads a (AttributeSet.mem_of_mem_ofList ha), hid⟩)
  have hplain := fun x => Alias.mem_directSources (f := .mk child name id) (x := x) hfresh
  have hcopied := fun y => Alias.mem_directSources
    (f := .mk (child.substitute (copyOf? (groupingColumns sets) copies)) name id) (x := y)
    (h.not_mem_references_substitute hreads hold hnew)
  have hcounts := Expr.countsRows_substitute (copyOf? (groupingColumns sets) copies) child
  refine ⟨fun y hy => ?_, fun x hx => ?_⟩
  · rcases (hcopied y).1 hy with hy | ⟨hcount, rfl⟩
    · obtain ⟨x, hx, rfl⟩ := (h.mem_references_substitute hreads).1 hy
      refine ⟨x, (hplain x).2 (Or.inl hx), Or.inl ⟨?_, rfl⟩⟩
      exact hreads x (AttributeSet.mem_of_mem_ofList hx)
    · exact ⟨_, (hplain _).2 (Or.inr ⟨hcounts ▸ hcount, rfl⟩), Or.inr rfl⟩
  · rcases (hplain x).1 hx with hx | ⟨hcount, rfl⟩
    · have hread := (h.mem_references_substitute hreads).2 ⟨x, hx, rfl⟩
      refine ⟨_, (hcopied _).2 (Or.inl hread), Or.inl ⟨?_, rfl⟩⟩
      exact hreads x (AttributeSet.mem_of_mem_ofList hx)
    · exact ⟨_, (hcopied _).2 (Or.inr ⟨hcounts.symm ▸ hcount, rfl⟩), Or.inr rfl⟩

/-- Over the expansion an entry of the select list has the sources that stand for its sources over
the table. -/
theorem exists_itemSources_substitute (h : GroupsColumns output sets copies number)
    (hitems : SelectsColumns below output (newIds copies number) items) (hitem : item ∈ items)
    (hpair : (Lineage.itemSources below item).result = .ok pair) :
    ∃ expanded, (Lineage.itemSources below
        (item.substitute (copyOf? (groupingColumns sets) copies))).result = .ok expanded ∧
      Mirrors output sets copies expanded.2 pair.2 := by
  cases item with
  | column a =>
    have ha := hitems.columns a hitem
    cases Except.ok.inj hpair
    refine ⟨_, rfl, fun y hy => ⟨a, List.mem_singleton_self a, Or.inl ⟨ha, ?_⟩⟩,
      fun x hx => ⟨_, List.mem_singleton_self _, ?_⟩⟩
    · exact List.mem_singleton.1 hy
    · rw [List.mem_singleton.1 hx]
      exact Or.inl ⟨ha, rfl⟩
  | aliased f =>
    obtain ⟨child, name, id⟩ := f
    by_cases hnone : child.attributes = []
    · -- nothing is exchanged, and the subqueries are the same
      have hsame : Lineage.aliasSources below
          (.mk (child.substitute (copyOf? (groupingColumns sets) copies)) name id) =
            Lineage.aliasSources below (.mk child name id) := by
        refine Alias.aliasSources_congr rfl ?_ (Expr.subqueries_substitute _ child)
          (Expr.countsRows_substitute _ child)
        rw [Alias.child, Alias.child, Expr.references, Expr.references,
          Expr.attributes_substitute, hnone, List.map_nil]
      refine ⟨pair, ?_, .refl pair.2⟩
      rw [SelectItem.substitute, Lineage.itemSources, hsame]
      exact hpair
    · have hsome : (child.substitute (copyOf? (groupingColumns sets) copies)).attributes ≠ [] := by
        simp [Expr.attributes_substitute, hnone]
      have hplain : (Lineage.itemSources below (.aliased (.mk child name id))).result =
          .ok (⟨id, name, []⟩, (Alias.mk child name id).directSources) :=
        Traced.result_bind_of_ok (Alias.result_aliasSources hnone)
      cases Except.ok.inj (hplain.symm.trans hpair)
      obtain ⟨hold, hnew⟩ := hitems.fresh _ hitem
      refine ⟨_, Traced.result_bind_of_ok (Alias.result_aliasSources hsome), ?_⟩
      exact h.mirrors_directSources (hitems.reads _ hitem) hold hnew

/-- The expansion knows its own columns. -/
theorem byId?_new (h : GroupsColumns output sets copies number)
    (hid : x.id ∈ (output ++ copies ++ [number]).map Attribute.id) :
    (computed output sets copies number).byId? x.id ≠ none := by
  rw [Ne, LineageMap.byId?_eq_none_iff, Lineage.keys_ofProjections (by simp [h.nonempty])
    h.length_row (LineageMap.nodup_of_nodup_ids h.nodup)]
  intro hnone
  obtain ⟨key, hkey, heq⟩ := List.mem_map.1 hid
  exact hnone key hkey heq

/-- The expansion knows what stands for a column of the table. -/
theorem byId?_standsFor (h : GroupsColumns output sets copies number) (hx : x ∈ output)
    (hy : StandsFor output sets copies y x) :
    (computed output sets copies number).byId? y.id ≠ none := by
  refine h.byId?_new ?_
  rw [List.append_assoc, List.map_append, List.map_append]
  rcases hy with ⟨-, rfl⟩ | rfl
  · have hexchanged : x.exchange (copyOf? (groupingColumns sets) copies) ∈ output ∨
        x.exchange (copyOf? (groupingColumns sets) copies) ∈ copies := exchange_mem hx
    rcases hexchanged with hmem | hmem
    · exact List.mem_append_left _ (List.mem_map_of_mem hmem)
    · exact List.mem_append_right _ (List.mem_append_left _ (List.mem_map_of_mem hmem))
  · exact List.mem_append_left _ (List.mem_map_of_mem hx)

/-- Everything that the expansion computes is computed from columns of the table. -/
theorem all_computed (h : GroupsColumns output sets copies number) :
    (computed output sets copies number).All (· ∈ output) := by
  refine Lineage.all_ofProjections (fun row hrow e he a ha => ?_) _
  obtain ⟨members, -, rfl⟩ := List.mem_map.1 hrow
  simp only [groupingRow, List.mem_append, List.mem_map, List.mem_singleton] at he
  rcases he with (⟨c, hc, rfl⟩ | ⟨c, hc, rfl⟩) | rfl
  · exact List.mem_singleton.1 ha ▸ hc
  · split at ha
    · exact List.mem_singleton.1 ha ▸ h.mem_output_of_mem_columns hc
    · cases ha
  · cases ha

end GroupsColumns

namespace GroupsColumns

open Lineage

variable {settings : Settings} {output copies : List Attribute} {sets : List AttributeSet}
variable {number : Attribute} {items : List SelectItem}

/-- Over the expansion an identity tells the entry, too. -/
theorem eq_of_substitute_eq {below : Below} (h : GroupsColumns output sets copies number)
    (hitems : SelectsColumns below output (newIds copies number) items) {item other : SelectItem}
    (hitem : item ∈ items) (hother : other ∈ items)
    (heq : (item.substitute (copyOf? (groupingColumns sets) copies)).toAttribute.id =
      (other.substitute (copyOf? (groupingColumns sets) copies)).toAttribute.id) :
    item = other := by
  have hcolumn : ∀ {a : Attribute} {f : Alias}, .column a ∈ items → .aliased f ∈ items →
      (a.exchange (copyOf? (groupingColumns sets) copies)).id ≠ f.id := by
    intro a f ha hf hid
    obtain ⟨hold, hnew⟩ := hitems.fresh f hf
    rcases exchange_mem (hitems.columns a ha) with hmem | hmem
    · exact hold (List.mem_map.2 ⟨_, hmem, hid⟩)
    · exact hnew (List.mem_map.2 ⟨_, List.mem_append_left _ hmem, hid⟩)
  cases item with
  | column a =>
    cases other with
    | column b =>
      exact congrArg _ (h.eq_of_exchange_id_eq (hitems.columns a hitem) (hitems.columns b hother)
        heq)
    | aliased g =>
      cases g
      exact absurd heq (hcolumn hitem hother)
  | aliased f =>
    cases f
    cases other with
    | column b => exact absurd heq.symm (hcolumn hother hitem)
    | aliased g =>
      cases g
      exact congrArg _ (hitems.distinct _ _ hitem hother heq)

/-- The select list over the expansion has an entry for each column that it has over the table. -/
theorem exists_expanded {below : Below} {selected expanded : LineageMap}
    (h : GroupsColumns output sets copies number)
    (hitems : SelectsColumns below output (newIds copies number) items)
    (hselected : (ofSelectList below items).result = .ok selected)
    (hexpanded : (ofSelectList below
      (items.map (·.substitute (copyOf? (groupingColumns sets) copies)))).result = .ok expanded)
    {item : SelectItem} (hitem : item ∈ items) :
    ∃ sources exchanged : AttributeSet,
      (itemSources below item).result = .ok (item.toAttribute, sources) ∧
      (item.toAttribute, sources) ∈ selected.entries ∧
      ((item.substitute (copyOf? (groupingColumns sets) copies)).toAttribute, exchanged) ∈
        expanded.entries ∧
      Mirrors output sets copies exchanged sources := by
  obtain ⟨⟨key, sources⟩, hpair⟩ := hitems.exists_itemSources hitem
  obtain ⟨⟨copiedKey, exchanged⟩, hcopied, hmirrors⟩ :=
    h.exists_itemSources_substitute hitems hitem hpair
  obtain rfl : key = item.toAttribute := itemSources_fst hpair
  obtain rfl : copiedKey = _ := itemSources_fst hcopied
  refine ⟨sources, exchanged, hpair, ?_, ?_, hmirrors⟩
  · refine mem_entries_of_item hselected (fun other hother heq => ?_) hitem hpair
    exact hitems.eq_of_toAttribute_eq hother hitem heq
  · refine mem_entries_of_item hexpanded ?_ (List.mem_map_of_mem hitem) hcopied
    intro other hother heq
    obtain ⟨first, hfirst, rfl⟩ := List.mem_map.1 hother
    rw [h.eq_of_substitute_eq hitems hfirst hitem (congrArg Attribute.id heq)]

/-- Whatever the select list asks of the expansion is one of its columns or has a name, and then so
has the column that asks for it. -/
theorem known_or_named {below : Below} {item : SelectItem} {sources : AttributeSet}
    {x y : Attribute} (h : GroupsColumns output sets copies number)
    (hitems : SelectsColumns below output (newIds copies number) items) (hitem : item ∈ items)
    (hsources : (itemSources below item).result = .ok (item.toAttribute, sources))
    (hx : x ∈ sources.attrs) (hy : StandsFor output sets copies y x) :
    (computed output sets copies number).byId? y.id ≠ none ∨ (y.isNamed = true ∧
      (item.substitute (copyOf? (groupingColumns sets) copies)).toAttribute.isNamed = true) := by
  by_cases hmem : x ∈ output
  · exact Or.inl (h.byId?_standsFor hmem hy)
  · obtain rfl : y = x := hy.resolve_left fun hold => hmem hold.1
    refine Or.inr ⟨?_, ?_⟩
    · cases hitems.selectSource hitem hsources y hx with
      | own hown => exact absurd hown hmem
      | lent _ hnamed _ _ => exact hnamed
      | rows hcount _ _ _ => exact Attribute.isNamed_of_isCountMarker hcount
    · cases item with
      | column a =>
        obtain rfl : sources = .singleton a := congrArg Prod.snd (Except.ok.inj hsources).symm
        exact absurd (List.mem_singleton.1 hx ▸ hitems.columns a hitem) hmem
      | aliased f =>
        obtain ⟨child, name, id⟩ := f
        exact hitems.named _ hitem

/-- What the table is asked for through the expansion: its own columns, and what subqueries lend. -/
theorem mem_resolve {x z : Attribute} (h : GroupsColumns output sets copies number)
    (hx : SelectSource output (newIds copies number) x)
    (hz : z ∈ (computed output sets copies number).resolve x) :
    z.id = x.id ∧ (z ∈ output ∨ z.isSubqueryMarked = true) ∧
      (computed output sets copies number).resolve x = [z] := by
  rcases h.resolve_selectSource hx with ⟨c, hc, hid, -, hresolve⟩ | ⟨-, -, hresolve⟩ |
    ⟨-, -, hmarked, hresolve⟩
  · rw [hresolve] at hz ⊢
    rw [List.mem_singleton.1 hz]
    exact ⟨hid, Or.inl hc, rfl⟩
  · rw [hresolve] at hz
    cases hz
  · rw [hresolve] at hz ⊢
    rw [List.mem_singleton.1 hz]
    exact ⟨rfl, Or.inr hmarked, rfl⟩

/-- Through the expansion the table answers an entry as without it, markers of rows apart. -/
theorem exists_answer_iff {sources exchanged : AttributeSet} {e : Attribute}
    {qualifier : List String} (h : GroupsColumns output sets copies number)
    (hsources : ∀ x ∈ sources.attrs, SelectSource output (newIds copies number) x)
    (hmirrors : Mirrors output sets copies exchanged sources) :
    (∃ z ∈ (AttributeSet.ofList
        (exchanged.attrs.flatMap (computed output sets copies number).resolve)).attrs,
      LineageMap.answer? output qualifier z = some e) ↔
    (∃ x ∈ sources.attrs, LineageMap.answer? output qualifier x = some e) ∧
      (e.id ∈ output.map Attribute.id ∨ e.isCountMarker = false) := by
  have hresolved : ∀ z, z ∈ exchanged.attrs.flatMap (computed output sets copies number).resolve ↔
      ∃ x ∈ sources.attrs, z ∈ (computed output sets copies number).resolve x := by
    intro z
    rw [List.mem_flatMap]
    constructor
    · rintro ⟨y, hy, hz⟩
      obtain ⟨x, hx, hstands⟩ := hmirrors.back y hy
      exact ⟨x, hx, h.resolve_of_standsFor hstands ▸ hz⟩
    · rintro ⟨x, hx, hz⟩
      obtain ⟨y, hy, hstands⟩ := hmirrors.forth x hx
      exact ⟨y, hy, (h.resolve_of_standsFor hstands).symm ▸ hz⟩
  have hset : ∀ z, z ∈ (AttributeSet.ofList
      (exchanged.attrs.flatMap (computed output sets copies number).resolve)).attrs ↔
      ∃ x ∈ sources.attrs, z ∈ (computed output sets copies number).resolve x := by
    intro z
    rw [AttributeSet.mem_ofList_iff, hresolved]
    -- what a column is resolved to keeps its identity
    intro z hz w hw hid
    obtain ⟨x, hx, hz⟩ := (hresolved z).1 hz
    obtain ⟨y, hy, hw⟩ := (hresolved w).1 hw
    obtain ⟨hzid, -, hxz⟩ := h.mem_resolve (hsources x hx) hz
    obtain ⟨hwid, -, hyw⟩ := h.mem_resolve (hsources y hy) hw
    obtain rfl := AttributeSet.eq_of_id_eq hx hy (hzid.symm.trans (hid.trans hwid))
    exact (List.cons.inj (hxz.symm.trans hyw)).1
  simp only [hset]
  constructor
  · rintro ⟨z, ⟨x, hx, hz⟩, hanswer⟩
    obtain ⟨hplain, hcount⟩ := (h.answer_resolve_iff (hsources x hx)).1 ⟨z, hz, hanswer⟩
    exact ⟨⟨x, hx, hplain⟩, hcount⟩
  · rintro ⟨⟨x, hx, hplain⟩, hcount⟩
    obtain ⟨z, hz, hanswer⟩ := (h.answer_resolve_iff (hsources x hx)).2 ⟨hplain, hcount⟩
    exact ⟨z, ⟨x, hx, hz⟩, hanswer⟩

/-- Whatever the select list asks of the expansion stands for what it asks of the table. -/
theorem exists_of_mem_expanded {below : Below} {selected expanded : LineageMap}
    (h : GroupsColumns output sets copies number)
    (hitems : SelectsColumns below output (newIds copies number) items)
    (hselected : (ofSelectList below items).result = .ok selected)
    (hexpanded : (ofSelectList below
      (items.map (·.substitute (copyOf? (groupingColumns sets) copies)))).result = .ok expanded)
    {entry : Attribute × AttributeSet} (hentry : entry ∈ expanded.entries) :
    ∃ item ∈ items, ∃ sources : AttributeSet,
      (itemSources below item).result = .ok (item.toAttribute, sources) ∧
      entry.1 = (item.substitute (copyOf? (groupingColumns sets) copies)).toAttribute ∧
      ∀ y ∈ entry.2.attrs, ∃ x ∈ sources.attrs, StandsFor output sets copies y x := by
  obtain ⟨copied, hcopied, hok⟩ := exists_item_of_mem_entries hexpanded hentry
  obtain ⟨item, hitem, rfl⟩ := List.mem_map.1 hcopied
  obtain ⟨sources, exchanged, hsources, -, hmem, hmirrors⟩ :=
    h.exists_expanded hitems hselected hexpanded hitem
  have hkey := itemSources_fst hok
  have hsame : entry.2 = exchanged := by
    rw [← LineageMap.sourcesOf_of_mem hentry, hkey]
    exact LineageMap.sourcesOf_of_mem hmem
  exact ⟨item, hitem, sources, hsources, hkey, hsame ▸ hmirrors.back⟩

/-- The table has to compare nothing by name for the select list. -/
theorem all_request {below : Below} {selected expanded : LineageMap}
    (h : GroupsColumns output sets copies number)
    (hitems : SelectsColumns below output (newIds copies number) items)
    (hselected : (ofSelectList below items).result = .ok selected)
    (hexpanded : (ofSelectList below
      (items.map (·.substitute (copyOf? (groupingColumns sets) copies)))).result = .ok expanded) :
    (expanded.resolveAll (computed output sets copies number)).All
      fun a => LineageMap.comparesName output a = false ∨ a.isNamed = true := by
  cases hempty : expanded.isEmpty with
  | true =>
    rw [LineageMap.resolveAll_of_isEmpty hempty]
    exact h.all_computed.mono fun a ha => Or.inl (comparesName_of_mem ha)
  | false =>
    rw [LineageMap.resolveAll_of_not_isEmpty hempty]
    refine LineageMap.all_mapValues fun entry hentry z hz => Or.inl ?_
    obtain ⟨y, hy, hz⟩ := List.mem_flatMap.1 (AttributeSet.mem_of_mem_ofList hz)
    obtain ⟨item, hitem, sources, hsources, -, hback⟩ :=
      h.exists_of_mem_expanded hitems hselected hexpanded hentry
    obtain ⟨x, hx, hstands⟩ := hback y hy
    rw [h.resolve_of_standsFor hstands] at hz
    obtain ⟨-, hmem | hmarked, -⟩ :=
      h.mem_resolve (hitems.selectSource hitem hsources x hx) hz
    · exact comparesName_of_mem hmem
    · exact comparesName_of_marked hmarked

/-- The select list has its sources over the expansion. -/
theorem exists_selected_substitute {below : Below} (h : GroupsColumns output sets copies number)
    (hitems : SelectsColumns below output (newIds copies number) items) :
    ∃ expanded, (ofSelectList below
      (items.map (·.substitute (copyOf? (groupingColumns sets) copies)))).result =
        .ok expanded := by
  obtain ⟨pairs, hpairs⟩ : ∃ pairs, List.Forall₂ (fun item pair =>
      (itemSources below item).result = .ok pair)
      (items.map (·.substitute (copyOf? (groupingColumns sets) copies))) pairs := by
    refine exists_forall₂ fun other hother => ?_
    obtain ⟨item, hitem, rfl⟩ := List.mem_map.1 hother
    obtain ⟨pair, hpair⟩ := hitems.exists_itemSources hitem
    obtain ⟨exchanged, hexchanged, -⟩ := h.exists_itemSources_substitute hitems hitem hpair
    exact ⟨exchanged, hexchanged⟩
  exact ⟨_, ofSelectList_eq_ok.2 ⟨pairs, hpairs, rfl⟩⟩

/-- Without grouping sets the table answers what the select list depends on. -/
theorem result_extract_aggregate {table : Option TableName} {grouping : List Expr}
    {new : List Int} {selected : LineageMap} (hdepth : 1 ≤ settings.maxPlanDepth)
    (hitems : SelectsColumns (extractWithin settings settings.maxPlanDepth) output new items)
    (hselected : (ofSelectList (extractWithin settings settings.maxPlanDepth) items).result =
      .ok selected) :
    ((Plan.aggregate grouping items (.relation output table)).extract settings ∅).result =
      .ok (selected.answerOf output (relationQualifier table)) := by
  have hcomparable : selected.All (Comparable output) := by
    intro entry hentry a ha
    obtain ⟨item, hitem, hok⟩ := exists_item_of_mem_entries hselected hentry
    cases hitems.selectSource hitem hok a ha with
    | own hmem => exact Or.inl (comparesName_of_mem hmem)
    | lent hmarked _ _ _ => exact Or.inl (comparesName_of_marked hmarked)
    | rows hcount _ _ _ => exact Or.inr (Attribute.isNamed_of_isCountMarker hcount)
  rw [extract_eq]
  exact result_extractWithin_overTable hdepth rfl hselected hcomparable

/-- With grouping sets it answers what that is resolved to by the expansion. -/
theorem result_extract_groupedBySets {table : Option TableName} {selected expanded : LineageMap}
    (hdepth : 2 ≤ settings.maxPlanDepth) (h : GroupsColumns output sets copies number)
    (hitems : SelectsColumns (extractWithin settings settings.maxPlanDepth) output
      (newIds copies number) items)
    (hselected : (ofSelectList (extractWithin settings settings.maxPlanDepth) items).result =
      .ok selected)
    (hexpanded : (ofSelectList (extractWithin settings settings.maxPlanDepth)
      (items.map (·.substitute (copyOf? (groupingColumns sets) copies)))).result =
        .ok expanded) :
    (((Plan.relation output table).groupedBySets sets copies number items).extract settings
      ∅).result = .ok ((expanded.resolveAll (computed output sets copies number)).answerOf output
        (relationQualifier table)) := by
  obtain ⟨depth, hlevels⟩ := Nat.exists_eq_add_of_le' hdepth
  have hjoined : (expanded.join (computed output sets copies number)).result =
      .ok (expanded.resolveAll (computed output sets copies number)) := by
    refine LineageMap.result_join_of_names fun entry hentry y hy => ?_
    obtain ⟨item, hitem, sources, hsources, hkey, hback⟩ :=
      h.exists_of_mem_expanded hitems hselected hexpanded hentry
    obtain ⟨x, hx, hstands⟩ := hback y hy
    rw [hkey]
    exact h.known_or_named hitems hitem hsources hx hstands
  rw [extract_eq]
  refine extractWithin_of_selectList rfl hexpanded ?_
  rw [hlevels, extractWithin, Plan.expandedBy, step_expand]
  refine ⟨_, hjoined, ?_⟩
  rw [extractWithin, step_relation]
  exact result_ofRelation_of_compared (h.all_request hitems hselected hexpanded)

/-- Every column of a select list is traced through grouping sets to what it is traced to without
them, except for the markers of rows, which expansions drop. -/
theorem sourcesOf_groupedBySets {table : Option TableName} {grouping : List Expr}
    (hdepth : 2 ≤ settings.maxPlanDepth) (h : GroupsColumns output sets copies number)
    (hitems : SelectsColumns (extractWithin settings settings.maxPlanDepth) output
      (newIds copies number) items) :
    ∃ grouped plain,
      (((Plan.relation output table).groupedBySets sets copies number items).extract settings
        ∅).result = .ok grouped ∧
      ((Plan.aggregate grouping items (.relation output table)).extract settings ∅).result =
        .ok plain ∧
      ∀ item ∈ items, ∀ e,
        e ∈ (LineageMap.sourcesOf grouped
          (item.substitute (copyOf? (groupingColumns sets) copies)).toAttribute).attrs ↔
        e ∈ (LineageMap.sourcesOf plain item.toAttribute).attrs ∧
          (e.id ∈ output.map Attribute.id ∨ e.isCountMarker = false) := by
  obtain ⟨selected, hselected⟩ := hitems.exists_selected
  obtain ⟨expanded, hexpanded⟩ := h.exists_selected_substitute hitems
  refine ⟨_, _, h.result_extract_groupedBySets hdepth hitems hselected hexpanded,
    result_extract_aggregate (Nat.le_of_succ_le hdepth) hitems hselected, fun item hitem e => ?_⟩
  obtain ⟨sources, exchanged, hsources, hmem, hcopied, hmirrors⟩ :=
    h.exists_expanded hitems hselected hexpanded hitem
  have hinner : ((item.substitute (copyOf? (groupingColumns sets) copies)).toAttribute,
      AttributeSet.ofList
        (exchanged.attrs.flatMap (computed output sets copies number).resolve)) ∈
      (expanded.resolveAll (computed output sets copies number)).entries := by
    rw [LineageMap.resolveAll_of_not_isEmpty (OrderedMap.isEmpty_eq_false_of_mem hcopied)]
    exact List.mem_map_of_mem hcopied
  rw [mem_sourcesOf_answerOf hinner, mem_sourcesOf_answerOf hmem]
  exact h.exists_answer_iff (hitems.selectSource hitem hsources) hmirrors

/-! ## The sums and the numbers of rows of a rollup -/

/-- The rolled up column `a` of the table `t`, its sum and the number of rows. -/
def rollupItems : List SelectItem :=
  [.column ⟨1, some "a", []⟩,
    .aliased (.mk (.call "sum" [.column ⟨1, some "a", []⟩]) (some "s") 4),
    .aliased (.mk (.count [] false) (some "n") 5)]

/-- The sets of a rollup of `a`. -/
def rollupSets : List AttributeSet := [.singleton ⟨1, some "a", []⟩, ∅]

/-- The rollup of `a` groups `t`. -/
theorem groupsColumns_rollup :
    GroupsColumns [⟨1, some "a", []⟩] rollupSets [⟨2, some "a", []⟩]
      ⟨3, some "spark_grouping_id", []⟩ where
  nonempty := by simp [rollupSets]
  members := by decide
  copied := by decide
  nodup := by decide

/-- The select list of the rollup is one over `t`. -/
theorem selectsColumns_rollup (below : Below) :
    SelectsColumns below [⟨1, some "a", []⟩]
      (newIds [⟨2, some "a", []⟩] ⟨3, some "spark_grouping_id", []⟩) rollupItems where
  columns := by simp [rollupItems]
  reads := by simp [rollupItems, Alias.child, Expr.attributes, Expr.attributesOfAll]
  named := by simp [rollupItems, Alias.name]
  fresh := by simp [rollupItems, Alias.id, newIds]
  distinct := by
    simp only [rollupItems, List.mem_cons, SelectItem.aliased.injEq, reduceCtorEq, List.not_mem_nil,
      or_false, false_or]
    rintro f g (rfl | rfl) (rfl | rfl) hid
    · rfl
    · cases hid
    · cases hid
    · rfl
  traced := by
    intro item hitem query hquery
    have hnone : rollupItems.flatMap SelectItem.tracedSubqueries = [] := rfl
    exact absurd (hnone ▸ List.mem_flatMap.2 ⟨item, hitem, hquery⟩) List.not_mem_nil
  lent := by
    rintro item hitem b ⟨query, hquery, -⟩
    have hnone : rollupItems.flatMap SelectItem.tracedSubqueries = [] := rfl
    exact absurd (hnone ▸ List.mem_flatMap.2 ⟨item, hitem, hquery⟩) List.not_mem_nil

/-- The rollup has the sources of the plain grouping. -/
theorem sourcesOf_groupedBySets_rollup :
    ∃ grouped plain,
      (((Plan.relation [⟨1, some "a", []⟩] (some ⟨"t", none, none⟩)).groupedBySets rollupSets
        [⟨2, some "a", []⟩] ⟨3, some "spark_grouping_id", []⟩ rollupItems).extract .standard
        ∅).result = .ok grouped ∧
      ((Plan.aggregate [.column ⟨1, some "a", []⟩] rollupItems
        (.relation [⟨1, some "a", []⟩] (some ⟨"t", none, none⟩))).extract .standard ∅).result =
        .ok plain ∧
      ∀ item ∈ rollupItems, ∀ e,
        e ∈ (LineageMap.sourcesOf grouped (item.substitute
          (copyOf? (groupingColumns rollupSets) [⟨2, some "a", []⟩])).toAttribute).attrs ↔
        e ∈ (LineageMap.sourcesOf plain item.toAttribute).attrs ∧
          (e.id ∈ [1] ∨ e.isCountMarker = false) :=
  sourcesOf_groupedBySets (by decide) groupsColumns_rollup (selectsColumns_rollup _)

/-- The number of rows is traced to the rows of `t`, but through the rollup to nothing. -/
theorem count_rollup_ne_count :
    (((Plan.relation [⟨1, some "a", []⟩] (some ⟨"t", none, none⟩)).groupedBySets rollupSets
      [⟨2, some "a", []⟩] ⟨3, some "spark_grouping_id", []⟩ rollupItems).extract .standard
      ∅).result = .ok (.ofList [(⟨2, some "a", []⟩, .singleton ⟨1, some "a", ["t"]⟩),
        (⟨4, some "s", []⟩, .singleton ⟨1, some "a", ["t"]⟩), (⟨5, some "n", []⟩, ∅)]) ∧
    ((Plan.aggregate [.column ⟨1, some "a", []⟩] rollupItems
      (.relation [⟨1, some "a", []⟩] (some ⟨"t", none, none⟩))).extract .standard ∅).result =
      .ok (.ofList [(⟨1, some "a", []⟩, .singleton ⟨1, some "a", ["t"]⟩),
        (⟨4, some "s", []⟩, .singleton ⟨1, some "a", ["t"]⟩),
        (⟨5, some "n", []⟩, .singleton ⟨5, some "__count__", ["t"]⟩)]) ∧
    GroupsColumns [⟨1, some "a", []⟩] rollupSets [⟨2, some "a", []⟩]
      ⟨3, some "spark_grouping_id", []⟩ ∧
    SelectsColumns (extractWithin .standard Settings.standard.maxPlanDepth) [⟨1, some "a", []⟩]
      (newIds [⟨2, some "a", []⟩] ⟨3, some "spark_grouping_id", []⟩) rollupItems :=
  ⟨by decide +kernel, by decide +kernel, groupsColumns_rollup, selectsColumns_rollup _⟩

end GroupsColumns

end ColumnTrace
