import ColumnTrace.Proofs.Lineage.AssignedColumns
import ColumnTrace.Proofs.Lineage.SelectedSources

/-!
# Columns of the query around a subquery

A scalar subquery is traced for itself, and asks its own table for all that its expression refers
to. A column of the table of the query around it is none that its table can answer, so it is left
out there, before the query around it comes to be asked. What the subquery has left is handed up
and stays as it is (`Lineage.sourcesOf_scalarSubquery_iff`).
-/

set_option autoImplicit false

namespace ColumnTrace

open Traced

namespace Alias

/-- The one expression of a subquery refers to columns of the subquery's table and to ordinary
columns of the table around it, which are others; it makes a new column, and where it refers to no
column, it holds no subquery of its own. -/
structure IsCorrelated (inner outer : List Attribute) (f : Alias) : Prop where
  reads : ∀ a ∈ f.child.attributes, a ∈ inner ∨ (a ∈ outer ∧ a.isOrdinary = true)
  direct : f.child.attributes ≠ [] ∨ f.child.subqueries = []
  fresh : f.id ∉ (inner ++ outer).map Attribute.id
  disjoint : ∀ a ∈ inner, a.id ∉ outer.map Attribute.id

/-- What a table has to say of an expression: the columns of its own that the expression refers to,
and the marker of its rows where the expression counts them. -/
inductive AnsweredBy (inner : List Attribute) (qualifier : List String) (f : Alias) :
    Attribute → Prop
  | column {a : Attribute} (h : a ∈ f.child.references.attrs) (hown : a ∈ inner) :
    AnsweredBy inner qualifier f (a.withQualifier qualifier)
  | rows (h : f.child.countsRows = true) :
    AnsweredBy inner qualifier f ⟨f.id, some countName, qualifier⟩

variable {inner outer : List Attribute} {qualifier : List String} {f : Alias} {x y : Attribute}

/-- A column that the expression refers to is one of the subquery's table or an ordinary one. -/
theorem IsCorrelated.own_or_ordinary (h : f.IsCorrelated inner outer) {a : Attribute}
    (ha : a ∈ f.child.references.attrs) : a.id ∈ inner.map Attribute.id ∨ a.isOrdinary = true :=
  (h.reads a (AttributeSet.mem_of_mem_ofList ha)).imp List.mem_map_of_mem And.right

/-- A column with an identity of the subquery's table is a column of that table. -/
theorem IsCorrelated.mem_of_id_mem (h : f.IsCorrelated inner outer) {a : Attribute}
    (ha : a ∈ f.child.references.attrs) (hid : a.id ∈ inner.map Attribute.id) : a ∈ inner := by
  rcases h.reads a (AttributeSet.mem_of_mem_ofList ha) with hinner | ⟨houter, -⟩
  · exact hinner
  · obtain ⟨c, hc, hca⟩ := List.mem_map.1 hid
    exact absurd (List.mem_map.2 ⟨a, houter, hca.symm⟩) (h.disjoint c hc)

/-- The expression does not refer to the column that it makes. -/
theorem IsCorrelated.id_not_mem_references (h : f.IsCorrelated inner outer) :
    f.id ∉ f.child.references.attrs.map Attribute.id := by
  intro hmem
  obtain ⟨a, ha, hid⟩ := List.mem_map.1 hmem
  refine h.fresh (List.mem_map.2 ⟨a, List.mem_append.2 ?_, hid⟩)
  exact (h.reads a (AttributeSet.mem_of_mem_ofList ha)).imp_right And.left

/-- An identity stands for one column in it. -/
theorem IsCorrelated.eq_of_answeredBy (h : f.IsCorrelated inner outer)
    (hx : f.AnsweredBy inner qualifier x) (hy : f.AnsweredBy inner qualifier y)
    (hid : x.id = y.id) : x = y := by
  have hnew : ∀ a ∈ f.child.references.attrs, a.id ≠ f.id := fun a ha heq =>
    h.id_not_mem_references (heq ▸ List.mem_map_of_mem ha)
  cases hx with
  | @column a ha _ =>
    cases hy with
    | @column c hc _ => rw [AttributeSet.eq_of_id_eq ha hc hid]
    | rows _ => exact absurd hid (hnew a ha)
  | rows _ =>
    cases hy with
    | @column c hc _ => exact absurd hid.symm (hnew c hc)
    | rows _ => rfl

/-- None of it is a column of the table around the subquery. -/
theorem IsCorrelated.id_not_mem_of_answeredBy (h : f.IsCorrelated inner outer)
    (hx : f.AnsweredBy inner qualifier x) : x.id ∉ outer.map Attribute.id := by
  cases hx with
  | @column a _ hown => exact h.disjoint a hown
  | rows _ =>
    intro hmem
    exact h.fresh (List.map_append ▸ List.mem_append_right _ hmem)

/-- The table of the subquery answers for its own columns and its rows, and leaves the columns of
the table around it out. -/
theorem IsCorrelated.answeredBy_iff (h : f.IsCorrelated inner outer) :
    (∃ d ∈ f.directSources.attrs, LineageMap.answer? inner qualifier d = some x) ↔
      f.AnsweredBy inner qualifier x := by
  simp only [mem_directSources h.id_not_mem_references]
  constructor
  · rintro ⟨d, hcolumn | ⟨hcounts, rfl⟩, hx⟩
    · obtain ⟨hid, rfl⟩ := (LineageMap.answer?_eq_some_iff (h.own_or_ordinary hcolumn)).1 hx
      exact .column hcolumn (h.mem_of_id_mem hcolumn hid)
    · have hrows := Lineage.answer?_countMarker inner qualifier f.id
      exact Option.some.inj (hrows.symm.trans hx) ▸ .rows hcounts
  · intro hx
    cases hx with
    | column hcolumn hown => exact ⟨_, Or.inl hcolumn, Lineage.answer?_of_mem hown qualifier⟩
    | rows hcounts =>
      exact ⟨_, Or.inr ⟨hcounts, rfl⟩, Lineage.answer?_countMarker inner qualifier f.id⟩

end Alias

namespace Lineage

variable {settings : Settings} {inner outer : List Attribute} {f : Alias} {query plan : Plan}
variable {table outerTable : Option TableName} {items : List SelectItem} {n : Nat}

/-- What the expression refers to may be compared with the columns of the subquery's table. -/
theorem comparable_of_isCorrelated (h : f.IsCorrelated inner outer) {d : Attribute}
    (hd : d ∈ f.directSources.attrs) : Comparable inner d := by
  rcases (Alias.mem_directSources h.id_not_mem_references).1 hd with hcolumn | ⟨-, rfl⟩
  · rcases h.reads d (AttributeSet.mem_of_mem_ofList hcolumn) with hinner | ⟨-, hordinary⟩
    · exact Or.inl (comparesName_of_mem hinner)
    · exact Or.inr (Attribute.isNamed_of_isOrdinary hordinary)
  · exact Or.inr rfl

/-- A subquery over a table has one column, and its sources are what the table has to say of the
expression. -/
theorem exists_answer_of_isCorrelated (settings : Settings) (hn : 0 < n)
    (h : f.IsCorrelated inner outer)
    (hquery : query.selectList? = some ([.aliased f], .relation inner table)) :
    ∃ m, (extractWithin settings (n + 1) query ∅).result = .ok m ∧
      ∀ x, (∃ entry ∈ m.entries, x ∈ entry.2.attrs) ↔
        f.AnsweredBy inner (relationQualifier table) x := by
  obtain ⟨selected, hselected, hcomparable, hentry⟩ := exists_selected_of_item
    (result_itemSources_aliased (result_aliasSources_of_direct (extractWithin settings n) h.direct))
    (fun d hd => comparable_of_isCorrelated h hd) List.mem_cons_self
    (fun _ hother _ => List.mem_singleton.1 hother)
    (fun _ hother hne => absurd (List.mem_singleton.1 hother) hne)
  have hkeys := keys_answerOf (OrderedMap.isEmpty_eq_false_of_mem hentry) inner
    (relationQualifier table)
  refine ⟨_, result_extractWithin_overTable hn hquery hselected hcomparable, fun x => ?_⟩
  rw [← h.answeredBy_iff, ← mem_sourcesOf_answerOf hentry]
  constructor
  · rintro ⟨entry, hmem, hx⟩
    -- there is no entry but the one for the expression
    have hkey : entry.1 ∈ selected.keys := hkeys ▸ OrderedMap.key_mem_of_entry_mem hmem
    have hsame := List.mem_singleton.1 ((mem_keys_ofSelectList hselected).1 hkey)
    rw [← LineageMap.sourcesOf_of_mem hmem, hsame] at hx
    exact hx
  · exact fun hx => ⟨_, LineageMap.mem_entries_of_mem_sourcesOf hx, hx⟩

/-- The entry of a select list for a scalar subquery borrows what the subquery's table has to say.
-/
theorem borrows_subquery_iff {below : Below} {name : Label} {id : Int} {m : LineageMap}
    {b : Attribute} (hm : (below query ∅).result = .ok m) :
    (SelectItem.aliased (.mk (.subquery query) name id)).Borrows below b ↔
      ∃ entry ∈ m.entries, b ∈ entry.2.attrs := by
  constructor
  · rintro ⟨found, hfound, answer, hanswer, hlends⟩
    obtain rfl := List.mem_singleton.1 (SelectItem.mem_tracedSubqueries.1 hfound).2
    exact Except.ok.inj (hanswer.symm.trans hm) ▸ hlends
  · intro hlends
    exact ⟨query, SelectItem.mem_tracedSubqueries.2 ⟨rfl, List.mem_cons_self⟩, m, hm, hlends⟩

/-- A scalar subquery over a table, in a select list over another table, is traced to the columns of
its own table that its expression refers to, and to the marker of its own table's rows. The columns
of the table around it are left out. -/
theorem sourcesOf_scalarSubquery_iff {name : Label} {id : Int} (hdepth : 2 ≤ settings.maxPlanDepth)
    (h : f.IsCorrelated inner outer)
    (hquery : query.selectList? = some ([.aliased f], .relation inner table))
    (hplan : plan.selectList? = some (items, .relation outer outerTable))
    (hmem : .aliased (.mk (.subquery query) name id) ∈ items)
    (hunique : ∀ other ∈ items, other.toAttribute = ⟨id, name, []⟩ →
      other = .aliased (.mk (.subquery query) name id))
    (hothers : ∀ other ∈ items, other ≠ .aliased (.mk (.subquery query) name id) →
      other.HasSources (extractWithin settings settings.maxPlanDepth) (Comparable outer)) :
    ∃ m : LineageMap, (plan.extract settings ∅).result = .ok m ∧
      ∀ x, x ∈ (m.sourcesOf ⟨id, name, []⟩).attrs ↔
        f.AnsweredBy inner (relationQualifier table) x := by
  rw [extract_eq]
  obtain ⟨depth, hlevels⟩ := Nat.exists_eq_add_of_le' hdepth
  obtain ⟨answer, hanswer, hlends⟩ :=
    exists_answer_of_isCorrelated settings (Nat.succ_pos depth) h hquery
  rw [← hlevels] at hanswer
  have hborrows : ∀ b, (SelectItem.aliased (.mk (.subquery query) name id)).Borrows
      (extractWithin settings settings.maxPlanDepth) b ↔
        f.AnsweredBy inner (relationQualifier table) b :=
    fun b => (borrows_subquery_iff hanswer).trans (hlends b)
  have hover : (Alias.mk (.subquery query) name id).IsOver
      (extractWithin settings settings.maxPlanDepth) outer := by
    refine ⟨fun a ha => absurd ha List.not_mem_nil, fun found hfound => ?_, fun b hb => ?_⟩
    · obtain rfl := List.mem_singleton.1 (SelectItem.mem_tracedSubqueries.1 hfound).2
      exact ⟨answer, hanswer⟩
    · exact h.id_not_mem_of_answeredBy ((hborrows b).1 hb)
  obtain ⟨m, hm, hrepresents⟩ :=
    hover.represents_sourcesOf settings.maxPlanDepth_pos hplan hmem hunique hothers
  have htraced : ∀ x, (Alias.mk (.subquery query) name id).TracedTo
      (extractWithin settings settings.maxPlanDepth) (relationQualifier outerTable) x ↔
        f.AnsweredBy inner (relationQualifier table) x := by
    intro x
    rw [← hborrows]
    refine ⟨fun hx => ?_, .borrowed⟩
    cases hx with
    | column hcolumn => exact absurd hcolumn List.not_mem_nil
    | borrowed hb => exact hb
    | rows hrows => cases hrows
  exact ⟨m, hm, fun x => (hrepresents.congr htraced).mem_iff fun y => h.eq_of_answeredBy⟩

/-! ## A sum of a column of each of two tables -/

/-- `(SELECT max(c) + b FROM u)`, where `b` is a column of another table. -/
def greatestPlusOuter : Alias :=
  .mk (.call "add" [.call "max" [.column ⟨3, some "c", []⟩], .column ⟨2, some "b", []⟩])
    (some "v") 8

/-- `SELECT (SELECT max(c) + b FROM u) AS m FROM t`, where `b` is a column of `t`. -/
def selectCorrelated : Plan :=
  .project [.aliased (.mk (.subquery (.aggregate [] [.aliased greatestPlusOuter]
      (.relation [⟨3, some "c", []⟩] (some ⟨"u", none, none⟩)))) (some "m") 9)]
    (.relation [⟨2, some "b", []⟩] (some ⟨"t", none, none⟩))

/-- The expression refers to a column of its own table and to one of the table around it. -/
theorem isCorrelated_greatestPlusOuter :
    greatestPlusOuter.IsCorrelated [⟨3, some "c", []⟩] [⟨2, some "b", []⟩] where
  reads := by decide +kernel
  direct := Or.inl (by decide)
  fresh := by decide
  disjoint := by decide

/-- The lineage is made of what the table `u` has to say. -/
theorem sourcesOf_selectCorrelated :
    ∃ m : LineageMap, (selectCorrelated.extract .standard ∅).result = .ok m ∧
      ∀ x, x ∈ (m.sourcesOf ⟨9, some "m", []⟩).attrs ↔
        greatestPlusOuter.AnsweredBy [⟨3, some "c", []⟩]
          (relationQualifier (some ⟨"u", none, none⟩)) x :=
  sourcesOf_scalarSubquery_iff (by decide) isCorrelated_greatestPlusOuter rfl rfl
    List.mem_cons_self (fun _ hother _ => List.mem_singleton.1 hother)
    (fun _ hother hne => absurd (List.mem_singleton.1 hother) hne)

/-- The column `b` of the table around the subquery is missing. -/
theorem extract_selectCorrelated :
    (selectCorrelated.extract .standard ∅).result =
      .ok (.ofList [(⟨9, some "m", []⟩, .singleton ⟨3, some "c", ["u"]⟩)]) ∧
    greatestPlusOuter.IsCorrelated [⟨3, some "c", []⟩] [⟨2, some "b", []⟩] ∧
    ⟨2, some "b", []⟩ ∈ greatestPlusOuter.child.attributes ∧
    (⟨2, some "b", ["t"]⟩ : Attribute) ∉
      (AttributeSet.singleton ⟨3, some "c", ["u"]⟩).attrs :=
  ⟨by decide +kernel, isCorrelated_greatestPlusOuter, by decide, by decide⟩

end Lineage

end ColumnTrace
