import ColumnTrace.Proofs.Expressions
import ColumnTrace.Proofs.Lineage.BorrowedColumns
import ColumnTrace.Proofs.Lineage.NamedColumns
import ColumnTrace.Proofs.Lineage.PassedRequests

/-!
# What a select list over a table is traced to

A select list asks the plan under it for the sources of its entries, and a table answers what it can
of each (`Lineage.result_extractWithin_overTable`). A named expression whose columns are the
table's, and whose subqueries are traced to columns apart from these, is traced to its columns under
the table's qualifier, to what it borrows, and to the marker of its rows (`Alias.TracedTo`). An
identity is reported once, so that in general the sources only represent what the expression is
traced to (`AttributeSet.Represents`); where an identity stands for one column, they are all of it.
-/

set_option autoImplicit false

namespace ColumnTrace

open Traced

/-! ## Sets that represent what arrives -/

namespace AttributeSet

variable {s : AttributeSet} {P Q : Attribute → Prop} {a x : Attribute}

/-- The set holds only what arrives, and an attribute for each identity that arrives. -/
structure Represents (s : AttributeSet) (P : Attribute → Prop) : Prop where
  sound : ∀ x ∈ s.attrs, P x
  represented : ∀ x, P x → x.id ∈ s.attrs.map Attribute.id

/-- Two conditions that come to the same are represented alike. -/
theorem Represents.congr (h : s.Represents P) (hiff : ∀ x, P x ↔ Q x) : s.Represents Q where
  sound x hx := (hiff x).1 (h.sound x hx)
  represented x hx := h.represented x ((hiff x).2 hx)

/-- The identities are those of what arrives. -/
theorem Represents.mem_ids_iff (h : s.Represents P) {id : Int} :
    id ∈ s.attrs.map Attribute.id ↔ ∃ x, P x ∧ x.id = id := by
  constructor
  · intro hid
    obtain ⟨x, hx, hxid⟩ := List.mem_map.1 hid
    exact ⟨x, h.sound x hx, hxid⟩
  · rintro ⟨x, hx, rfl⟩
    exact h.represented x hx

/-- Where an identity stands for one attribute, the set holds all that arrives. -/
theorem Represents.mem_iff (h : s.Represents P)
    (hunique : ∀ y, P y → P x → y.id = x.id → y = x) : x ∈ s.attrs ↔ P x := by
  refine ⟨h.sound x, fun hx => ?_⟩
  obtain ⟨y, hy, hid⟩ := List.mem_map.1 (h.represented x hx)
  rw [← hunique y (h.sound y hy) hx hid]
  exact hy

/-- The set of a list represents it. -/
theorem represents_ofList (attrs : List Attribute) : (ofList attrs).Represents (· ∈ attrs) where
  sound _ hx := mem_of_mem_ofList hx
  represented x hx := by
    obtain ⟨y, hy, hid⟩ := exists_mem_ofList hx
    exact List.mem_map.2 ⟨y, hy, hid⟩

/-- One more column arrives by being added. -/
theorem Represents.insert (h : s.Represents P) (a : Attribute) :
    (s.insert a).Represents fun x => P x ∨ x = a where
  sound x hx := (mem_or_eq_of_mem_insert hx).imp_left (h.sound x)
  represented x hx := by
    have hids : x.id ∈ s.attrs.map Attribute.id ∨ x.id = a.id :=
      hx.imp (h.represented x) fun heq => congrArg Attribute.id heq
    show x.id ∈ (joinAttribute a s.attrs).map Attribute.id
    rw [map_id_joinAttribute]
    split
    · next hmem => exact hids.elim id fun heq => heq ▸ hmem
    · exact List.mem_append.2 (hids.imp_right fun heq => List.mem_singleton.2 heq)

end AttributeSet

/-! ## What a named expression asks for -/

namespace Alias

/-- The references of an expression, and where it counts rows their marker. -/
def directSources (f : Alias) : AttributeSet :=
  if f.child.countsRows then f.child.references.insert (f.toAttribute.withName countName)
  else f.child.references

/-- An expression with columns depends on these, whatever its subqueries are. -/
theorem result_aliasSources {below : Lineage.Below} {f : Alias} (h : f.child.attributes ≠ []) :
    (Lineage.aliasSources below f).result = .ok f.directSources := by
  have hsome : ¬ f.child.references.isEmpty = true := fun hempty =>
    h (AttributeSet.isEmpty_ofList.1 hempty)
  rw [Lineage.aliasSources, if_neg hsome]
  rfl

/-- Where two expressions have the same columns, subqueries and counts, they have the same
sources. -/
theorem aliasSources_congr {below : Lineage.Below} {f g : Alias}
    (hkey : f.toAttribute = g.toAttribute) (hreferences : f.child.references = g.child.references)
    (hsubqueries : f.child.subqueries = g.child.subqueries)
    (hcounts : f.child.countsRows = g.child.countsRows) :
    Lineage.aliasSources below f = Lineage.aliasSources below g := by
  simp only [Lineage.aliasSources]
  rw [hkey, hreferences, hsubqueries, hcounts]

/-- The direct sources are what the expression refers to, and the marker where it counts rows. -/
theorem mem_directSources {f : Alias} {x : Attribute}
    (h : f.id ∉ f.child.references.attrs.map Attribute.id) :
    x ∈ f.directSources.attrs ↔ x ∈ f.child.references.attrs ∨
      (f.child.countsRows = true ∧ x = f.toAttribute.withName countName) := by
  have hinsert : (f.child.references.insert (f.toAttribute.withName countName)).attrs =
      f.child.references.attrs ++ [f.toAttribute.withName countName] := joinAttribute_of_not_mem h
  rw [directSources]
  by_cases hcounts : f.child.countsRows = true
  · simp [hcounts, hinsert]
  · simp [hcounts]

end Alias

/-- What a named expression asks of the plan under it, where its subqueries are traced by `below`.
-/
inductive Alias.Asks (below : Lineage.Below) (f : Alias) : Attribute → Prop
  /-- A column that it refers to. -/
  | column {a : Attribute} (h : a ∈ f.child.attributes) : Asks below f a
  /-- A column that it borrows, marked. -/
  | borrowed {b : Attribute} (h : (SelectItem.aliased f).Borrows below b) :
    Asks below f b.markSubquery
  /-- The marker of its rows. -/
  | rows (h : f.child.countsRows = true) : Asks below f (f.toAttribute.withName countName)

/-! ## Select lists over any plan -/

/-- The entry has sources where `below` traces its subqueries, and all of them are of a kind. -/
def SelectItem.HasSources (below : Lineage.Below) (P : Attribute → Prop) (item : SelectItem) :
    Prop :=
  ∃ sources, (Lineage.itemSources below item).result = .ok (item.toAttribute, sources) ∧
    ∀ a ∈ sources.attrs, P a

namespace Lineage

variable {settings : Settings} {below : Below} {items : List SelectItem} {f : Alias}
variable {plan : Plan} {output : List Attribute} {table : Option TableName} {n : Nat}
variable {selected request : LineageMap} {P : Attribute → Prop} {item : SelectItem}
variable {pair : Attribute × AttributeSet} {qualifier : List String}

/-- An entry of the lineage of a select list is that of one of its columns. -/
theorem exists_item_of_mem_entries (hselected : (ofSelectList below items).result = .ok selected)
    (hpair : pair ∈ selected.entries) :
    ∃ item ∈ items, (itemSources below item).result = .ok pair := by
  obtain ⟨pairs, hpairs, rfl⟩ := ofSelectList_eq_ok.1 hselected
  exact exists_left_of_forall₂ hpairs (OrderedMap.mem_of_mem_ofList hpair)

/-- In a select list in which a column tells the entry, every entry keeps its sources. -/
theorem mem_entries_of_item (hselected : (ofSelectList below items).result = .ok selected)
    (hunique : ∀ other ∈ items, other.toAttribute = item.toAttribute → other = item)
    (hitem : item ∈ items) (hpair : (itemSources below item).result = .ok pair) :
    pair ∈ selected.entries := by
  have hkey : item.toAttribute ∈ selected.keys :=
    (mem_keys_ofSelectList hselected).2 (List.mem_map_of_mem hitem)
  obtain ⟨found, hfound, heq⟩ := List.mem_map.1 hkey
  obtain ⟨other, hother, hok⟩ := exists_item_of_mem_entries hselected hfound
  have hsame := hunique other hother ((itemSources_fst hok).symm.trans heq)
  rw [hsame] at hok
  rw [← Except.ok.inj (hok.symm.trans hpair)]
  exact hfound

/-- A select list has a lineage if each entry has sources. -/
theorem exists_selected_of_hasSources (h : ∀ item ∈ items, item.HasSources below P) :
    ∃ selected, (ofSelectList below items).result = .ok selected ∧ selected.All P := by
  have hpairs : ∀ item ∈ items, ∃ pair, (itemSources below item).result = .ok pair := by
    intro item hitem
    obtain ⟨sources, hsources, -⟩ := h item hitem
    exact ⟨_, hsources⟩
  obtain ⟨pairs, hpairs⟩ := exists_forall₂ hpairs
  have hselected := ofSelectList_eq_ok.2 ⟨pairs, hpairs, rfl⟩
  refine ⟨_, hselected, fun entry hentry a ha => ?_⟩
  obtain ⟨item, hitem, hok⟩ := exists_item_of_mem_entries hselected hentry
  obtain ⟨sources, hsources, hall⟩ := h item hitem
  obtain rfl := Except.ok.inj (hok.symm.trans hsources)
  exact hall a ha

/-- A select list whose entries have sources keeps those of an entry that its column tells. -/
theorem exists_selected_of_item {sources : AttributeSet}
    (hsources : (itemSources below item).result = .ok (item.toAttribute, sources))
    (hall : ∀ a ∈ sources.attrs, P a) (hmem : item ∈ items)
    (hunique : ∀ other ∈ items, other.toAttribute = item.toAttribute → other = item)
    (hothers : ∀ other ∈ items, other ≠ item → other.HasSources below P) :
    ∃ selected, (ofSelectList below items).result = .ok selected ∧ selected.All P ∧
      (item.toAttribute, sources) ∈ selected.entries := by
  have hitems : ∀ other ∈ items, other.HasSources below P := by
    intro other hother
    by_cases heq : other = item
    · exact heq ▸ ⟨sources, hsources, hall⟩
    · exact hothers other hother heq
  obtain ⟨selected, hselected, hkinds⟩ := exists_selected_of_hasSources hitems
  exact ⟨selected, hselected, hkinds, mem_entries_of_item hselected hunique hmem hsources⟩

/-- A select list that is asked for all it has asks its child for the sources of its entries. -/
theorem extractWithin_of_selectList {child : Plan} {m : LineageMap}
    (hplan : plan.selectList? = some (items, child))
    (hselected : (ofSelectList (extractWithin settings n) items).result = .ok selected)
    (hm : (extractWithin settings n child selected).result = .ok m) :
    (extractWithin settings (n + 1) plan ∅).result = .ok m := by
  rw [extractWithin, Plan.step_of_selectList hplan, step_project]
  exact ⟨selected, selected, hselected, LineageMap.result_join_of_isEmpty rfl _, hm⟩

/-- A named expression has its sources under its own column. -/
theorem result_itemSources_aliased {sources : AttributeSet}
    (h : (aliasSources below f).result = .ok sources) :
    (itemSources below (.aliased f)).result = .ok (f.toAttribute, sources) :=
  result_bind_of_ok h

/-! ## Select lists over a table -/

/-- A table can tell the column by its identity, or has a name to compare. -/
def Comparable (output : List Attribute) (a : Attribute) : Prop :=
  LineageMap.comparesName output a = false ∨ a.isNamed = true

/-- A relation answers where whatever it has to compare by name has a name. -/
theorem result_ofRelation_of_compared (h : request.All (Comparable output)) :
    (request.ofRelation output qualifier).result = .ok (request.answerOf output qualifier) := by
  have hnone : (request.dependencies.any fun pair =>
      LineageMap.comparesName output pair.2 && !pair.2.isNamed) = false := by
    rw [List.any_eq_false]
    intro pair hpair
    obtain ⟨sources, hentry, ha⟩ := LineageMap.mem_dependencies.1 hpair
    rcases h _ hentry pair.2 ha with hown | hnamed
    · simp [hown]
    · simp [hnamed]
  rw [LineageMap.ofRelation, hnone, if_neg Bool.false_ne_true, Traced.result_pure]

/-- A column of the table is told by its identity. -/
theorem comparesName_of_mem {a : Attribute} (h : a ∈ output) :
    LineageMap.comparesName output a = false := by
  have hany : output.any (·.id == a.id) = true := List.any_eq_true.2 ⟨a, h, by simp⟩
  simp [LineageMap.comparesName, hany]

/-- No name is compared for the column of a subquery. -/
theorem comparesName_of_marked {a : Attribute} (h : a.isSubqueryMarked = true) :
    LineageMap.comparesName output a = false := by
  simp [LineageMap.comparesName, h]

/-- What a table answers for one column of a request with one attribute for each identity. -/
theorem mem_sourcesOf_answerOf {key e : Attribute} {sources : AttributeSet}
    (hentry : (key, sources) ∈ request.entries) :
    e ∈ ((request.answerOf output qualifier).sourcesOf key).attrs ↔
      ∃ x ∈ sources.attrs, LineageMap.answer? output qualifier x = some e := by
  have hempty : request.isEmpty = false := OrderedMap.isEmpty_eq_false_of_mem hentry
  rw [LineageMap.answerOf, hempty, if_neg Bool.false_ne_true,
    LineageMap.sourcesOf_mapValues _ hentry, AttributeSet.mem_ofList_iff, List.mem_filterMap]
  intro a ha b hb hid
  obtain ⟨x, hx, hxa⟩ := List.mem_filterMap.1 ha
  obtain ⟨y, hy, hyb⟩ := List.mem_filterMap.1 hb
  rw [LineageMap.id_of_answer? hxa, LineageMap.id_of_answer? hyb] at hid
  rw [AttributeSet.eq_of_id_eq hx hy hid] at hxa
  exact Option.some.inj (hxa.symm.trans hyb)

/-- A table answers what it can of the sources of a select list. -/
theorem result_extractWithin_overTable (hn : 0 < n)
    (hplan : plan.selectList? = some (items, .relation output table))
    (hselected : (ofSelectList (extractWithin settings n) items).result = .ok selected)
    (hcomparable : selected.All (Comparable output)) :
    (extractWithin settings (n + 1) plan ∅).result =
      .ok (selected.answerOf output (relationQualifier table)) := by
  refine extractWithin_of_selectList hplan hselected ?_
  obtain ⟨levels, rfl⟩ := Nat.exists_eq_add_of_le' hn
  rw [extractWithin, step_relation]
  exact result_ofRelation_of_compared hcomparable

/-- A table answers for its own column under its qualifier. -/
theorem answer?_of_mem {a : Attribute} (h : a ∈ output) (qualifier : List String) :
    LineageMap.answer? output qualifier a = some (a.withQualifier qualifier) := by
  rw [LineageMap.answer?, if_pos (List.any_eq_true.2 ⟨a, h, beq_self_eq_true a.id⟩)]

/-- A marked column that the table does not know loses the mark. -/
theorem answer?_markSubquery_of_unknown {b : Attribute} (h : b.id ∉ output.map Attribute.id)
    (qualifier : List String) :
    LineageMap.answer? output qualifier b.markSubquery = some b := by
  rw [LineageMap.answer?_of_unknown, Plan.answer?_markSubquery]
  intro c hc hid
  exact h (List.mem_map.2 ⟨c, hc, hid⟩)

/-- A table answers a marker of rows with the marker of its own, whatever columns it has. -/
theorem answer?_countMarker (output : List Attribute) (qualifier : List String) (id : Int) :
    LineageMap.answer? output qualifier ⟨id, some countName, []⟩ =
      some ⟨id, some countName, qualifier⟩ := by
  rw [LineageMap.answer?]
  split <;> rfl

/-- What a table answers represents the answers to what is asked of it. -/
theorem represents_sourcesOf_answerOf {key : Attribute} {sources : AttributeSet}
    (hentry : (key, sources) ∈ request.entries) (h : sources.Represents P)
    (hanswer : ∀ d, P d → ∃ e, LineageMap.answer? output qualifier d = some e) :
    ((request.answerOf output qualifier).sourcesOf key).Represents fun e =>
      ∃ d, P d ∧ LineageMap.answer? output qualifier d = some e where
  sound e he := by
    obtain ⟨d, hd, hde⟩ := (mem_sourcesOf_answerOf hentry).1 he
    exact ⟨d, h.sound d hd, hde⟩
  represented := by
    rintro e ⟨d, hd, hde⟩
    obtain ⟨c, hc, hid⟩ := List.mem_map.1 (h.represented d hd)
    obtain ⟨e', hce⟩ := hanswer c (h.sound c hc)
    refine List.mem_map.2 ⟨e', (mem_sourcesOf_answerOf hentry).2 ⟨c, hc, hce⟩, ?_⟩
    rw [LineageMap.id_of_answer? hce, LineageMap.id_of_answer? hde]
    exact hid

/-- What subqueries lend represents the sources in their answers, marked. -/
theorem represents_lentBy (answers : List LineageMap) :
    (lentBy answers).Represents fun d => ∃ b, Lends answers b ∧ d = b.markSubquery where
  sound _ hd := exists_of_mem_lentBy hd
  represented := by
    rintro _ ⟨b, hb, rfl⟩
    show b.id ∈ _
    exact mem_ids_lentBy hb

/-- An expression that holds no subquery, or columns besides, asks for its columns and for the
marker of its rows. -/
theorem result_aliasSources_of_direct (below : Below)
    (h : f.child.attributes ≠ [] ∨ f.child.subqueries = []) :
    (aliasSources below f).result = .ok f.directSources := by
  by_cases hcolumns : f.child.attributes = []
  · have hempty : f.child.references = ∅ := by rw [Expr.references, hcolumns]; rfl
    simp only [aliasSources, Alias.directSources, hempty, h.resolve_left (not_not_intro hcolumns)]
    rfl
  · exact Alias.result_aliasSources hcolumns

/-- Of each identity that a named expression asks for there is a source. -/
theorem represents_aliasSources {sources : AttributeSet}
    (h : (aliasSources below f).result = .ok sources) : sources.Represents (f.Asks below) := by
  obtain ⟨taken, htaken, rfl⟩ := exists_taken_of_aliasSources h
  have hrepresents : taken.Represents fun d => d ∈ f.child.attributes ∨
      ∃ b, (SelectItem.aliased f).Borrows below b ∧ d = b.markSubquery := by
    rcases htaken with ⟨hcolumns, rfl⟩ | ⟨hfree, answers, hanswers, rfl⟩
    · refine (AttributeSet.represents_ofList _).congr fun d => ?_
      rw [iff_self_or]
      rintro ⟨b, hb, -⟩
      exact absurd (SelectItem.columnFree_of_borrows hb) hcolumns
    · refine (represents_lentBy answers).congr fun d => ?_
      simp only [hfree, List.not_mem_nil, false_or, borrows_iff_lends hfree hanswers]
  have hasks : ∀ d, f.Asks below d ↔ (d ∈ f.child.attributes ∨
      ∃ b, (SelectItem.aliased f).Borrows below b ∧ d = b.markSubquery) ∨
        (f.child.countsRows = true ∧ d = f.toAttribute.withName countName) := by
    intro d
    constructor
    · intro hd
      cases hd with
      | column hcolumn => exact Or.inl (Or.inl hcolumn)
      | borrowed hb => exact Or.inl (Or.inr ⟨_, hb, rfl⟩)
      | rows hcounts => exact Or.inr ⟨hcounts, rfl⟩
    · rintro ((hcolumn | ⟨b, hb, rfl⟩) | ⟨hcounts, rfl⟩)
      · exact .column hcolumn
      · exact .borrowed hb
      · exact .rows hcounts
  cases hcounts : f.child.countsRows with
  | true =>
    rw [if_pos rfl]
    exact (hrepresents.insert _).congr fun d => by simp [hasks, hcounts]
  | false =>
    rw [if_neg Bool.false_ne_true]
    exact hrepresents.congr fun d => by simp [hasks, hcounts]

end Lineage

/-! ## Named expressions over a table -/

namespace Alias

/-- A named expression over a table: its columns are the table's, its subqueries have a lineage
where `below` traces them, and what it borrows from them is no column of the table. -/
structure IsOver (below : Lineage.Below) (output : List Attribute) (f : Alias) : Prop where
  reads : ∀ a ∈ f.child.attributes, a ∈ output
  traced : ∀ query ∈ (SelectItem.aliased f).tracedSubqueries,
    ∃ answer, (below query ∅).result = .ok answer
  lent : ∀ b, (SelectItem.aliased f).Borrows below b → b.id ∉ output.map Attribute.id

/-- What a named expression over a table is traced to. -/
inductive TracedTo (below : Lineage.Below) (qualifier : List String) (f : Alias) : Attribute → Prop
  /-- A column of the table. -/
  | column {a : Attribute} (h : a ∈ f.child.attributes) :
    TracedTo below qualifier f (a.withQualifier qualifier)
  /-- What it borrows, as the subquery has it. -/
  | borrowed {b : Attribute} (h : (SelectItem.aliased f).Borrows below b) :
    TracedTo below qualifier f b
  /-- The marker of the table's rows. -/
  | rows (h : f.child.countsRows = true) :
    TracedTo below qualifier f ⟨f.id, some countName, qualifier⟩

open Lineage

variable {settings : Settings} {below : Below} {output : List Attribute} {f : Alias} {n : Nat}
variable {plan : Plan} {table : Option TableName} {sources : AttributeSet}

/-- A table can tell whatever the expression asks for. -/
theorem IsOver.comparable (h : f.IsOver below output) {d : Attribute} (hd : f.Asks below d) :
    Comparable output d := by
  cases hd with
  | column hcolumn => exact Or.inl (comparesName_of_mem (h.reads d hcolumn))
  | borrowed _ => exact Or.inl (comparesName_of_marked (Attribute.isSubqueryMarked_markSubquery _))
  | rows _ => exact Or.inr rfl

/-- The table has an answer to all that the expression asks for, and it is traced to that. -/
theorem IsOver.exists_answer (h : f.IsOver below output) (qualifier : List String) {d : Attribute}
    (hd : f.Asks below d) :
    ∃ e, LineageMap.answer? output qualifier d = some e ∧ f.TracedTo below qualifier e := by
  cases hd with
  | column hcolumn => exact ⟨_, answer?_of_mem (h.reads d hcolumn) qualifier, .column hcolumn⟩
  | borrowed hb =>
    exact ⟨_, answer?_markSubquery_of_unknown (h.lent _ hb) qualifier, .borrowed hb⟩
  | rows hcounts => exact ⟨_, answer?_countMarker output qualifier f.id, .rows hcounts⟩

/-- The expression is traced to the answers to what it asks for. -/
theorem IsOver.tracedTo_iff (h : f.IsOver below output) (qualifier : List String) (e : Attribute) :
    f.TracedTo below qualifier e ↔
      ∃ d, f.Asks below d ∧ LineageMap.answer? output qualifier d = some e := by
  constructor
  · intro htraced
    cases htraced with
    | column hcolumn => exact ⟨_, .column hcolumn, answer?_of_mem (h.reads _ hcolumn) qualifier⟩
    | borrowed hb =>
      exact ⟨_, .borrowed hb, answer?_markSubquery_of_unknown (h.lent e hb) qualifier⟩
    | rows hcounts => exact ⟨_, .rows hcounts, answer?_countMarker output qualifier f.id⟩
  · rintro ⟨d, hd, he⟩
    obtain ⟨e', he', htraced⟩ := h.exists_answer qualifier hd
    rwa [Option.some.inj (he.symm.trans he')]

/-- A table's answer for an entry of a select list represents what the entry is traced to. -/
theorem IsOver.represents_sourcesOf {items : List SelectItem} (hn : 0 < n)
    (h : f.IsOver (extractWithin settings n) output)
    (hplan : plan.selectList? = some (items, .relation output table)) (hf : .aliased f ∈ items)
    (hunique : ∀ other ∈ items, other.toAttribute = f.toAttribute → other = .aliased f)
    (hothers : ∀ other ∈ items, other ≠ .aliased f →
      other.HasSources (extractWithin settings n) (Comparable output)) :
    ∃ m, (extractWithin settings (n + 1) plan ∅).result = .ok m ∧
      (m.sourcesOf f.toAttribute).Represents
        (f.TracedTo (extractWithin settings n) (relationQualifier table)) := by
  obtain ⟨sources, hsources⟩ := exists_aliasSources h.traced
  obtain ⟨selected, hselected, hcomparable, hentry⟩ := exists_selected_of_item
    (result_itemSources_aliased hsources)
    (fun d hd => h.comparable ((represents_aliasSources hsources).sound d hd)) hf hunique hothers
  refine ⟨_, result_extractWithin_overTable hn hplan hselected hcomparable, ?_⟩
  have hanswers := represents_sourcesOf_answerOf hentry (represents_aliasSources hsources)
    fun d hd => (h.exists_answer (relationQualifier table) hd).imp fun _ he => he.1
  exact hanswers.congr fun e => (h.tracedTo_iff (relationQualifier table) e).symm

end Alias

end ColumnTrace
