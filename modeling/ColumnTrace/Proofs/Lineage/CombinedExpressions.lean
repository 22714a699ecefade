import ColumnTrace.Proofs.Lineage.SelectedSources
import ColumnTrace.Proofs.Lineage.SubqueryMarks

/-!
# Sources of combined expressions

A call of two expressions over a table is traced to what both are traced to, with one exception: its
subqueries are consulted only if it refers to no column. So an expression without columns loses what
it borrows where the other one has columns (`Alias.Keeps`). The marker of rows and the columns that
an expression refers to are never lost (`Lineage.sourcesOf_call_iff`).
-/

set_option autoImplicit false

namespace ColumnTrace

open Traced

namespace Alias

variable {below : Lineage.Below} {output : List Attribute} {qualifier : List String}
variable {function : String} {e₁ e₂ : Expr} {name : Label} {id : Int} {x : Attribute}

/-- A source with this identity stays a source of the expression beside another one: any source of
an expression with columns and the marker of its rows do, what it borrows does where the other one
has no columns either. -/
def Keeps (f : Alias) (other : Expr) (id : Int) : Prop :=
  f.child.attributes ≠ [] ∨ other.attributes = [] ∨ id = f.id

/-- Two expressions side by side under one name. -/
abbrev call (function : String) (e₁ e₂ : Expr) (name : Label) (id : Int) : Alias :=
  .mk (.call function [e₁, e₂]) name id

theorem attributes_call :
    (call function e₁ e₂ name id).child.attributes = e₁.attributes ++ e₂.attributes := by
  simp [child, Expr.attributes, Expr.attributesOfAll]

theorem subqueries_call :
    (call function e₁ e₂ name id).child.subqueries = e₁.subqueries ++ e₂.subqueries := by
  simp [child, Expr.subqueries, Expr.subqueriesOfAll]

theorem countsRows_call :
    (call function e₁ e₂ name id).child.countsRows = (e₁.countsRows || e₂.countsRows) := by
  simp [child, Expr.countsRows, Expr.anyCountsRows]

/-- A named expression over a table whose identity is new: no column of the table and nothing that
it borrows has it. -/
structure IsNewOver (below : Lineage.Below) (output : List Attribute) (f : Alias) : Prop
    extends f.IsOver below output where
  fresh : f.id ∉ output.map Attribute.id
  apart : ∀ b, (SelectItem.aliased f).Borrows below b → b.id ≠ f.id

/-- A call consults the subqueries of an expression if the other one has no columns either. -/
theorem mem_tracedSubqueries_call {query : Plan} :
    query ∈ (SelectItem.aliased (call function e₁ e₂ name id)).tracedSubqueries ↔
      (query ∈ (SelectItem.aliased (.mk e₁ name id)).tracedSubqueries ∧ e₂.attributes = []) ∨
        (query ∈ (SelectItem.aliased (.mk e₂ name id)).tracedSubqueries ∧ e₁.attributes = []) := by
  simp only [SelectItem.mem_tracedSubqueries, attributes_call, subqueries_call,
    List.append_eq_nil_iff, List.mem_append]
  show _ ↔ ((e₁.attributes = [] ∧ query ∈ e₁.subqueries) ∧ _) ∨
    ((e₂.attributes = [] ∧ query ∈ e₂.subqueries) ∧ _)
  tauto

/-- Two expressions side by side borrow what one of them borrows while the other has no columns. -/
theorem borrows_call_iff {b : Attribute} :
    (SelectItem.aliased (call function e₁ e₂ name id)).Borrows below b ↔
      ((SelectItem.aliased (.mk e₁ name id)).Borrows below b ∧ e₂.attributes = []) ∨
        ((SelectItem.aliased (.mk e₂ name id)).Borrows below b ∧ e₁.attributes = []) := by
  simp only [SelectItem.Borrows, mem_tracedSubqueries_call]
  constructor
  · rintro ⟨query, ⟨hquery, hfree⟩ | ⟨hquery, hfree⟩, hlends⟩
    · exact Or.inl ⟨⟨query, hquery, hlends⟩, hfree⟩
    · exact Or.inr ⟨⟨query, hquery, hlends⟩, hfree⟩
  · rintro (⟨⟨query, hquery, hlends⟩, hfree⟩ | ⟨⟨query, hquery, hlends⟩, hfree⟩)
    · exact ⟨query, Or.inl ⟨hquery, hfree⟩, hlends⟩
    · exact ⟨query, Or.inr ⟨hquery, hfree⟩, hlends⟩

/-- Two expressions over a table are over it side by side. -/
theorem IsOver.call (h₁ : (Alias.mk e₁ name id).IsOver below output)
    (h₂ : (Alias.mk e₂ name id).IsOver below output) :
    (Alias.call function e₁ e₂ name id).IsOver below output where
  reads a ha := by
    rw [attributes_call, List.mem_append] at ha
    exact ha.elim (h₁.reads a) (h₂.reads a)
  traced query hquery := by
    rcases mem_tracedSubqueries_call.1 hquery with ⟨hquery, -⟩ | ⟨hquery, -⟩
    · exact h₁.traced query hquery
    · exact h₂.traced query hquery
  lent b hb := by
    rcases borrows_call_iff.1 hb with ⟨hb, -⟩ | ⟨hb, -⟩
    · exact h₁.lent b hb
    · exact h₂.lent b hb

/-- What an expression is traced to and keeps beside another one, that expression is traced to which
has its columns and counts, and borrows what it borrows where the other one has no columns. -/
theorem IsNewOver.tracedTo_of_keeps {f g : Alias} {other : Expr} (h : f.IsNewOver below output)
    (hid : f.id = g.id) (hcolumns : f.child.attributes ⊆ g.child.attributes)
    (hcounts : f.child.countsRows = true → g.child.countsRows = true)
    (hborrows : ∀ b, (SelectItem.aliased f).Borrows below b → other.attributes = [] →
      (SelectItem.aliased g).Borrows below b)
    (hx : f.TracedTo below qualifier x) (hkeeps : f.Keeps other x.id) :
    g.TracedTo below qualifier x := by
  cases hx with
  | column hcolumn => exact .column (hcolumns hcolumn)
  | borrowed hb =>
    rcases hkeeps with hsome | hfree | hrows
    · exact absurd (SelectItem.columnFree_of_borrows hb) hsome
    · exact .borrowed (hborrows x hb hfree)
    · exact absurd hrows (h.apart x hb)
  | rows hrows => exact hid ▸ .rows (hcounts hrows)

/-- A call is traced to what its two expressions are traced to and keep beside each other. -/
theorem IsNewOver.tracedTo_call_iff (h₁ : (Alias.mk e₁ name id).IsNewOver below output)
    (h₂ : (Alias.mk e₂ name id).IsNewOver below output) :
    (Alias.call function e₁ e₂ name id).TracedTo below qualifier x ↔
      ((Alias.mk e₁ name id).TracedTo below qualifier x ∧
          (Alias.mk e₁ name id).Keeps e₂ x.id) ∨
        ((Alias.mk e₂ name id).TracedTo below qualifier x ∧
          (Alias.mk e₂ name id).Keeps e₁ x.id) := by
  constructor
  · intro hx
    cases hx with
    | column hcolumn =>
      rw [attributes_call, List.mem_append] at hcolumn
      rcases hcolumn with hcolumn | hcolumn
      · exact Or.inl ⟨.column hcolumn, Or.inl (List.ne_nil_of_mem hcolumn)⟩
      · exact Or.inr ⟨.column hcolumn, Or.inl (List.ne_nil_of_mem hcolumn)⟩
    | borrowed hb =>
      rcases borrows_call_iff.1 hb with ⟨hb, hfree⟩ | ⟨hb, hfree⟩
      · exact Or.inl ⟨.borrowed hb, Or.inr (Or.inl hfree)⟩
      · exact Or.inr ⟨.borrowed hb, Or.inr (Or.inl hfree)⟩
    | rows hrows =>
      rw [countsRows_call, Bool.or_eq_true] at hrows
      rcases hrows with hrows | hrows
      · exact Or.inl ⟨.rows hrows, Or.inr (Or.inr rfl)⟩
      · exact Or.inr ⟨.rows hrows, Or.inr (Or.inr rfl)⟩
  · rintro (⟨hx, hkeeps⟩ | ⟨hx, hkeeps⟩)
    · refine h₁.tracedTo_of_keeps rfl ?_ ?_ ?_ hx hkeeps
      · exact attributes_call ▸ List.subset_append_left _ _
      · exact fun hrows => countsRows_call ▸ Bool.or_eq_true_iff.2 (Or.inl hrows)
      · exact fun b hb hfree => borrows_call_iff.2 (Or.inl ⟨hb, hfree⟩)
    · refine h₂.tracedTo_of_keeps rfl ?_ ?_ ?_ hx hkeeps
      · exact attributes_call ▸ List.subset_append_right _ _
      · exact fun hrows => countsRows_call ▸ Bool.or_eq_true_iff.2 (Or.inr hrows)
      · exact fun b hb hfree => borrows_call_iff.2 (Or.inr ⟨hb, hfree⟩)

/-- An identity stands for one column of the table, and for one column in what the two expressions
borrow. -/
structure Identified (below : Lineage.Below) (output : List Attribute) (f g : Alias) : Prop where
  columns : (output.map Attribute.id).Nodup
  borrowed : ∀ b c,
    (SelectItem.aliased f).Borrows below b ∨ (SelectItem.aliased g).Borrows below b →
    (SelectItem.aliased f).Borrows below c ∨ (SelectItem.aliased g).Borrows below c →
    b.id = c.id → b = c

/-- Then it stands for one column in all that they are traced to. -/
theorem Identified.eq_of_id_eq {f g : Alias} {y : Attribute} (h : Identified below output f g)
    (hf : f.IsNewOver below output) (hg : g.IsNewOver below output) (hid : f.id = g.id)
    (hx : f.TracedTo below qualifier x ∨ g.TracedTo below qualifier x)
    (hy : f.TracedTo below qualifier y ∨ g.TracedTo below qualifier y) (hxy : x.id = y.id) :
    x = y := by
  -- each of the two is a column of the table, borrowed, or the one marker
  have hkinds : ∀ {z}, f.TracedTo below qualifier z ∨ g.TracedTo below qualifier z →
      (∃ a ∈ output, z = a.withQualifier qualifier) ∨
        (((SelectItem.aliased f).Borrows below z ∨ (SelectItem.aliased g).Borrows below z) ∧
          z.id ∉ output.map Attribute.id ∧ z.id ≠ f.id) ∨
        z = ⟨f.id, some countName, qualifier⟩ := by
    rintro z (hz | hz)
    · cases hz with
      | column ha => exact Or.inl ⟨_, hf.reads _ ha, rfl⟩
      | borrowed hb => exact Or.inr (Or.inl ⟨Or.inl hb, hf.lent z hb, hf.apart z hb⟩)
      | rows _ => exact Or.inr (Or.inr rfl)
    · cases hz with
      | column ha => exact Or.inl ⟨_, hg.reads _ ha, rfl⟩
      | borrowed hb => exact Or.inr (Or.inl ⟨Or.inr hb, hg.lent z hb, hid ▸ hg.apart z hb⟩)
      | rows _ => exact Or.inr (Or.inr (by rw [hid]))
  have hown : ∀ {a : Attribute} {i : Int}, a ∈ output → a.id = i → i ∈ output.map Attribute.id :=
    fun ha hi => hi ▸ List.mem_map_of_mem ha
  rcases hkinds hx with ⟨a, ha, rfl⟩ | ⟨hb, hunknown, hother⟩ | rfl
  · rcases hkinds hy with ⟨c, hc, rfl⟩ | ⟨-, hunknown, -⟩ | rfl
    · rw [List.inj_on_of_nodup_map h.columns ha hc hxy]
    · exact absurd (hown ha hxy) hunknown
    · exact absurd (hown ha hxy) hf.fresh
  · rcases hkinds hy with ⟨c, hc, rfl⟩ | ⟨hc, -, -⟩ | rfl
    · exact absurd (hown hc hxy.symm) hunknown
    · exact h.borrowed x y hb hc hxy
    · exact absurd hxy hother
  · rcases hkinds hy with ⟨c, hc, rfl⟩ | ⟨-, -, hother⟩ | rfl
    · exact absurd (hown hc hxy.symm) hf.fresh
    · exact absurd hxy.symm hother
    · rfl

end Alias

/-- One named expression is selected from a table. -/
def Plan.selectOne (f : Alias) (output : List Attribute) (table : Option TableName) : Plan :=
  .project [.aliased f] (.relation output table)

namespace Lineage

variable {settings : Settings} {output : List Attribute} {e₁ e₂ : Expr} {name : Label} {id : Int}

/-- The lineage of a named expression over a table represents what it is traced to. -/
theorem exists_extract_selectOne (table : Option TableName) {f : Alias}
    (h : f.IsOver (extractWithin settings settings.maxPlanDepth) output) :
    ∃ m, ((Plan.selectOne f output table).extract settings ∅).result = .ok m ∧
      (m.sourcesOf f.toAttribute).Represents
        (f.TracedTo (extractWithin settings settings.maxPlanDepth) (relationQualifier table)) := by
  rw [extract_eq]
  refine h.represents_sourcesOf settings.maxPlanDepth_pos rfl List.mem_cons_self ?_ ?_
  · exact fun other hother _ => List.mem_singleton.1 hother
  · exact fun other hother hne => absurd (List.mem_singleton.1 hother) hne

/-- The sources of a call of two expressions over a table are those of both, as far as each
expression keeps them beside the other one: identity by identity, and column by column where an
identity stands for one column. -/
theorem sourcesOf_call_iff (function : String) (table : Option TableName)
    (h₁ : (Alias.mk e₁ name id).IsNewOver (extractWithin settings settings.maxPlanDepth) output)
    (h₂ : (Alias.mk e₂ name id).IsNewOver (extractWithin settings settings.maxPlanDepth) output) :
    ∃ both first second : LineageMap,
      ((Plan.selectOne (.call function e₁ e₂ name id) output table).extract settings ∅).result =
        .ok both ∧
      ((Plan.selectOne (.mk e₁ name id) output table).extract settings ∅).result = .ok first ∧
      ((Plan.selectOne (.mk e₂ name id) output table).extract settings ∅).result = .ok second ∧
      (∀ i, i ∈ (both.sourcesOf ⟨id, name, []⟩).attrs.map Attribute.id ↔
        (i ∈ (first.sourcesOf ⟨id, name, []⟩).attrs.map Attribute.id ∧
            (Alias.mk e₁ name id).Keeps e₂ i) ∨
          (i ∈ (second.sourcesOf ⟨id, name, []⟩).attrs.map Attribute.id ∧
            (Alias.mk e₂ name id).Keeps e₁ i)) ∧
      (Alias.Identified (extractWithin settings settings.maxPlanDepth) output (.mk e₁ name id)
          (.mk e₂ name id) →
        ∀ x, x ∈ (both.sourcesOf ⟨id, name, []⟩).attrs ↔
          (x ∈ (first.sourcesOf ⟨id, name, []⟩).attrs ∧ (Alias.mk e₁ name id).Keeps e₂ x.id) ∨
            (x ∈ (second.sourcesOf ⟨id, name, []⟩).attrs ∧
              (Alias.mk e₂ name id).Keeps e₁ x.id)) := by
  have hover : (Alias.call function e₁ e₂ name id).IsOver
      (extractWithin settings settings.maxPlanDepth) output := h₁.toIsOver.call h₂.toIsOver
  obtain ⟨both, hboth, hrepresents⟩ := exists_extract_selectOne table hover
  obtain ⟨first, hfirst, hfirstSources⟩ := exists_extract_selectOne table h₁.toIsOver
  obtain ⟨second, hsecond, hsecondSources⟩ := exists_extract_selectOne table h₂.toIsOver
  have hbothSources := hrepresents.congr fun x => h₁.tracedTo_call_iff h₂
  change (both.sourcesOf ⟨id, name, []⟩).Represents _ at hbothSources
  change (first.sourcesOf ⟨id, name, []⟩).Represents _ at hfirstSources
  change (second.sourcesOf ⟨id, name, []⟩).Represents _ at hsecondSources
  refine ⟨both, first, second, hboth, hfirst, hsecond, fun i => ?_, fun hidentified x => ?_⟩
  · rw [hbothSources.mem_ids_iff, hfirstSources.mem_ids_iff, hsecondSources.mem_ids_iff]
    constructor
    · rintro ⟨x, ⟨hx, hkeeps⟩ | ⟨hx, hkeeps⟩, rfl⟩
      · exact Or.inl ⟨⟨x, hx, rfl⟩, hkeeps⟩
      · exact Or.inr ⟨⟨x, hx, rfl⟩, hkeeps⟩
    · rintro (⟨⟨x, hx, rfl⟩, hkeeps⟩ | ⟨⟨x, hx, rfl⟩, hkeeps⟩)
      · exact ⟨x, Or.inl ⟨hx, hkeeps⟩, rfl⟩
      · exact ⟨x, Or.inr ⟨hx, hkeeps⟩, rfl⟩
  -- where one identity is one column, the sources are told apart by their identities
  · rw [hbothSources.mem_iff fun y hy hx => hidentified.eq_of_id_eq h₁ h₂ rfl
        (hy.imp And.left And.left) (hx.imp And.left And.left),
      hfirstSources.mem_iff fun y hy hx =>
        hidentified.eq_of_id_eq h₁ h₂ rfl (Or.inl hy) (Or.inl hx),
      hsecondSources.mem_iff fun y hy hx =>
        hidentified.eq_of_id_eq h₁ h₂ rfl (Or.inr hy) (Or.inr hx)]

/-! ## A column beside a greatest value -/

/-- The column `x` of the table `u`, under the name `s`. -/
def columnOfTable : Alias := .mk (.column ⟨2, some "x", []⟩) (some "s") 9

/-- The greatest `a` of the table `t`, under the name `s`. -/
def greatestValue : Alias := .mk (.subquery greatest) (some "s") 9

theorem not_borrows_columnOfTable {below : Below} {b : Attribute} :
    ¬ (SelectItem.aliased columnOfTable).Borrows below b := fun hb =>
  absurd (SelectItem.columnFree_of_borrows hb) (by decide)

/-- The greatest `a` of `t` borrows `t.a` and nothing else. -/
theorem eq_of_borrows_greatestValue {b : Attribute}
    (h : (SelectItem.aliased greatestValue).Borrows
      (extractWithin .standard Settings.standard.maxPlanDepth) b) : b = ⟨1, some "a", ["t"]⟩ := by
  obtain ⟨query, hquery, answer, hanswer, hlent⟩ := h
  obtain rfl : query = greatest := List.mem_singleton.1 hquery
  obtain rfl := Except.ok.inj hanswer
  obtain ⟨entry, hentry, hb⟩ := hlent
  obtain rfl := List.mem_singleton.1 hentry
  exact List.mem_singleton.1 hb

/-- The column of `u` under a new name is new over `u`. -/
theorem isNewOver_columnOfTable (below : Below) :
    columnOfTable.IsNewOver below [⟨2, some "x", []⟩] where
  reads := by decide
  traced query hquery := absurd (SelectItem.mem_tracedSubqueries.1 hquery).1 (by decide)
  lent b hb := absurd hb not_borrows_columnOfTable
  fresh := by decide
  apart b hb := absurd hb not_borrows_columnOfTable

/-- The greatest value of another table is new over `u`. -/
theorem isNewOver_greatestValue :
    greatestValue.IsNewOver (extractWithin .standard Settings.standard.maxPlanDepth)
      [⟨2, some "x", []⟩] where
  reads a ha := absurd ha List.not_mem_nil
  traced query hquery := by
    obtain rfl : query = greatest := List.mem_singleton.1 hquery
    exact ⟨_, rfl⟩
  lent b hb := by
    rw [eq_of_borrows_greatestValue hb]
    decide
  fresh := by decide
  apart b hb := by
    rw [eq_of_borrows_greatestValue hb]
    decide

/-- The two expressions have identities that stand for one column each. -/
theorem identified_columnOfTable_greatestValue :
    Alias.Identified (extractWithin .standard Settings.standard.maxPlanDepth) [⟨2, some "x", []⟩]
      columnOfTable greatestValue where
  columns := by decide
  borrowed b c hb hc _ := by
    rw [eq_of_borrows_greatestValue (hb.resolve_left not_borrows_columnOfTable),
      eq_of_borrows_greatestValue (hc.resolve_left not_borrows_columnOfTable)]

/-- Each of the two has its source where it stands alone, and both together have those that are
kept. -/
theorem sourcesOf_call_columnOfTable_greatestValue :
    ∃ both first second : LineageMap,
      ((Plan.selectOne (.call "greatest" columnOfTable.child greatestValue.child (some "s") 9)
        [⟨2, some "x", []⟩] (some ⟨"u", none, none⟩)).extract .standard ∅).result = .ok both ∧
      ((Plan.selectOne columnOfTable [⟨2, some "x", []⟩] (some ⟨"u", none, none⟩)).extract
        .standard ∅).result = .ok first ∧
      ((Plan.selectOne greatestValue [⟨2, some "x", []⟩] (some ⟨"u", none, none⟩)).extract
        .standard ∅).result = .ok second ∧
      ∀ x, x ∈ (both.sourcesOf ⟨9, some "s", []⟩).attrs ↔
        (x ∈ (first.sourcesOf ⟨9, some "s", []⟩).attrs ∧
            columnOfTable.Keeps greatestValue.child x.id) ∨
          (x ∈ (second.sourcesOf ⟨9, some "s", []⟩).attrs ∧
            greatestValue.Keeps columnOfTable.child x.id) := by
  obtain ⟨both, first, second, hboth, hfirst, hsecond, -, hiff⟩ := sourcesOf_call_iff "greatest"
    (some ⟨"u", none, none⟩) (isNewOver_columnOfTable _) isNewOver_greatestValue
  exact ⟨both, first, second, hboth, hfirst, hsecond, hiff identified_columnOfTable_greatestValue⟩

/-- Beside the column of the table the greatest value is traced to nothing: the call has one of the
two sources. -/
theorem extract_call_columnOfTable_greatestValue :
    ((Plan.selectOne (.call "greatest" columnOfTable.child greatestValue.child (some "s") 9)
      [⟨2, some "x", []⟩] (some ⟨"u", none, none⟩)).extract .standard ∅).result =
      .ok (.ofList [(⟨9, some "s", []⟩, .singleton ⟨2, some "x", ["u"]⟩)]) ∧
    ((Plan.selectOne columnOfTable [⟨2, some "x", []⟩] (some ⟨"u", none, none⟩)).extract
      .standard ∅).result = .ok (.ofList [(⟨9, some "s", []⟩, .singleton ⟨2, some "x", ["u"]⟩)]) ∧
    ((Plan.selectOne greatestValue [⟨2, some "x", []⟩] (some ⟨"u", none, none⟩)).extract
      .standard ∅).result = .ok (.ofList [(⟨9, some "s", []⟩, .singleton ⟨1, some "a", ["t"]⟩)]) ∧
    AttributeSet.sameElements (.singleton ⟨2, some "x", ["u"]⟩)
      (.singleton ⟨2, some "x", ["u"]⟩ ∪ .singleton ⟨1, some "a", ["t"]⟩) = false :=
  ⟨by decide +kernel, by decide +kernel, by decide +kernel, by decide⟩

end Lineage

end ColumnTrace
