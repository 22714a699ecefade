import ColumnTrace.Proofs.Accounts
import ColumnTrace.Proofs.Lineage.Depth
import ColumnTrace.Proofs.Lineage.EverySource
import ColumnTrace.Proofs.Lineage.MarksTakenOff

/-!
# Columns that select lists borrow from subqueries

An entry of a select list without columns of its own borrows its sources from the scalar subqueries
in it and asks the plan under the select list for them, marked. Whatever it asks for is one of the
columns that it refers to, a marked column that it borrows, or the marker of its rows
(`mem_itemSources`); where the subqueries have columns of their own, it asks for all that it borrows
(`mem_sources_of_borrowsApart`).
-/

set_option autoImplicit false

namespace ColumnTrace

/-- The column is a source of a column of one of the subqueries that the entry takes its sources
from, where these are traced by `below`. -/
def SelectItem.Borrows (below : Lineage.Below) (item : SelectItem) (a : Attribute) : Prop :=
  ∃ query ∈ item.tracedSubqueries, ∃ answer, (below query ∅).result = .ok answer ∧
    ∃ entry ∈ answer.entries, a ∈ entry.2.attrs

/-- An expression consults its subqueries if it has no columns. -/
theorem SelectItem.mem_tracedSubqueries {f : Alias} {query : Plan} :
    query ∈ (SelectItem.aliased f).tracedSubqueries ↔
      f.child.attributes = [] ∧ query ∈ f.child.subqueries := by
  rw [SelectItem.tracedSubqueries]
  split
  · next hempty =>
    exact (and_iff_right (AttributeSet.isEmpty_ofList.1 hempty)).symm
  · next hsome =>
    refine iff_of_false List.not_mem_nil ?_
    rintro ⟨hfree, -⟩
    exact hsome (AttributeSet.isEmpty_ofList.2 hfree)

/-- An expression that borrows has no columns of its own. -/
theorem SelectItem.columnFree_of_borrows {below : Lineage.Below} {f : Alias} {a : Attribute}
    (h : (SelectItem.aliased f).Borrows below a) : f.child.attributes = [] := by
  obtain ⟨query, hquery, -⟩ := h
  exact (SelectItem.mem_tracedSubqueries.1 hquery).1

/-- The expression has no columns of its own, and what it borrows are unmarked columns that the plan
below does not know, with an identity each. -/
structure Alias.BorrowsApart (settings : Settings) (child : Plan) (f : Alias) : Prop where
  columnFree : f.child.attributes = []
  id_unknown : f.id ∉ child.columnIds
  unmarked : ∀ a, (SelectItem.aliased f).Borrows (Plan.extract settings) a → a.Unmarked
  unknown : ∀ a, (SelectItem.aliased f).Borrows (Plan.extract settings) a → a.id ∉ child.columnIds
  unique : ∀ a b, (SelectItem.aliased f).Borrows (Plan.extract settings) a →
    (SelectItem.aliased f).Borrows (Plan.extract settings) b → a.id = b.id → a = b

namespace Lineage

open Traced

variable {settings : Settings} {child : Plan} {n : Nat} {a b : Attribute}

/-- What subqueries with these answers lend: all their sources, marked. -/
def lentBy (answers : List LineageMap) : AttributeSet :=
  .ofList (((LineageMap.mergeAll answers).values.flatMap AttributeSet.attrs).map
    Attribute.markSubquery)

/-- The column is a source in one of the answers. -/
def Lends (answers : List LineageMap) (a : Attribute) : Prop :=
  ∃ answer ∈ answers, ∃ entry ∈ answer.entries, a ∈ entry.2.attrs

/-- What subqueries answer together is lent by one of them. -/
theorem lends_of_mem_values {answers : List LineageMap}
    (h : a ∈ (LineageMap.mergeAll answers).values.flatMap AttributeSet.attrs) :
    Lends answers a := by
  obtain ⟨sources, hsources, ha⟩ := List.mem_flatMap.1 h
  have hall : (LineageMap.mergeAll answers).All (Lends answers) :=
    LineageMap.all_mergeAll fun answer hanswer entry hentry b hb =>
      ⟨answer, hanswer, entry, hentry, hb⟩
  exact hall.values hsources ha

/-- What is lent is a source in one of the answers, marked. -/
theorem exists_of_mem_lentBy {answers : List LineageMap} (h : a ∈ (lentBy answers).attrs) :
    ∃ b, Lends answers b ∧ a = b.markSubquery := by
  obtain ⟨b, hb, rfl⟩ := List.mem_map.1 (AttributeSet.mem_of_mem_ofList h)
  exact ⟨b, lends_of_mem_values hb, rfl⟩

/-- Of each identity among the sources one is lent. -/
theorem mem_ids_lentBy {answers : List LineageMap} (h : Lends answers b) :
    b.id ∈ (lentBy answers).attrs.map Attribute.id := by
  obtain ⟨answer, hanswer, entry, hentry, hb⟩ := h
  have hid : b.id ∈ ((LineageMap.mergeAll answers).sourcesOf entry.1).attrs.map Attribute.id := by
    rw [LineageMap.mem_ids_sourcesOf_mergeAll]
    refine ⟨answer, hanswer, ?_⟩
    rw [LineageMap.sourcesOf_of_mem hentry]
    exact List.mem_map_of_mem hb
  obtain ⟨c, hc, hid⟩ := List.mem_map.1 hid
  have hmem : c ∈ (LineageMap.mergeAll answers).values.flatMap AttributeSet.attrs :=
    List.mem_flatMap.2
      ⟨_, List.mem_map_of_mem (LineageMap.mem_entries_of_mem_sourcesOf hc), hc⟩
  obtain ⟨d, hd, hdc⟩ := AttributeSet.exists_mem_ofList (List.mem_map_of_mem hmem)
  exact List.mem_map.2 ⟨d, hd, hdc.trans hid⟩

/-- Sources with an identity each are all lent. -/
theorem mem_lentBy {answers : List LineageMap}
    (hunique : ∀ x y, Lends answers x → Lends answers y → x.id = y.id → x = y)
    (h : Lends answers b) : b.markSubquery ∈ (lentBy answers).attrs := by
  obtain ⟨d, hd, hid⟩ := List.mem_map.1 (mem_ids_lentBy h)
  obtain ⟨c, hc, rfl⟩ := exists_of_mem_lentBy hd
  rw [← hunique c b hc h hid]
  exact hd

/-- A named expression takes its sources from its columns, or has none and borrows them; where it
counts rows, it asks for their marker too. -/
theorem exists_taken_of_aliasSources {below : Below} {f : Alias} {sources : AttributeSet}
    (h : (aliasSources below f).result = .ok sources) :
    ∃ taken : AttributeSet,
      ((f.child.attributes ≠ [] ∧ taken = f.child.references) ∨
        (f.child.attributes = [] ∧ ∃ answers,
          List.Forall₂ (fun query answer => (below query ∅).result = .ok answer)
            f.child.subqueries answers ∧ taken = lentBy answers)) ∧
      sources = if f.child.countsRows then taken.insert (f.toAttribute.withName countName)
        else taken := by
  simp only [aliasSources] at h
  split at h
  · next hempty =>
    obtain ⟨answers, hanswers, h⟩ := result_bind_eq_ok.1 h
    obtain ⟨taken, htaken, hsources⟩ := result_bind_eq_ok.1 h
    exact ⟨taken, Or.inr ⟨AttributeSet.isEmpty_ofList.1 hempty, answers,
      result_mapM_eq_ok.1 hanswers, (Except.ok.inj htaken).symm⟩, (Except.ok.inj hsources).symm⟩
  · next hsome =>
    obtain ⟨taken, htaken, hsources⟩ := result_bind_eq_ok.1 h
    exact ⟨taken, Or.inl ⟨fun hnil => hsome (AttributeSet.isEmpty_ofList.2 hnil),
      (Except.ok.inj htaken).symm⟩, (Except.ok.inj hsources).symm⟩

/-- A named expression has sources where the subqueries that it takes them from have a lineage. -/
theorem exists_aliasSources {below : Below} {f : Alias}
    (h : ∀ query ∈ (SelectItem.aliased f).tracedSubqueries,
      ∃ answer, (below query ∅).result = .ok answer) :
    ∃ sources, (aliasSources below f).result = .ok sources := by
  simp only [aliasSources]
  split
  · next hempty =>
    rw [SelectItem.tracedSubqueries, if_pos hempty] at h
    obtain ⟨answers, hanswers⟩ := exists_forall₂ h
    rw [result_bind_of_ok (result_mapM_eq_ok.2 hanswers)]
    exact ⟨_, rfl⟩
  · exact ⟨_, rfl⟩

/-- A source of an entry is a column that the entry refers to, a borrowed column under its mark, or
the marker of its rows. -/
theorem mem_itemSources {below : Below} {item : SelectItem} {entry : Attribute × AttributeSet}
    (h : (itemSources below item).result = .ok entry) (ha : a ∈ entry.2.attrs) :
    a ∈ item.toExpr.attributes ∨ (∃ b, item.Borrows below b ∧ a = b.markSubquery) ∨
      ∃ f, item = .aliased f ∧ a = f.toAttribute.withName countName := by
  cases item with
  | column c =>
    cases Except.ok.inj h
    exact Or.inl ha
  | aliased f =>
    obtain ⟨sources, hsources, hentry⟩ := result_bind_eq_ok.1 h
    cases Except.ok.inj hentry
    obtain ⟨taken, htaken, rfl⟩ := exists_taken_of_aliasSources hsources
    have hmem : a ∈ taken.attrs ∨ a = f.toAttribute.withName countName := by
      split at ha
      · exact AttributeSet.mem_or_eq_of_mem_insert ha
      · exact Or.inl ha
    rcases hmem with hmem | rfl
    · rcases htaken with ⟨-, rfl⟩ | ⟨hfree, answers, hanswers, rfl⟩
      · obtain ⟨e, name, id⟩ := f
        exact Or.inl (AttributeSet.mem_of_mem_ofList hmem)
      · obtain ⟨b, ⟨answer, hanswer, found, hfound, hb⟩, rfl⟩ := exists_of_mem_lentBy hmem
        obtain ⟨query, hquery, hok⟩ := exists_left_of_forall₂ hanswers hanswer
        have htraced := SelectItem.mem_tracedSubqueries.2 ⟨hfree, hquery⟩
        exact Or.inr (Or.inl ⟨b, ⟨query, htraced, answer, hok, found, hfound, hb⟩, rfl⟩)
    · exact Or.inr (Or.inr ⟨f, rfl, rfl⟩)

/-- An expression without columns borrows what its subqueries lend. -/
theorem borrows_iff_lends {below : Below} {f : Alias} (hfree : f.child.attributes = [])
    {answers : List LineageMap}
    (hanswers : List.Forall₂ (fun query answer => (below query ∅).result = .ok answer)
      f.child.subqueries answers) :
    (SelectItem.aliased f).Borrows below b ↔ Lends answers b := by
  simp only [SelectItem.Borrows, SelectItem.mem_tracedSubqueries, hfree, true_and]
  constructor
  · rintro ⟨query, hquery, answer, hanswer, hlends⟩
    obtain ⟨found, hfound, hok⟩ := exists_left_of_forall₂ hanswers.flip hquery
    exact ⟨found, hfound, Except.ok.inj (hok.symm.trans hanswer) ▸ hlends⟩
  · rintro ⟨answer, hanswer, hlends⟩
    obtain ⟨query, hquery, hok⟩ := exists_left_of_forall₂ hanswers hanswer
    exact ⟨query, hquery, answer, hok, hlends⟩

/-- What an expression without columns asks for: whatever it borrows, marked, and nothing else but
the marker of its rows. -/
theorem mem_sources_of_borrowsApart {f : Alias} {sources : AttributeSet}
    (hapart : f.BorrowsApart settings child) (hn : n ≤ settings.maxPlanDepth + 1)
    (h : (aliasSources (extractWithin settings n) f).result = .ok sources) :
    (∀ b, (SelectItem.aliased f).Borrows (Plan.extract settings) b →
      b.markSubquery ∈ sources.attrs) ∧
    ∀ d ∈ sources.attrs,
      (∃ b, (SelectItem.aliased f).Borrows (Plan.extract settings) b ∧ d = b.markSubquery) ∨
        d = f.toAttribute.withName countName := by
  obtain ⟨taken, ⟨hcolumns, -⟩ | ⟨-, answers, hanswers, rfl⟩, rfl⟩ :=
    exists_taken_of_aliasSources h
  · exact absurd hapart.columnFree hcolumns
  have hlends : ∀ b, (SelectItem.aliased f).Borrows (Plan.extract settings) b ↔
      Lends answers b := fun b => borrows_iff_lends hapart.columnFree
    (hanswers.imp fun _ _ => extract_of_extractWithin hn)
  have hlent : ∀ b, (SelectItem.aliased f).Borrows (Plan.extract settings) b →
      b.markSubquery ∈ (lentBy answers).attrs := by
    intro b hb
    refine mem_lentBy (fun x y hx hy hid => ?_) ((hlends b).1 hb)
    exact hapart.unique x y ((hlends x).2 hx) ((hlends y).2 hy) hid
  have hborrowed : ∀ d ∈ (lentBy answers).attrs,
      ∃ b, (SelectItem.aliased f).Borrows (Plan.extract settings) b ∧ d = b.markSubquery := by
    intro d hd
    obtain ⟨b, hb, rfl⟩ := exists_of_mem_lentBy hd
    exact ⟨b, (hlends b).2 hb, rfl⟩
  split
  · refine ⟨fun b hb => ?_, fun d hd => ?_⟩
    · -- the marker of rows is bare and takes no marked column's place
      refine AttributeSet.mem_insert_of_qualified (Or.inl (hlent b hb)) ?_ ?_
      · simp [Attribute.markSubquery, Attribute.withQualifier]
      · rintro y (hy | rfl) hid hqualified
        · exact AttributeSet.eq_of_id_eq hy (hlent b hb) hid
        · cases hqualified
    · exact (AttributeSet.mem_or_eq_of_mem_insert hd).imp_left (hborrowed d)
  · exact ⟨hlent, fun d hd => Or.inl (hborrowed d hd)⟩

end Lineage

end ColumnTrace
