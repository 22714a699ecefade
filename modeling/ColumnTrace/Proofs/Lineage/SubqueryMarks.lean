import ColumnTrace.Lineage.Statement
import ColumnTrace.Proofs.Lineage.JoinIsolation
import ColumnTrace.Proofs.Lineage.UnmarkedAnswers

/-!
# The marks of subqueries in a lineage

Of a column that borrows all its sources from scalar subqueries with columns of their own, the
sources are unmarked if and only if the plan under the select list takes the mark off whatever is
borrowed (`unmarked_borrowed_iff`). Together with what holds of whole plans this tells when marks
stay in a lineage and in its record: beside a table they come off, beside a view they stay.
-/

set_option autoImplicit false

namespace ColumnTrace

namespace Lineage

open Traced

variable {settings : Settings} {plan child : Plan} {m : LineageMap} {a b : Attribute}

/-- The record of a map without marks shows none. -/
theorem not_mentionsMark_of_mem_toRecord (h : m.All Attribute.Unmarked) :
    (∀ column ∈ m.toRecord.columns, ∀ source ∈ column.sources, ¬ mentionsMark source) ∧
      ∀ table ∈ m.toRecord.inputs, ¬ mentionsMark table := by
  have hsources : ∀ column ∈ m.toColumns, ∀ source ∈ column.sources, ¬ mentionsMark source := by
    intro column hcolumn source hsource
    obtain ⟨entry, hentry, rfl⟩ := List.mem_map.1 hcolumn
    obtain ⟨a, ha, rfl⟩ := List.mem_map.1 (List.mem_eraseDups.1 hsource)
    exact (h entry hentry a ha).qualifiedName
  refine ⟨hsources, fun table htable hmark => ?_⟩
  obtain ⟨-, source, hsource, rfl⟩ := mem_tablesOf.1 htable
  obtain ⟨column, hcolumn, hsource⟩ := List.mem_flatMap.1 hsource
  exact hsources column hcolumn source hsource (mentionsMark_of_namespaceOf hmark)

/-- The column of an entry of a select list has the entry's sources for its dependencies. -/
theorem exists_entry_of_selectList {items : List SelectItem}
    (hlist : plan.selectList? = some (items, child)) (hnodup : plan.output.Nodup)
    {item : SelectItem} (hitem : item ∈ items)
    (hm : (plan.extract settings ∅).result = .ok m) :
    ∃ selected entry, (itemSources (extractWithin settings settings.maxPlanDepth) item).result =
        .ok entry ∧ entry ∈ selected.entries ∧ entry.1 = item.toAttribute ∧
      (extractWithin settings settings.maxPlanDepth child selected).result = .ok m := by
  rw [extract_eq, extractWithin, Plan.step_of_selectList hlist] at hm
  obtain ⟨selected, inner, hselected, hjoin, hm⟩ := step_project.1 hm
  rw [LineageMap.result_join_of_isEmpty rfl] at hjoin
  cases Except.ok.inj hjoin
  obtain ⟨pairs, hpairs, rfl⟩ := ofSelectList_eq_ok.1 hselected
  obtain ⟨entry, hentry, hok⟩ := exists_left_of_forall₂ hpairs.flip hitem
  rw [Plan.output_of_selectList hlist, ← map_fst_of_itemSources hpairs] at hnodup
  refine ⟨_, entry, hok, ?_, itemSources_fst hok, hm⟩
  rwa [OrderedMap.entries_ofList_of_nodup hnodup]

/-- An unmarked column is handed back without a mark. -/
theorem unmarked_of_handedBack?
    (hnames : ∀ below, plan.Reaches settings below → below.NamesUnmarked settings)
    (ha : a.Unmarked) (h : plan.handedBack? settings a = some b) : b.Unmarked := by
  refine Plan.of_handedBack? (P := Attribute.Unmarked) (unmarked_of_oneRow (Or.inl ha))
    (fun _ => ha) ?_ h
  intro below hreaches output qualifier htable e he
  exact unmarked_of_answer? ((hnames below hreaches).table _ _ htable).2 (Or.inl ha) he

/-- A column that is borrowed altogether has no marked sources if and only if the plan below takes
the mark off whatever is borrowed, the markers of rows apart. -/
theorem unmarked_borrowed_iff {items : List SelectItem} {f : Alias}
    (hnames : ∀ below, child.Reaches settings below → below.NamesUnmarked settings)
    (hlist : plan.selectList? = some (items, child)) (hquery : child.isQuery = true)
    (hnodup : plan.output.Nodup) (hf : .aliased f ∈ items)
    (hapart : f.BorrowsApart settings child)
    (hm : (plan.extract settings ∅).result = .ok m) :
    (∀ e ∈ (m.sourcesOf f.toAttribute).attrs, e.Unmarked) ↔
      ∀ a, (SelectItem.aliased f).Borrows (Plan.extract settings) a →
        a.isCountMarker = true ∨ child.takesMarksOff settings a.qualifier.isEmpty = true := by
  obtain ⟨selected, entry, hok, hentry, -, hm⟩ := exists_entry_of_selectList hlist hnodup hf hm
  obtain ⟨sources, hsources, hpair⟩ := result_bind_eq_ok.1 hok
  cases Except.ok.inj hpair
  obtain ⟨hmarked, honly⟩ := mem_sources_of_borrowsApart hapart (Nat.le_succ _) hsources
  have hunknown : child.KnowsNothingOf (f.toAttribute, sources) := by
    refine ⟨hapart.id_unknown, fun d hd => ?_⟩
    rcases honly d hd with ⟨b, hb, rfl⟩ | rfl
    · exact hapart.unknown b hb
    · exact hapart.id_unknown
  have hanswer : ∀ {e}, e ∈ (m.sourcesOf f.toAttribute).attrs ↔
      ∃ d ∈ sources.attrs, child.handedBack? settings d = some e :=
    mem_sourcesOf_unknown hquery hm hentry hunknown
  constructor
  · intro h a ha
    rw [← Plan.unmarked_of_handedBack?_iff (hapart.unmarked a ha) hquery]
    exact fun e he => h e (hanswer.2 ⟨_, hmarked a ha, he⟩)
  · intro h e he
    obtain ⟨d, hd, hback⟩ := hanswer.1 he
    rcases honly d hd with ⟨b, hb, rfl⟩ | rfl
    · exact (Plan.unmarked_of_handedBack?_iff (hapart.unmarked b hb) hquery).2 (h b hb) e hback
    · exact unmarked_of_handedBack? hnames (Attribute.unmarked_countMarker f.id) hback

/-- Where no name mentions the mark: if every select list stands over a plan that takes the marks
off whatever it borrows, neither the lineage nor the record has a mark. Of a column that is borrowed
altogether, the sources are unmarked if and only if the plan below it takes the mark off each. -/
theorem subqueries_unmarked_iff
    (hnames : ∀ below, plan.Reaches settings below → below.NamesUnmarked settings) :
    ((∀ below, plan.Reaches settings below → below.ReturnsUnmarked settings) →
      (∀ m, (plan.extract settings ∅).result = .ok m → m.All Attribute.Unmarked) ∧
        ∀ record, (plan.record settings).result = .ok record →
          (∀ column ∈ record.columns, ∀ source ∈ column.sources, ¬ mentionsMark source) ∧
            ∀ table ∈ record.inputs, ¬ mentionsMark table) ∧
    ∀ items child f m, plan.selectList? = some (items, child) → child.isQuery = true →
      plan.output.Nodup → .aliased f ∈ items → f.BorrowsApart settings child →
      (plan.extract settings ∅).result = .ok m →
      ((∀ e ∈ (m.sourcesOf f.toAttribute).attrs, e.Unmarked) ↔
        ∀ a, (SelectItem.aliased f).Borrows (Plan.extract settings) a →
          a.isCountMarker = true ∨ child.takesMarksOff settings a.qualifier.isEmpty = true) := by
  refine ⟨fun hreturns => ?_, fun items child f m hlist hquery hnodup hf hapart hm => ?_⟩
  · have hunmarked : ∀ m, (plan.extract settings ∅).result = .ok m → m.All Attribute.Unmarked :=
      fun m hm => unmarked_of_extract (fun below h => ⟨hnames below h, hreturns below h⟩) hm
    refine ⟨hunmarked, fun record hrecord => ?_⟩
    obtain ⟨m, hm, hrecord⟩ := result_bind_eq_ok.1 hrecord
    change m.record = .ok record at hrecord
    rw [LineageMap.record] at hrecord
    split at hrecord
    · rw [← Except.ok.inj hrecord]
      exact not_mentionsMark_of_mem_toRecord (hunmarked m hm)
    · cases hrecord
  · refine unmarked_borrowed_iff (fun below hbelow => hnames below ?_) hlist hquery hnodup hf
      hapart hm
    exact hbelow.of_mem (Plan.child_mem_tracedBelow hlist)

/-! ## A greatest value beside a table and beside a view -/

/-- The greatest `a` of the table `t`, as the column `m`. -/
def greatest : Plan :=
  .aggregate [] [.aliased (.mk (.call "max" [.column ⟨1, some "a", []⟩]) (some "m") 5)]
    (.relation [⟨1, some "a", []⟩] (some ⟨"t", none, none⟩))

/-- The greatest `a` of `t` beside the rows of another plan, as the column `s`. -/
def greatestBeside (source : Plan) : Plan :=
  .project [.aliased (.mk (.subquery greatest) (some "s") 6)] source

/-- What holds of the query, of all that is traced for the plan below, of the subquery and of its
table holds of all that is traced. -/
theorem forall_reached_of_greatestBeside {P : Plan → Prop} {source : Plan}
    (hself : P (greatestBeside source))
    (hsource : ∀ below, source.Reaches .standard below → P below) (hgreatest : P greatest)
    (htable : P (.relation [⟨1, some "a", []⟩] (some ⟨"t", none, none⟩))) :
    ∀ below, (greatestBeside source).Reaches .standard below → P below := by
  intro below h
  rcases Plan.reaches_iff.1 h with rfl | ⟨child, hchild, hreaches⟩
  · exact hself
  · rcases List.mem_cons.1 hchild with rfl | hquery
    · exact hsource below hreaches
    · cases List.mem_singleton.1 hquery
      rcases Plan.reaches_iff.1 hreaches with rfl | ⟨table, htraced, hreaches⟩
      · exact hgreatest
      · cases List.mem_singleton.1 htraced
        rcases Plan.reaches_iff.1 hreaches with rfl | ⟨none, hnone, -⟩
        · exact htable
        · cases hnone

/-- No name in the query mentions the mark, if none does below. -/
theorem namesUnmarked_greatestBeside {source : Plan}
    (hsource : ∀ below, source.Reaches .standard below → below.NamesUnmarked .standard) :
    ∀ below, (greatestBeside source).Reaches .standard below → below.NamesUnmarked .standard := by
  have hself : (greatestBeside source).NamesUnmarked .standard :=
    ⟨fun _ h => absurd h List.not_mem_nil, nofun⟩
  refine forall_reached_of_greatestBeside hself hsource ⟨by decide, nofun⟩ ⟨by decide, ?_⟩
  rintro _ _ ⟨⟩
  decide

/-- No name of the table mentions the mark. -/
theorem namesUnmarked_plainTable :
    ∀ below, plainTable.Reaches .standard below → below.NamesUnmarked .standard := by
  intro below h
  rcases Plan.reaches_iff.1 h with rfl | ⟨child, hchild, -⟩
  · refine ⟨by decide, ?_⟩
    rintro _ _ ⟨⟩
    decide
  · cases hchild

/-- No name of the view mentions the mark. -/
theorem namesUnmarked_viewOfTable :
    ∀ below, viewOfTable.Reaches .standard below → below.NamesUnmarked .standard := by
  intro below h
  rcases Plan.reaches_iff.1 h with rfl | ⟨child, hchild, hreaches⟩
  · exact ⟨by decide, nofun⟩
  · cases List.mem_singleton.1 hchild
    exact namesUnmarked_plainTable below hreaches

/-- Beside a table the greatest value is traced without a mark. -/
theorem unmarked_greatestBeside_plainTable :
    ∃ m, ((greatestBeside plainTable).extract .standard ∅).result = .ok m ∧
      m.All Attribute.Unmarked := by
  obtain ⟨hunmarked, -⟩ :=
    subqueries_unmarked_iff (namesUnmarked_greatestBeside namesUnmarked_plainTable)
  refine ⟨_, rfl, (hunmarked ?_).1 _ rfl⟩
  refine forall_reached_of_greatestBeside ?_ ?_ ?_ nofun
  · rintro _ _ ⟨⟩ _ _ _ _
    exact Or.inr rfl
  · intro below h
    rcases Plan.reaches_iff.1 h with rfl | ⟨child, hchild, -⟩
    · exact nofun
    · cases hchild
  · rintro _ _ ⟨⟩ _ _ _ _
    exact Or.inr rfl

/-- Beside a view it keeps the mark, and so does the table in the record. -/
theorem marked_greatestBeside_viewOfTable :
    (∀ below, (greatestBeside viewOfTable).Reaches .standard below →
      below.NamesUnmarked .standard) ∧
    ((greatestBeside viewOfTable).extract .standard ∅).result =
      .ok (.ofList [(⟨6, some "s", []⟩, .ofList [⟨1, some "a", ["t", subquerySegment]⟩])]) ∧
    ((greatestBeside viewOfTable).record .standard).result =
      .ok ⟨["t.__subquery__"], [], [⟨"s", ["t.__subquery__.a"]⟩]⟩ :=
  ⟨namesUnmarked_greatestBeside namesUnmarked_viewOfTable, by decide +kernel, by decide +kernel⟩

end Lineage

end ColumnTrace
