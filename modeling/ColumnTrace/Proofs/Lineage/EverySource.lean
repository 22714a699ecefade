import ColumnTrace.Proofs.Lineage.Operators

/-!
# What holds of every source of a map

`LineageMap.All P` says that `P` holds of every source of every column of a map. It is carried
through the operations that tracing is made of: a map built from a list, a merge, a request that is
resolved against an answer, a column that is renamed. Whatever is to be shown of all sources that a
plan is traced to is shown of its leaves and handed on by these lemmas.
-/

set_option autoImplicit false

namespace ColumnTrace

namespace AttributeSet

/-- A union makes up nothing. -/
theorem mem_or_mem_of_mem_union {s t : AttributeSet} {a : Attribute} (h : a ∈ (s ∪ t).attrs) :
    a ∈ s.attrs ∨ a ∈ t.attrs :=
  mem_of_mem_insertAll h

/-- Adding a column makes up nothing else. -/
theorem mem_or_eq_of_mem_insert {s : AttributeSet} {a b : Attribute}
    (h : a ∈ (s.insert b).attrs) : a ∈ s.attrs ∨ a = b :=
  mem_of_mem_joinAttribute h

end AttributeSet

namespace LineageMap

variable {P Q : Attribute → Prop} {m parent child : LineageMap}

/-- The predicate holds of every source in the map. -/
def All (P : Attribute → Prop) (m : LineageMap) : Prop :=
  ∀ entry ∈ m.entries, ∀ a ∈ entry.2.attrs, P a

theorem all_empty : All P ∅ := fun _ h => absurd h List.not_mem_nil

/-- What holds of every source may be weakened. -/
theorem All.mono (h : m.All P) (hPQ : ∀ a, P a → Q a) : m.All Q :=
  fun entry hentry a ha => hPQ a (h entry hentry a ha)

/-- What holds of all that a list has holds of every source of its map. -/
theorem all_ofList {pairs : List (Attribute × AttributeSet)}
    (h : ∀ pair ∈ pairs, ∀ a ∈ pair.2.attrs, P a) : All P (.ofList pairs) :=
  fun entry hentry => h entry (OrderedMap.mem_of_mem_ofList hentry)

/-- What holds of every new source holds after the sources are changed. -/
theorem all_mapValues {f : Attribute → AttributeSet → AttributeSet}
    (h : ∀ entry ∈ m.entries, ∀ a ∈ (f entry.1 entry.2).attrs, P a) : All P (m.mapValues f) := by
  intro entry hentry
  rw [OrderedMap.entries_mapValues, List.mem_map] at hentry
  obtain ⟨old, hold, rfl⟩ := hentry
  exact h old hold

/-- It holds of what is found under a column. -/
theorem All.sourcesOf (h : m.All P) {key a : Attribute} (ha : a ∈ (m.sourcesOf key).attrs) :
    P a :=
  h _ (mem_entries_of_mem_sourcesOf ha) a ha

/-- It holds of what is found under an identity. -/
theorem All.byId? (h : m.All P) {id : Int} {sources : AttributeSet}
    (hfound : m.byId? id = some sources) {a : Attribute} (ha : a ∈ sources.attrs) : P a := by
  obtain ⟨key, hkey, -⟩ := exists_entry_of_byId? hfound
  exact h _ hkey a ha

/-- It holds of the sources of every column. -/
theorem All.values (h : m.All P) {sources : AttributeSet} (hsources : sources ∈ m.values)
    {a : Attribute} (ha : a ∈ sources.attrs) : P a := by
  obtain ⟨entry, hentry, rfl⟩ := List.mem_map.1 hsources
  exact h entry hentry a ha

/-- Columns that are given the values of a map have sources of the map. -/
theorem All.zip (h : m.All P) (columns : List Attribute) :
    All P (.ofList (columns.zip m.values)) :=
  all_ofList fun _ hpair _ ha => h.values (List.of_mem_zip hpair).2 ha

/-- New names leave the sources alone. -/
theorem All.rename (h : m.All P) (name : Attribute → Label) : (m.rename name).All P := by
  refine all_ofList fun pair hpair a ha => ?_
  obtain ⟨entry, hentry, rfl⟩ := List.mem_map.1 hpair
  exact h entry hentry a ha

/-- What holds of every source of two maps holds of those of both together. -/
theorem All.merge {left right : LineageMap} (hleft : left.All P) (hright : right.All P) :
    (left.merge right).All P := by
  rw [merge_eq_insertAll]
  intro entry hentry a ha
  rcases OrderedMap.mem_of_mem_insertAll hentry with hold | hnew
  · exact hleft entry hold a ha
  · obtain ⟨old, hold, rfl⟩ := List.mem_map.1 hnew
    rcases AttributeSet.mem_or_mem_of_mem_union ha with hr | hl
    · exact hright old hold a hr
    · exact hleft.sourcesOf hl

/-- What holds of every source of several maps holds of those of all together. -/
theorem all_mergeAll {maps : List LineageMap} (h : ∀ m ∈ maps, m.All P) :
    (mergeAll maps).All P := by
  have step : ∀ (maps : List LineageMap) (start : LineageMap), start.All P →
      (∀ m ∈ maps, m.All P) → (maps.foldl LineageMap.merge start).All P := by
    intro maps
    induction maps with
    | nil => exact fun _ hstart _ => hstart
    | cons m rest ih =>
      intro start hstart hmaps
      exact ih _ (hstart.merge (hmaps m List.mem_cons_self))
        fun n hn => hmaps n (List.mem_cons_of_mem m hn)
  exact step maps ∅ all_empty h

/-- The sources of columns that stand for themselves are these columns. -/
theorem all_identity {columns : List Attribute} (h : ∀ a ∈ columns, P a) :
    All P (identity columns) := by
  refine all_ofList fun pair hpair a ha => ?_
  obtain ⟨column, hcolumn, rfl⟩ := List.mem_map.1 hpair
  rw [List.mem_singleton.1 ha]
  exact h column hcolumn

/-- A dependency turns into sources of the answer or stays as it is, and no marker of rows stays. -/
theorem mem_resolve {a b : Attribute} (h : b ∈ child.resolve a) :
    (∃ sources, child.byId? a.id = some sources ∧ b ∈ sources.attrs) ∨
      (b = a ∧ a.isCountMarker = false) := by
  cases hfound : child.byId? a.id with
  | some sources =>
    rw [resolve_of_byId? hfound] at h
    exact Or.inl ⟨sources, rfl, h⟩
  | none =>
    rw [resolve_of_unknown hfound] at h
    split at h
    · cases h
    · next hcount => exact Or.inr ⟨List.mem_singleton.1 h, Bool.eq_false_iff.2 hcount⟩

/-- A request that is resolved depends on sources of the answer, and on what it depended on before,
the markers of rows apart. -/
theorem All.resolveAll (hparent : parent.All P) (hchild : child.All Q)
    (hPQ : ∀ a, P a → a.isCountMarker = false → Q a) : (parent.resolveAll child).All Q := by
  cases hempty : parent.isEmpty with
  | true =>
    rw [resolveAll_of_isEmpty hempty]
    exact hchild
  | false =>
    rw [resolveAll_of_not_isEmpty hempty]
    refine all_mapValues fun entry hentry a ha => ?_
    obtain ⟨d, hd, ha⟩ := List.mem_flatMap.1 (AttributeSet.mem_of_mem_ofList ha)
    rcases mem_resolve ha with ⟨sources, hfound, hmem⟩ | ⟨rfl, hcount⟩
    · exact hchild.byId? hfound hmem
    · exact hPQ a (hparent entry hentry a hd) hcount

/-- What holds of every source below holds after a join, if it holds of what the request leaves
over. -/
theorem All.join (hparent : parent.All P) (hchild : child.All Q)
    (hPQ : ∀ a, P a → a.isCountMarker = false → Q a)
    (hm : (parent.join child).result = .ok m) : m.All Q := by
  rw [eq_resolveAll_of_join hm]
  exact hparent.resolveAll hchild hPQ

/-- A table answers with its own columns, and with what it can tell of the dependencies. -/
theorem All.answerOf {output : List Attribute} {qualifier : List String} (hparent : parent.All P)
    (hown : ∀ a ∈ output, Q (a.withQualifier qualifier))
    (hanswer : ∀ a b, P a → answer? output qualifier a = some b → Q b) :
    (parent.answerOf output qualifier).All Q := by
  rw [LineageMap.answerOf]
  split
  · refine all_ofList fun pair hpair a ha => ?_
    obtain ⟨column, hcolumn, rfl⟩ := List.mem_map.1 hpair
    rw [List.mem_singleton.1 ha]
    exact hown column hcolumn
  · refine all_mapValues fun entry hentry b hb => ?_
    obtain ⟨a, ha, hab⟩ := List.mem_filterMap.1 (AttributeSet.mem_of_mem_ofList hb)
    exact hanswer a b (hparent entry hentry a ha) hab

end LineageMap

namespace Lineage

variable {P Q : Attribute → Prop} {m parent : LineageMap}

/-- What holds of every child's answer holds of all together. -/
theorem all_ofChildren {below : Below} {children : List Plan} {request : LineageMap}
    (h : ∀ child ∈ children, ∀ answer, (below child request).result = .ok answer → answer.All P)
    (hm : (ofChildren below children request).result = .ok m) : m.All P := by
  obtain ⟨answers, hanswers, hmerge⟩ := Traced.result_bind_eq_ok.1 hm
  rw [← Except.ok.inj hmerge]
  refine LineageMap.all_mergeAll fun answer hanswer => ?_
  obtain ⟨child, hchild, hok⟩ :=
    exists_left_of_forall₂ (Traced.result_mapM_eq_ok.1 hanswers) hanswer
  exact h child hchild answer hok

/-- What holds of every branch's answer holds of them side by side. -/
theorem all_ofBranches {branches : List LineageMap} (h : ∀ branch ∈ branches, branch.All P)
    (output : List Attribute) : (ofBranches output branches).All P := by
  match output, branches with
  | [], branches => exact LineageMap.all_mergeAll h
  | _ :: _, [] => exact LineageMap.all_empty
  | a :: output, first :: rest =>
    have hcolumns : ∀ (rest : List LineageMap) (start : List AttributeSet),
        (∀ s ∈ start, ∀ x ∈ s.attrs, P x) → (∀ branch ∈ rest, branch.All P) →
        ∀ s ∈ rest.foldl (fun columns branch =>
          List.zipWith (fun s t => s ∪ t) columns branch.values) start, ∀ x ∈ s.attrs, P x := by
      intro rest
      induction rest with
      | nil => exact fun _ hstart _ => hstart
      | cons branch rest ih =>
        intro start hstart hbranches
        refine ih _ ?_ fun b hb => hbranches b (List.mem_cons_of_mem branch hb)
        intro s hs x hx
        change s ∈ List.zipWith (fun s t => s ∪ t) start branch.values at hs
        rw [← List.map_uncurry_zip_eq_zipWith] at hs
        obtain ⟨pair, hpair, rfl⟩ := List.mem_map.1 hs
        rcases AttributeSet.mem_or_mem_of_mem_union hx with hleft | hright
        · exact hstart _ (List.of_mem_zip hpair).1 x hleft
        · exact (hbranches branch List.mem_cons_self).values (List.of_mem_zip hpair).2 hright
    refine LineageMap.all_ofList fun pair hpair x hx => ?_
    exact hcolumns rest first.values
      (fun s hs x hx => (h first List.mem_cons_self).values hs hx)
      (fun branch hbranch => h branch (List.mem_cons_of_mem first hbranch))
      _ (List.of_mem_zip hpair).2 x hx

/-- A row hands back what it is asked for, without a subquery's segment. -/
theorem all_ofOneRow (hparent : parent.All P)
    (h : ∀ a, P a → Q (if a.isSubqueryMarked then a.dropLastSegment else a)) :
    (ofOneRow parent).All Q := by
  refine LineageMap.all_mapValues fun entry hentry b hb => ?_
  obtain ⟨a, ha, rfl⟩ := List.mem_map.1 (AttributeSet.mem_of_mem_ofList hb)
  exact h a (hparent entry hentry a ha)

/-- Columns of window functions give way to what they refer to, others stay. -/
theorem all_windowRequest {functions : List Alias} {input : List Attribute}
    (hparent : parent.All P) (hinput : ∀ a ∈ input, P a)
    (hfunctions : ∀ f ∈ functions, ∀ a ∈ f.child.attributes, P a) :
    (windowRequest functions input parent).All P := by
  have hcomputed : (ofWindowFunctions functions).All P := by
    refine LineageMap.all_ofList fun pair hpair a ha => ?_
    obtain ⟨f, hf, rfl⟩ := List.mem_map.1 hpair
    exact hfunctions f hf a (AttributeSet.mem_of_mem_ofList ha)
  rw [windowRequest]
  split
  · intro entry hentry a ha
    rcases OrderedMap.mem_of_mem_insertAll hentry with hown | hnew
    · exact LineageMap.all_identity hinput entry hown a ha
    · exact hcomputed entry hnew a ha
  · refine LineageMap.all_mapValues fun entry hentry a ha => ?_
    split at ha
    · next found hfound => exact hcomputed.byId? hfound ha
    · obtain ⟨d, hd, ha⟩ := List.mem_flatMap.1 (AttributeSet.mem_of_mem_ofList ha)
      split at ha
      · next found hfound => exact hcomputed.byId? hfound ha
      · exact List.mem_singleton.1 ha ▸ hparent entry hentry d hd

/-- What stands in a column stands in one of the rows. -/
theorem mem_of_mem_columnsOf {α : Type} {rows : List (List α)} {column : List α} {x : α}
    (hcolumn : column ∈ columnsOf rows) (hx : x ∈ column) : ∃ row ∈ rows, x ∈ row := by
  cases rows with
  | nil => cases hcolumn
  | cons row rest =>
    obtain ⟨i, -, rfl⟩ := List.mem_map.1 hcolumn
    obtain ⟨found, hfound, hget⟩ := List.mem_filterMap.1 hx
    exact ⟨found, hfound, List.mem_of_getElem? hget⟩

/-- The sources of an expansion are columns of its rows. -/
theorem all_ofProjections {projections : List (List Expr)}
    (h : ∀ row ∈ projections, ∀ e ∈ row, ∀ a ∈ e.attributes, P a) (output : List Attribute) :
    (ofProjections projections output).All P := by
  refine LineageMap.all_ofList fun pair hpair a ha => ?_
  obtain ⟨place, hplace, rfl⟩ := List.mem_map.1 hpair
  obtain ⟨e, he, ha⟩ := List.mem_flatMap.1 (AttributeSet.mem_of_mem_ofList ha)
  obtain ⟨row, hrow, hmem⟩ := mem_of_mem_columnsOf (List.of_mem_zip hplace).2 he
  exact h row hrow e hmem a (AttributeSet.mem_of_mem_ofList ha)

/-- A new view has the sources of its query. -/
theorem all_ofNewView {view : String} {columns : List Label} {lineage : LineageMap}
    (h : lineage.All P) (hm : (ofNewView view columns lineage).result = .ok m) : m.All P := by
  rw [ofNewView] at hm
  split at hm
  · exact Except.ok.inj hm ▸ h.rename _
  · split at hm
    · cases hm
    · rw [← Except.ok.inj hm]
      refine LineageMap.all_ofList fun pair hpair a ha => ?_
      obtain ⟨found, hfound, rfl⟩ := List.mem_map.1 hpair
      exact h _ (List.of_mem_zip hfound).1 a ha

/-- A merge asks for what the assigned values refer to. -/
theorem all_ofAssignments {assignments : List Assignment}
    (h : ∀ a ∈ assignments, ∀ r ∈ a.value.attributes, P r) :
    (ofAssignments assignments).All P := by
  have step : ∀ (assignments : List Assignment) (start : LineageMap), start.All P →
      (∀ a ∈ assignments, ∀ r ∈ a.value.attributes, P r) →
      (assignments.foldl (fun request a =>
        request.insert a.key (request.sourcesOf a.key ∪ a.value.references)) start).All P := by
    intro assignments
    induction assignments with
    | nil => exact fun _ hstart _ => hstart
    | cons a rest ih =>
      intro start hstart hvalues
      refine ih _ ?_ fun b hb => hvalues b (List.mem_cons_of_mem a hb)
      intro entry hentry r hr
      have hinsert : entry ∈ (start.insertAll
          [(a.key, start.sourcesOf a.key ∪ a.value.references)]).entries := hentry
      rcases OrderedMap.mem_of_mem_insertAll hinsert with hold | hnew
      · exact hstart entry hold r hr
      · cases List.mem_singleton.1 hnew
        rcases AttributeSet.mem_or_mem_of_mem_union hr with hr | hr
        · exact hstart.sourcesOf hr
        · exact hvalues a List.mem_cons_self r (AttributeSet.mem_of_mem_ofList hr)
  exact step assignments ∅ LineageMap.all_empty h

/-- The sources of a merge are those of its source side. -/
theorem all_ofMerge {target source : LineageMap} (h : source.All P)
    (hm : (ofMerge target source).result = .ok m) : m.All P := by
  rw [ofMerge] at hm
  split at hm
  · exact Except.ok.inj hm ▸ h.zip _
  · cases hm

end Lineage

end ColumnTrace
