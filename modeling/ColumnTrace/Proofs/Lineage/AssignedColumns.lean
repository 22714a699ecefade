import ColumnTrace.Proofs.Lineage.EverySource
import ColumnTrace.Proofs.Lineage.KeyedAnswers
import ColumnTrace.Proofs.Lineage.PlainColumns
import ColumnTrace.Proofs.Lineage.SelectedSources

/-!
# What a merge of two tables reports

A merge asks its target for the columns that its actions assign and its source for what the assigned
values refer to, and pairs the two answers by position. Where something is assigned, both answers
have one entry for each assigned column, in the order in which the columns are first assigned
(`entries_extract_merge`), and the lineage is that of the assigned columns. Where nothing is, both
requests are empty and ask for everything, so the columns of the tables are paired as they stand:
`extract_merge_reportsAssigned_iff` says that this is the only way to go wrong.
-/

set_option autoImplicit false

namespace ColumnTrace

open Traced

/-! ## Ordinary columns -/

namespace Attribute

/-- The column is not asked of a subquery, and its name is neither dotted nor reserved. -/
def isOrdinary (a : Attribute) : Bool := !a.isSubqueryMarked && (a.withQualifier []).isPlain

/-- An ordinary column has a name. -/
theorem isNamed_of_isOrdinary {a : Attribute} (h : a.isOrdinary = true) : a.isNamed = true := by
  have hplain := (Bool.and_eq_true _ _ ▸ h : _ ∧ _).2
  exact isNamed_of_isPlain (a := a.withQualifier []) hplain

/-- The column as a merge shows it that writes to a table: under its qualified name. -/
def writtenTo (table : Option TableName) (a : Attribute) : Attribute :=
  let written := a.withQualifier (Lineage.relationQualifier table)
  written.withName written.qualifiedName

@[simp]
theorem id_writtenTo (table : Option TableName) (a : Attribute) : (a.writtenTo table).id = a.id :=
  rfl

end Attribute

namespace LineageMap

variable {output : List Attribute} {qualifier : List String}

/-- A table answers for its own columns, and for no ordinary column besides. -/
theorem answer?_eq_some_iff {a e : Attribute}
    (h : a.id ∈ output.map Attribute.id ∨ a.isOrdinary = true) :
    answer? output qualifier a = some e ↔
      a.id ∈ output.map Attribute.id ∧ e = a.withQualifier qualifier := by
  by_cases hown : a.id ∈ output.map Attribute.id
  · have hany : output.any (·.id == a.id) = true := by
      obtain ⟨c, hc, hid⟩ := List.mem_map.1 hown
      exact List.any_eq_true.2 ⟨c, hc, beq_iff_eq.2 hid⟩
    rw [answer?, if_pos hany, Option.some.injEq]
    exact ⟨fun heq => ⟨hown, heq.symm⟩, fun heq => heq.2.symm⟩
  · obtain ⟨hmarked, hplain⟩ : a.isSubqueryMarked = false ∧
        (a.withQualifier []).isPlain = true := by
      simpa [Attribute.isOrdinary] using h.resolve_left hown
    have hnone : answer? output qualifier a = none := by
      -- only a mark is read off the qualifier, everything else off the name
      have hcount : a.isCountMarker = false :=
        Attribute.isCountMarker_of_isPlain (a := a.withQualifier []) hplain
      have hnamed : isNamedUnder qualifier a = false :=
        isNamedUnder_of_isPlain (a := a.withQualifier []) hplain qualifier
      rw [answer?_of_unknown fun c hc hid => hown (List.mem_map.2 ⟨c, hc, hid⟩)]
      simp [answer?, hmarked, hcount, hnamed]
    rw [hnone]
    exact ⟨fun heq => absurd heq.symm (Option.some_ne_none e), fun heq => absurd heq.1 hown⟩

end LineageMap

namespace Lineage

/-! ## What a merge asks for -/

/-- One more assignment adds what its value refers to. -/
theorem ofAssignments_append_singleton (assignments : List Assignment) (a : Assignment) :
    ofAssignments (assignments ++ [a]) =
      (ofAssignments assignments).insert a.key
        ((ofAssignments assignments).sourcesOf a.key ∪ a.value.references) := by
  rw [ofAssignments, List.foldl_append]
  rfl

/-- The columns that are assigned, in the order in which they are first assigned. -/
theorem keys_ofAssignments (assignments : List Assignment) :
    (ofAssignments assignments).keys = (assignments.map Assignment.key).eraseDups := by
  -- from the end, as each assignment finds the request of those before it
  induction assignments using List.reverseRecOn with
  | nil => rfl
  | append_singleton earlier a ih =>
    rw [ofAssignments_append_singleton, OrderedMap.keys_insert_of_eraseDups ih, List.map_append,
      List.map_singleton]

/-- A column asks for what the values assigned to it refer to, from the first assignment on. -/
theorem sourcesOf_ofAssignments (assignments : List Assignment) (column : Attribute) :
    (ofAssignments assignments).sourcesOf column =
      .ofList
        ((assignments.filter (·.key = column)).flatMap fun a => a.value.references.attrs) := by
  induction assignments using List.reverseRecOn with
  | nil => rfl
  | append_singleton earlier a ih =>
    have hinsert : (ofAssignments (earlier ++ [a])).sourcesOf column =
        if column = a.key then (ofAssignments earlier).sourcesOf a.key ∪ a.value.references
        else (ofAssignments earlier).sourcesOf column := by
      rw [ofAssignments_append_singleton, LineageMap.sourcesOf, OrderedMap.get?_insert]
      split <;> rfl
    rw [hinsert, List.filter_append, List.flatMap_append, AttributeSet.ofList_append]
    by_cases hcolumn : column = a.key
    · subst hcolumn
      rw [if_pos rfl, ih]
      simp [AttributeSet.union, Union.union]
    · rw [if_neg hcolumn, ih]
      simp [Ne.symm hcolumn, AttributeSet.insertAll]

end Lineage

/-- A value assigned to the column refers to the attribute. -/
def Assignment.RefersTo (assignments : List Assignment) (column x : Attribute) : Prop :=
  ∃ a ∈ assignments, a.key = column ∧ x ∈ a.value.attributes

/-- The lineage is that of the assigned columns: one entry for each, in the order in which they are
first assigned, and its sources are the columns of the source table that a value assigned to it
refers to. -/
structure LineageMap.ReportsAssigned (into readFrom : Option TableName) (sources : List Attribute)
    (assignments : List Assignment) (m : LineageMap) : Prop where
  keys : m.keys = (assignments.map Assignment.key).eraseDups.map (Attribute.writtenTo into)
  sound : ∀ column ∈ assignments.map Assignment.key,
    ∀ r ∈ (m.sourcesOf (column.writtenTo into)).attrs, ∃ x,
      Assignment.RefersTo assignments column x ∧ x.id ∈ sources.map Attribute.id ∧
        r = x.withQualifier (Lineage.relationQualifier readFrom)
  complete : ∀ column x, Assignment.RefersTo assignments column x →
    x.id ∈ sources.map Attribute.id →
      ∃ r ∈ (m.sourcesOf (column.writtenTo into)).attrs, r.id = x.id

/-- A merge of two tables. The columns of each table have identities of their own, those of the
target have names, and only these are assigned; what the values refer to is a column of the source
or an ordinary column. -/
structure MergesTables (targets sources : List Attribute) (assignments : List Assignment) :
    Prop where
  targetIds : (targets.map Attribute.id).Nodup
  sourceIds : (sources.map Attribute.id).Nodup
  named : ∀ a ∈ targets, a.isNamed = true
  keys : ∀ a ∈ assignments, a.key ∈ targets
  values : ∀ a ∈ assignments, ∀ r ∈ a.value.attributes,
    r.id ∈ sources.map Attribute.id ∨ r.isOrdinary = true

namespace Lineage

variable {targets sources : List Attribute} {assignments : List Assignment}
variable {into readFrom : Option TableName}

/-- The target answers for each of its columns with the column itself. -/
theorem entries_answerOf_identity {columns : List Attribute} (hne : columns ≠ [])
    (hnodup : columns.Nodup) (hcolumns : ∀ a ∈ columns, a ∈ targets) (qualifier : List String) :
    ((LineageMap.identity columns).answerOf targets qualifier).entries =
      columns.map fun a => (a, .singleton (a.withQualifier qualifier)) := by
  have hentries := LineageMap.entries_identity hnodup
  have hasked : (LineageMap.identity columns).isEmpty = false := by
    rw [OrderedMap.isEmpty, hentries]
    simpa using hne
  rw [LineageMap.answerOf, hasked, if_neg Bool.false_ne_true, OrderedMap.entries_mapValues,
    hentries, List.map_map]
  refine List.map_congr_left fun a ha => ?_
  have hanswer : LineageMap.answer? targets qualifier a = some (a.withQualifier qualifier) :=
    (LineageMap.answer?_eq_some_iff (Or.inl (List.mem_map_of_mem (hcolumns a ha)))).2
      ⟨List.mem_map_of_mem (hcolumns a ha), rfl⟩
  show (a, AttributeSet.ofList ([a].filterMap _)) = _
  rw [List.filterMap_cons_some hanswer]
  rfl

/-- The columns that a merge writes are shown under their qualified names, each with the sources at
its place. -/
theorem result_ofMerge {target : LineageMap} {columns : List Attribute} (source : LineageMap)
    (htarget : target.values = columns.map fun a =>
      AttributeSet.singleton (a.withQualifier (relationQualifier into)))
    (hnamed : ∀ a ∈ columns, a.isNamed = true) :
    (ofMerge target source).result =
      .ok (.ofList ((columns.map (Attribute.writtenTo into)).zip source.values)) := by
  have hwritten : target.values.flatMap AttributeSet.attrs =
      columns.map (·.withQualifier (relationQualifier into)) := by
    rw [htarget, List.flatMap_map]
    exact List.map_eq_flatMap.symm
  have hall : (columns.map (·.withQualifier (relationQualifier into))).all Attribute.isNamed =
      true := by
    rw [List.all_map, List.all_eq_true]
    exact hnamed
  rw [ofMerge, hwritten, if_pos hall, List.map_map]
  rfl

/-- Columns with distinct identities stay distinct under the name of a table. -/
theorem nodup_map_writtenTo {columns : List Attribute} (h : (columns.map Attribute.id).Nodup) :
    (columns.map (Attribute.writtenTo into)).Nodup := by
  have hids : (columns.map (Attribute.writtenTo into)).map Attribute.id =
      columns.map Attribute.id := by
    rw [List.map_map]
    rfl
  exact LineageMap.nodup_of_nodup_ids (hids.symm ▸ h)

end Lineage

namespace MergesTables

open Lineage

variable {targets sources : List Attribute} {assignments : List Assignment}
variable {into readFrom : Option TableName} {matched notMatched : List MergeAction}

theorem nodup_targets (h : MergesTables targets sources assignments) : targets.Nodup :=
  LineageMap.nodup_of_nodup_ids h.targetIds

theorem nodup_sources (h : MergesTables targets sources assignments) : sources.Nodup :=
  LineageMap.nodup_of_nodup_ids h.sourceIds

/-- The columns that are assigned are columns of the target. -/
theorem mem_targets (h : MergesTables targets sources assignments) {column : Attribute}
    (hcolumn : column ∈ (assignments.map Assignment.key).eraseDups) : column ∈ targets := by
  obtain ⟨a, ha, rfl⟩ := List.mem_map.1 (List.mem_eraseDups.1 hcolumn)
  exact h.keys a ha

/-- The columns that are assigned have identities of their own. -/
theorem nodup_assigned (h : MergesTables targets sources assignments) :
    ((assignments.map Assignment.key).eraseDups.map Attribute.id).Nodup := by
  refine List.Nodup.map_on ?_ ?_
  · intro a ha b hb hid
    exact List.inj_on_of_nodup_map h.targetIds (h.mem_targets ha) (h.mem_targets hb) hid
  · exact keys_ofAssignments assignments ▸ (ofAssignments assignments).nodup_keys

/-- The target answers for the columns that are assigned. -/
theorem result_ofRelation_targets (h : MergesTables targets sources assignments) :
    ((LineageMap.identity (ofAssignments assignments).keys).ofRelation targets
      (relationQualifier into)).result = .ok ((LineageMap.identity
        (ofAssignments assignments).keys).answerOf targets (relationQualifier into)) := by
  apply result_ofRelation_of_compared
  apply LineageMap.all_identity
  intro a ha
  rw [keys_ofAssignments] at ha
  exact Or.inl (comparesName_of_mem (h.mem_targets ha))

/-- The source table answers for what is assigned. -/
theorem result_ofRelation_sources (h : MergesTables targets sources assignments) :
    ((ofAssignments assignments).ofRelation sources (relationQualifier readFrom)).result =
      .ok ((ofAssignments assignments).answerOf sources (relationQualifier readFrom)) := by
  apply result_ofRelation_of_compared
  apply all_ofAssignments
  intro a ha r hr
  rcases h.values a ha r hr with hown | hordinary
  · left
    obtain ⟨c, hc, hid⟩ := List.mem_map.1 hown
    have hany : sources.any (·.id == r.id) = true := List.any_eq_true.2 ⟨c, hc, beq_iff_eq.2 hid⟩
    simp [LineageMap.comparesName, hany]
  · exact Or.inr (Attribute.isNamed_of_isOrdinary hordinary)

/-- What the target answers with: the assigned columns, and all its columns where none is. -/
def answeredColumns (targets : List Attribute) (assignments : List Assignment) : List Attribute :=
  if assignments = [] then targets else (assignments.map Assignment.key).eraseDups

/-- The target gives for each column that it answers for the column under its name. -/
theorem values_answerOf_targets (h : MergesTables targets sources assignments)
    (qualifier : List String) :
    ((LineageMap.identity (ofAssignments assignments).keys).answerOf targets qualifier).values =
      (answeredColumns targets assignments).map
        fun a => .singleton (a.withQualifier qualifier) := by
  unfold answeredColumns
  by_cases hne : assignments = []
  · subst hne
    have hentries : ((LineageMap.identity (ofAssignments []).keys).answerOf targets
        qualifier).entries = targets.map fun a => (a, .singleton (a.withQualifier qualifier)) :=
      entries_answerOf_of_isEmpty h.nodup_targets qualifier
    rw [if_pos rfl, OrderedMap.values, hentries, List.map_map]
    rfl
  · have hcolumns : (assignments.map Assignment.key).eraseDups ≠ [] :=
      eraseDups_ne_nil fun hnil => hne (List.map_eq_nil_iff.1 hnil)
    have hentries := entries_answerOf_identity hcolumns
      (LineageMap.nodup_of_nodup_ids h.nodup_assigned) (fun a ha => h.mem_targets ha) qualifier
    rw [if_neg hne, keys_ofAssignments, OrderedMap.values, hentries, List.map_map]
    rfl

/-- What the target answers for are its columns. -/
theorem mem_targets_of_answered (h : MergesTables targets sources assignments) {a : Attribute}
    (ha : a ∈ answeredColumns targets assignments) : a ∈ targets := by
  unfold answeredColumns at ha
  split at ha
  · exact ha
  · exact h.mem_targets ha

/-- The columns that the target answers for have identities of their own. -/
theorem nodup_answered (h : MergesTables targets sources assignments) :
    ((answeredColumns targets assignments).map Attribute.id).Nodup := by
  unfold answeredColumns
  split
  · exact h.targetIds
  · exact h.nodup_assigned

/-- The entries of a merge of two tables: what the target answers with, each column with what the
source answers at its place. -/
theorem exists_extract (settings : Settings) (into readFrom : Option TableName)
    (h : MergesTables targets sources assignments)
    (hassignments : (matched ++ notMatched).flatMap MergeAction.assignments = assignments) :
    ∃ m, ((Plan.merge (.relation targets into) (.relation sources readFrom) matched
        notMatched).extract settings ∅).result = .ok m ∧
      m.entries = ((answeredColumns targets assignments).map (Attribute.writtenTo into)).zip
        ((ofAssignments assignments).answerOf sources (relationQualifier readFrom)).values := by
  subst hassignments
  obtain ⟨depth, hdepth⟩ : ∃ depth, settings.maxPlanDepth = depth + 1 := by
    have hpos := settings.maxPlanDepth_pos
    exact ⟨settings.maxPlanDepth - 1, by omega⟩
  have hmerged := result_ofMerge
    ((ofAssignments ((matched ++ notMatched).flatMap MergeAction.assignments)).answerOf sources
      (relationQualifier readFrom))
    (h.values_answerOf_targets (relationQualifier into))
    (fun a ha => h.named a (h.mem_targets_of_answered ha))
  refine ⟨_, ?_, OrderedMap.entries_ofList_zip (nodup_map_writtenTo h.nodup_answered) _⟩
  rw [extract_eq, hdepth, extractWithin, step, stepAt, result_bind_eq_ok]
  refine ⟨_, ?_, result_bind_eq_ok.2 ⟨_, ?_, hmerged⟩⟩
  · rw [extractWithin, step_relation]
    exact h.result_ofRelation_targets
  · rw [extractWithin, step_relation]
    exact h.result_ofRelation_sources

/-- What the source answers for an assigned column: the columns of its own that the values refer to,
under its qualifier. -/
theorem mem_sourcesOf_answerOf_iff (h : MergesTables targets sources assignments)
    {column r : Attribute} (hcolumn : column ∈ assignments.map Assignment.key) :
    r ∈ (((ofAssignments assignments).answerOf sources
        (relationQualifier readFrom)).sourcesOf column).attrs ↔
      ∃ x ∈ ((ofAssignments assignments).sourcesOf column).attrs,
        x.id ∈ sources.map Attribute.id ∧ r = x.withQualifier (relationQualifier readFrom) := by
  have hkey : column ∈ (ofAssignments assignments).keys := by
    rw [keys_ofAssignments]
    exact List.mem_eraseDups.2 hcolumn
  obtain ⟨entry, hentry, rfl⟩ := List.mem_map.1 hkey
  rw [mem_sourcesOf_answerOf hentry, LineageMap.sourcesOf_of_mem hentry]
  refine exists_congr fun x => and_congr_right fun hx => ?_
  apply LineageMap.answer?_eq_some_iff
  have hall := all_ofAssignments (P := fun x => x.id ∈ sources.map Attribute.id ∨
    x.isOrdinary = true) h.values
  exact hall entry hentry x hx

/-- What is collected for a column is referred to by a value that is assigned to it. -/
theorem refersTo_of_mem {column x : Attribute}
    (hx : x ∈ ((ofAssignments assignments).sourcesOf column).attrs) :
    Assignment.RefersTo assignments column x := by
  rw [sourcesOf_ofAssignments] at hx
  obtain ⟨a, ha, hx⟩ := List.mem_flatMap.1 (AttributeSet.mem_of_mem_ofList hx)
  obtain ⟨hmem, hkey⟩ := List.mem_filter.1 ha
  exact ⟨a, hmem, of_decide_eq_true hkey, AttributeSet.mem_of_mem_ofList hx⟩

/-- What a value that is assigned to a column refers to is collected for it. -/
theorem exists_mem_of_refersTo {column x : Attribute}
    (hx : Assignment.RefersTo assignments column x) :
    ∃ y ∈ ((ofAssignments assignments).sourcesOf column).attrs, y.id = x.id := by
  obtain ⟨a, ha, rfl, hx⟩ := hx
  rw [sourcesOf_ofAssignments]
  obtain ⟨y, hy, hid⟩ := AttributeSet.exists_mem_ofList hx
  have hmem : y ∈ (assignments.filter (·.key = a.key)).flatMap fun a => a.value.references.attrs :=
    List.mem_flatMap.2 ⟨a, List.mem_filter.2 ⟨ha, decide_eq_true rfl⟩, hy⟩
  obtain ⟨z, hz, hzid⟩ := AttributeSet.exists_mem_ofList hmem
  exact ⟨z, hz, hzid.trans hid⟩

/-- Where something is assigned, the entries are those of the source's answer, each under the
qualified name of its column. -/
theorem reportsAssigned_of_assigned (h : MergesTables targets sources assignments)
    (hne : assignments ≠ []) {m : LineageMap}
    (hm : m.entries = ((answeredColumns targets assignments).map (Attribute.writtenTo into)).zip
      ((ofAssignments assignments).answerOf sources (relationQualifier readFrom)).values) :
    m.ReportsAssigned into readFrom sources assignments := by
  have hasked : (ofAssignments assignments).isEmpty = false := by
    rw [← OrderedMap.isEmpty_keys, keys_ofAssignments, List.isEmpty_eq_false_iff]
    exact eraseDups_ne_nil fun hnil => hne (List.map_eq_nil_iff.1 hnil)
  have hcolumns : answeredColumns targets assignments =
      ((ofAssignments assignments).answerOf sources (relationQualifier readFrom)).keys := by
    rw [keys_answerOf hasked, keys_ofAssignments, answeredColumns, if_neg hne]
  have hentries : m.entries =
      ((ofAssignments assignments).answerOf sources (relationQualifier readFrom)).entries.map
        fun entry => (entry.1.writtenTo into, entry.2) := by
    -- both sides have the columns in one order, so each meets its own sources
    rw [hm, hcolumns, OrderedMap.keys, OrderedMap.values, List.map_map, List.zip_map']
    rfl
  have hsources : ∀ column ∈ assignments.map Assignment.key,
      m.sourcesOf (column.writtenTo into) = ((ofAssignments assignments).answerOf sources
        (relationQualifier readFrom)).sourcesOf column := by
    intro column hcolumn
    have hkey : column ∈ ((ofAssignments assignments).answerOf sources
        (relationQualifier readFrom)).keys := by
      rw [keys_answerOf hasked, keys_ofAssignments]
      exact List.mem_eraseDups.2 hcolumn
    obtain ⟨entry, hentry, rfl⟩ := List.mem_map.1 hkey
    have hwritten : (entry.1.writtenTo into, entry.2) ∈ m.entries := by
      rw [hentries]
      exact List.mem_map_of_mem (f := fun entry => (entry.1.writtenTo into, entry.2)) hentry
    rw [LineageMap.sourcesOf_of_mem hentry]
    exact LineageMap.sourcesOf_of_mem hwritten
  refine ⟨?_, ?_, ?_⟩
  · rw [OrderedMap.keys, hentries, List.map_map, ← keys_ofAssignments,
      ← keys_answerOf hasked sources (relationQualifier readFrom), OrderedMap.keys, List.map_map]
    rfl
  · intro column hcolumn r hr
    rw [hsources column hcolumn, h.mem_sourcesOf_answerOf_iff hcolumn] at hr
    obtain ⟨x, hx, hown, rfl⟩ := hr
    exact ⟨x, refersTo_of_mem hx, hown, rfl⟩
  · intro column x hx hown
    obtain ⟨y, hy, hid⟩ := exists_mem_of_refersTo hx
    have hcolumn : column ∈ assignments.map Assignment.key := by
      obtain ⟨a, ha, rfl, -⟩ := hx
      exact List.mem_map_of_mem ha
    refine ⟨y.withQualifier (relationQualifier readFrom), ?_, hid⟩
    rw [hsources column hcolumn, h.mem_sourcesOf_answerOf_iff hcolumn]
    exact ⟨y, hy, hid ▸ hown, rfl⟩

/-- Where nothing is assigned, the columns of the two tables are paired as they stand. -/
theorem entries_of_unassigned (h : MergesTables targets sources []) :
    ((answeredColumns targets []).map (Attribute.writtenTo into)).zip
        ((ofAssignments []).answerOf sources (relationQualifier readFrom)).values =
      (targets.zip sources).map fun pair => (pair.1.writtenTo into,
        .singleton (pair.2.withQualifier (relationQualifier readFrom))) := by
  have hentries : ((ofAssignments []).answerOf sources (relationQualifier readFrom)).entries =
      sources.map fun a => (a, .singleton (a.withQualifier (relationQualifier readFrom))) :=
    entries_answerOf_of_isEmpty h.nodup_sources _
  rw [OrderedMap.values, hentries, List.map_map, answeredColumns, if_pos rfl, List.zip_map]
  rfl

end MergesTables

namespace Plan

variable {targets sources : List Attribute}

/-- A merge of two tables always has a lineage. It is that of the assigned columns if and only if
something is assigned or one of the tables has no column; where nothing is assigned, the columns of
the target are paired with those of the source by position. -/
theorem extract_merge_reportsAssigned_iff (settings : Settings) (into readFrom : Option TableName)
    (matched notMatched : List MergeAction) (assignments : List Assignment)
    (hassignments : (matched ++ notMatched).flatMap MergeAction.assignments = assignments)
    (h : MergesTables targets sources assignments) :
    ∃ m, ((Plan.merge (.relation targets into) (.relation sources readFrom) matched
        notMatched).extract settings ∅).result = .ok m ∧
      (m.ReportsAssigned into readFrom sources assignments ↔
        assignments ≠ [] ∨ targets = [] ∨ sources = []) ∧
      (assignments = [] → m.entries = (targets.zip sources).map fun pair =>
        (pair.1.writtenTo into,
          .singleton (pair.2.withQualifier (Lineage.relationQualifier readFrom)))) := by
  obtain ⟨m, hm, hentries⟩ := h.exists_extract settings into readFrom hassignments
  refine ⟨m, hm, ?_, ?_⟩
  · by_cases hne : assignments = []
    · subst hne
      rw [h.entries_of_unassigned] at hentries
      constructor
      · intro hreports
        have hnil : m.entries = [] := List.map_eq_nil_iff.1 hreports.keys
        rw [hentries, List.map_eq_nil_iff, List.zip_eq_nil_iff] at hnil
        exact Or.inr hnil
      · intro hempty
        have hnil : m.entries = [] := by
          rw [hentries, List.map_eq_nil_iff, List.zip_eq_nil_iff]
          exact hempty.resolve_left fun hsome => hsome rfl
        refine ⟨List.map_eq_nil_iff.2 hnil, fun column hcolumn => ?_, fun column x hx => ?_⟩
        · cases hcolumn
        · obtain ⟨a, ha, -⟩ := hx
          cases ha
    · exact ⟨fun _ => Or.inl hne, fun _ => h.reportsAssigned_of_assigned hne hentries⟩
  · intro hnil
    subst hnil
    rw [hentries, h.entries_of_unassigned]

/-- An update, a deletion and an insertion from `src` into `db.tgt`. -/
def upsertActions : List MergeAction :=
  [.update [.mk ⟨2, "amount", []⟩
      (.call "add" [.column ⟨4, "amt", []⟩, .column ⟨5, "bonus", []⟩])] none,
    .delete none,
    .insert [.mk ⟨1, "id", []⟩ (.column ⟨3, "id", []⟩),
      .mk ⟨2, "amount", []⟩ (.column ⟨4, "amt", []⟩)] none]

/-- The update and the insertion merge two tables. -/
theorem mergesTables_upsert : MergesTables [⟨1, "id", []⟩, ⟨2, "amount", []⟩]
    [⟨3, "id", []⟩, ⟨4, "amt", []⟩, ⟨5, "bonus", []⟩]
    (upsertActions.flatMap MergeAction.assignments) where
  targetIds := by decide
  sourceIds := by decide
  named := by decide
  keys := by decide
  values := by decide

/-- What is assigned on several conditions is reported column by column. -/
theorem extract_upsert_reportsAssigned :
    ∃ m, ((Plan.merge (.relation [⟨1, "id", []⟩, ⟨2, "amount", []⟩] (some ⟨"tgt", "db", none⟩))
        (.relation [⟨3, "id", []⟩, ⟨4, "amt", []⟩, ⟨5, "bonus", []⟩] (some ⟨"src", none, none⟩))
        upsertActions []).extract .standard ∅).result = .ok m ∧
      m.ReportsAssigned (some ⟨"tgt", "db", none⟩) (some ⟨"src", none, none⟩)
        [⟨3, "id", []⟩, ⟨4, "amt", []⟩, ⟨5, "bonus", []⟩]
        (upsertActions.flatMap MergeAction.assignments) := by
  obtain ⟨m, hm, hiff, -⟩ := extract_merge_reportsAssigned_iff .standard
    (some ⟨"tgt", "db", none⟩) (some ⟨"src", none, none⟩) upsertActions []
    (upsertActions.flatMap MergeAction.assignments) rfl mergesTables_upsert
  exact ⟨m, hm, hiff.2 (Or.inl (by decide))⟩

/-- A merge that only deletes reports the first column of its target as read from the first column
of its source, where it should report nothing. -/
theorem extract_deletion_not_reportsAssigned :
    ((Plan.merge (.relation [⟨1, "a", []⟩] (some ⟨"t", none, none⟩))
        (.relation [⟨2, "x", []⟩] (some ⟨"u", none, none⟩)) [.delete none] []).extract .standard
        ∅).result = .ok (.ofList [(⟨1, "t.a", ["t"]⟩, .singleton ⟨2, "x", ["u"]⟩)]) ∧
      ¬ LineageMap.ReportsAssigned (some ⟨"t", none, none⟩) (some ⟨"u", none, none⟩)
        [⟨2, "x", []⟩] [] (.ofList [(⟨1, "t.a", ["t"]⟩, .singleton ⟨2, "x", ["u"]⟩)]) := by
  constructor
  · rfl
  · intro hreports
    exact absurd hreports.keys (by decide)

end Plan

end ColumnTrace
