import ColumnTrace.Lineage.Record
import ColumnTrace.Proofs.MapEntries
import ColumnTrace.Proofs.Outcomes
import ColumnTrace.Proofs.Plans.Renumbering
import Mathlib.Data.List.Nodup

/-!
# Lineage maps under other numbers

Sets and maps look at identities only to see whether two are the same, so renumbering goes through
all that is done with them: an attribute joins a set (`AttributeSet.renumber_insert`), a key is
written (`LineageMap.renumber_insert`), a dependency is looked up (`LineageMap.byId?_renumber`), a
request is joined with an answer (`LineageMap.sends_join`) or answered by a relation
(`LineageMap.sends_ofRelation`). A record shows no identities and is the same
(`LineageMap.record_renumber`).
-/

set_option autoImplicit false

namespace ColumnTrace

variable (r : Renumbering)

/-! ## Sets -/

/-- An identity is among others under the new numbers where it was under the old. -/
theorem any_id_renumber (attrs : List Attribute) (a : Attribute) :
    (attrs.map (Attribute.renumber r)).any (·.id == (a.renumber r).id) =
      attrs.any (·.id == a.id) := by
  rw [List.any_map]
  refine congrArg attrs.any (funext fun b => Bool.eq_iff_iff.2 ?_)
  simp only [Function.comp_apply, beq_iff_eq, Attribute.id_renumber_inj]

/-- The list is joined under the new numbers where it was under the old. -/
theorem map_joinAttribute (a : Attribute) (attrs : List Attribute) :
    (joinAttribute a attrs).map (Attribute.renumber r) =
      joinAttribute (a.renumber r) (attrs.map (Attribute.renumber r)) := by
  induction attrs with
  | nil => rfl
  | cons b rest ih =>
    by_cases h : b.id = a.id
    · have hnew : (b.renumber r).id = (a.renumber r).id := congrArg r.column h
      rw [joinAttribute, if_pos h, List.map_cons, List.map_cons, joinAttribute, if_pos hnew]
      exact congrArg (· :: rest.map (Attribute.renumber r)) (apply_ite (Attribute.renumber r) _ a b)
    · have hnew : (b.renumber r).id ≠ (a.renumber r).id := mt (Attribute.id_renumber_inj r).1 h
      rw [joinAttribute, if_neg h, List.map_cons, List.map_cons, joinAttribute, if_neg hnew, ih]

namespace AttributeSet

/-- The set under the new numbers. -/
def renumber (s : AttributeSet) : AttributeSet where
  attrs := s.attrs.map (Attribute.renumber r)
  nodup_ids := by
    have hids : (s.attrs.map (Attribute.renumber r)).map Attribute.id =
        (s.attrs.map Attribute.id).map r.column := by
      simp only [List.map_map, Function.comp_def, Attribute.id_renumber]
    rw [hids]
    exact s.nodup_ids.map r.column.injective

@[simp]
theorem attrs_renumber (s : AttributeSet) :
    (s.renumber r).attrs = s.attrs.map (Attribute.renumber r) := rfl

@[simp]
theorem renumber_empty : (∅ : AttributeSet).renumber r = ∅ := rfl

@[simp]
theorem renumber_singleton (a : Attribute) :
    (singleton a).renumber r = singleton (a.renumber r) := rfl

@[simp]
theorem isEmpty_renumber (s : AttributeSet) : (s.renumber r).isEmpty = s.isEmpty :=
  List.isEmpty_map

/-- A column is added under its new number. -/
theorem renumber_insert (s : AttributeSet) (a : Attribute) :
    (s.insert a).renumber r = (s.renumber r).insert (a.renumber r) :=
  ext (map_joinAttribute r a s.attrs)

/-- Columns are added under their new numbers. -/
theorem renumber_insertAll (s : AttributeSet) (attrs : List Attribute) :
    (s.insertAll attrs).renumber r =
      (s.renumber r).insertAll (attrs.map (Attribute.renumber r)) := by
  induction attrs generalizing s with
  | nil => rfl
  | cons a rest ih =>
    show ((s.insert a).insertAll rest).renumber r =
      ((s.renumber r).insert (a.renumber r)).insertAll (rest.map (Attribute.renumber r))
    rw [ih, renumber_insert]

/-- The set of a list under new numbers is that of the list under new numbers. -/
theorem renumber_ofList (attrs : List Attribute) :
    (ofList attrs).renumber r = ofList (attrs.map (Attribute.renumber r)) :=
  renumber_insertAll r empty attrs

/-- A union under new numbers is that of the two sets under new numbers. -/
theorem renumber_union (s t : AttributeSet) :
    (s ∪ t).renumber r = s.renumber r ∪ t.renumber r :=
  renumber_insertAll r s t.attrs

end AttributeSet

/-- An expression refers to its columns under new numbers. -/
@[simp]
theorem Expr.references_renumber (e : Expr) :
    (e.renumber r).references = e.references.renumber r := by
  rw [Expr.references, Expr.references, Expr.attributes_renumber, AttributeSet.renumber_ofList]

/-! ## Maps -/

namespace LineageMap

/-- A column with its sources under the new numbers. -/
def renumberEntry (entry : Attribute × AttributeSet) : Attribute × AttributeSet :=
  (entry.1.renumber r, entry.2.renumber r)

/-- The map under the new numbers. -/
def renumber (m : LineageMap) : LineageMap where
  entries := m.entries.map (renumberEntry r)
  nodup_keys := by
    have hkeys : (m.entries.map (renumberEntry r)).map Prod.fst =
        (m.entries.map Prod.fst).map (Attribute.renumber r) := by
      simp only [List.map_map, Function.comp_def, renumberEntry]
    rw [hkeys]
    exact m.nodup_keys.map (Attribute.renumber_injective r)

@[simp]
theorem entries_renumber (m : LineageMap) :
    (m.renumber r).entries = m.entries.map (renumberEntry r) := rfl

@[simp]
theorem renumber_empty : (∅ : LineageMap).renumber r = ∅ := rfl

@[simp]
theorem isEmpty_renumber (m : LineageMap) : (m.renumber r).isEmpty = m.isEmpty :=
  List.isEmpty_map

@[simp]
theorem size_renumber (m : LineageMap) : (m.renumber r).size = m.size :=
  List.length_map _

theorem keys_renumber (m : LineageMap) :
    (m.renumber r).keys = m.keys.map (Attribute.renumber r) := by
  simp only [OrderedMap.keys, entries_renumber, List.map_map, Function.comp_def, renumberEntry]

theorem values_renumber (m : LineageMap) :
    (m.renumber r).values = m.values.map (AttributeSet.renumber r) := by
  simp only [OrderedMap.values, entries_renumber, List.map_map, Function.comp_def, renumberEntry]

/-- An entry is set under its new number. -/
theorem map_assign (key : Attribute) (value : AttributeSet)
    (entries : List (Attribute × AttributeSet)) :
    (assign key value entries).map (renumberEntry r) =
      assign (key.renumber r) (value.renumber r) (entries.map (renumberEntry r)) := by
  induction entries with
  | nil => rfl
  | cons entry rest ih =>
    by_cases h : entry.1 = key
    · have hnew : (renumberEntry r entry).1 = key.renumber r := congrArg (Attribute.renumber r) h
      rw [assign, if_pos h, List.map_cons, List.map_cons, assign, if_pos hnew]
      rfl
    · have hnew : (renumberEntry r entry).1 ≠ key.renumber r :=
        mt (fun heq => Attribute.renumber_injective r heq) h
      rw [assign, if_neg h, List.map_cons, List.map_cons, assign, if_neg hnew, ih]

theorem renumber_insert (m : LineageMap) (key : Attribute) (value : AttributeSet) :
    renumber r (m.insert key value) = (m.renumber r).insert (key.renumber r) (value.renumber r) :=
  OrderedMap.ext (map_assign r key value m.entries)

/-- Entries are set under their new numbers. -/
theorem renumber_insertAll (m : LineageMap) (pairs : List (Attribute × AttributeSet)) :
    renumber r (m.insertAll pairs) = (m.renumber r).insertAll (pairs.map (renumberEntry r)) := by
  induction pairs generalizing m with
  | nil => rfl
  | cons pair rest ih =>
    rw [OrderedMap.insertAll_cons, ih, renumber_insert]
    rfl

theorem renumber_ofList (pairs : List (Attribute × AttributeSet)) :
    renumber r (OrderedMap.ofList pairs) = OrderedMap.ofList (pairs.map (renumberEntry r)) :=
  renumber_insertAll r ∅ pairs

/-- Values that are computed under the old numbers and then renumbered can be computed under the new
ones. -/
theorem renumber_mapValues {f g : Attribute → AttributeSet → AttributeSet} {m : LineageMap}
    (h : ∀ key sources, (f key sources).renumber r = g (key.renumber r) (sources.renumber r)) :
    renumber r (m.mapValues f) = (m.renumber r).mapValues g := by
  refine OrderedMap.ext ?_
  simp only [entries_renumber, OrderedMap.mapValues, List.map_map]
  exact List.map_congr_left fun entry _ => congrArg (Prod.mk _) (h entry.1 entry.2)

/-- What is found under a column is found under its new number. -/
theorem get?_renumber (m : LineageMap) (key : Attribute) :
    (m.renumber r).get? (key.renumber r) = (m.get? key).map (AttributeSet.renumber r) := by
  rw [Option.ext_iff]
  intro value
  simp only [OrderedMap.get?_eq_some_iff, Option.map_eq_some_iff, entries_renumber, List.mem_map,
    renumberEntry, Prod.mk.injEq]
  constructor
  · rintro ⟨⟨other, sources⟩, hmem, hkey, rfl⟩
    obtain rfl := Attribute.renumber_injective r hkey
    exact ⟨sources, hmem, rfl⟩
  · rintro ⟨sources, hmem, rfl⟩
    exact ⟨(key, sources), hmem, rfl, rfl⟩

/-- A column has its sources under new numbers. -/
theorem sourcesOf_renumber (m : LineageMap) (key : Attribute) :
    (m.renumber r).sourcesOf (key.renumber r) = (m.sourcesOf key).renumber r := by
  rw [sourcesOf, sourcesOf, get?_renumber]
  cases m.get? key <;> rfl

/-- A dependency is found under its new identity where it was under the old. -/
theorem byId?_renumber (m : LineageMap) (id : Int) :
    (m.renumber r).byId? (r.column id) = (m.byId? id).map (AttributeSet.renumber r) := by
  have hid : ∀ entry : Attribute × AttributeSet,
      ((renumberEntry r entry).1.id == r.column id) = (entry.1.id == id) := fun entry =>
    Bool.eq_iff_iff.2 (by simp only [beq_iff_eq, renumberEntry, Attribute.id_renumber,
      r.column.injective.eq_iff])
  simp only [byId?, entries_renumber, ← List.map_reverse, List.find?_map, Function.comp_def, hid,
    Option.map_map]
  rfl

/-- Columns stand for themselves under new numbers. -/
theorem renumber_identity (attrs : List Attribute) :
    (identity attrs).renumber r = identity (attrs.map (Attribute.renumber r)) := by
  rw [identity, renumber_ofList, identity, List.map_map, List.map_map]
  rfl

/-- Two maps are merged under new numbers as before. -/
theorem renumber_merge (left right : LineageMap) :
    (left.merge right).renumber r = (left.renumber r).merge (right.renumber r) := by
  have hfold : ∀ (entries : List (Attribute × AttributeSet)) (merged : LineageMap),
      renumber r (entries.foldl (fun merged entry =>
        merged.insert entry.1 (entry.2 ∪ left.sourcesOf entry.1)) merged) =
      (entries.map (renumberEntry r)).foldl (fun merged entry =>
        merged.insert entry.1 (entry.2 ∪ (left.renumber r).sourcesOf entry.1))
          (merged.renumber r) := by
    intro entries
    induction entries with
    | nil => exact fun _ => rfl
    | cons entry rest ih =>
      intro merged
      rw [List.foldl_cons, ih, List.map_cons, List.foldl_cons, renumber_insert,
        AttributeSet.renumber_union, ← sourcesOf_renumber]
      rfl
  exact hfold right.entries left

/-- Several maps are merged under new numbers as before. -/
theorem renumber_mergeAll (maps : List LineageMap) :
    (mergeAll maps).renumber r = mergeAll (maps.map (renumber r)) := by
  have hfold : ∀ merged : LineageMap, (maps.foldl merge merged).renumber r =
      (maps.map (renumber r)).foldl merge (merged.renumber r) := by
    induction maps with
    | nil => exact fun _ => rfl
    | cons m rest ih =>
      intro merged
      rw [List.foldl_cons, ih, List.map_cons, List.foldl_cons, renumber_merge]
  exact hfold ∅

/-- Columns get the same names under the new numbers. -/
theorem renumber_rename {name : Attribute → Label}
    (hname : ∀ a : Attribute, name (a.renumber r) = name a) (m : LineageMap) :
    (m.rename name).renumber r = (m.renumber r).rename name := by
  rw [rename, renumber_ofList, rename, entries_renumber, List.map_map, List.map_map]
  refine congrArg OrderedMap.ofList (List.map_congr_left fun entry _ => ?_)
  simp only [Function.comp_apply, renumberEntry, Attribute.renumber_withName, hname]

/-- A column gives way to the same columns under new numbers. -/
theorem renumber_resolve (child : LineageMap) (a : Attribute) :
    (child.resolve a).map (Attribute.renumber r) = (child.renumber r).resolve (a.renumber r) := by
  rw [resolve, resolve, Attribute.id_renumber, byId?_renumber, Attribute.isCountMarker_renumber]
  cases child.byId? a.id with
  | some sources => rfl
  | none => cases a.isCountMarker <;> rfl

/-- A request is resolved under new numbers as before. -/
theorem renumber_resolveAll (parent child : LineageMap) :
    (parent.resolveAll child).renumber r = (parent.renumber r).resolveAll (child.renumber r) := by
  rw [resolveAll, resolveAll, isEmpty_renumber]
  split
  · rfl
  · refine renumber_mapValues r fun key sources => ?_
    rw [AttributeSet.renumber_ofList, List.map_flatMap, AttributeSet.attrs_renumber,
      List.flatMap_map]
    simp only [renumber_resolve]

/-- What is asked for is asked for under the new numbers. -/
theorem dependencies_renumber (m : LineageMap) : (m.renumber r).dependencies =
    m.dependencies.map (Prod.map (Attribute.renumber r) (Attribute.renumber r)) := by
  simp only [dependencies, entries_renumber, List.flatMap_map, List.map_flatMap, renumberEntry,
    AttributeSet.attrs_renumber, List.map_map, Function.comp_def, Prod.map]

/-- Whether a name is missing does not depend on numbers. -/
theorem lacksName_renumber (child : LineageMap) (asked : Attribute × Attribute) :
    (child.renumber r).lacksName (asked.map (Attribute.renumber r) (Attribute.renumber r)) =
      child.lacksName asked := by
  simp only [lacksName, Prod.map, Attribute.id_renumber, byId?_renumber, Option.isNone_map,
    Attribute.isNamed_renumber, Attribute.isCountMarker_renumber]

/-- A table answers under new numbers as before. -/
theorem answer?_renumber (output : List Attribute) (qualifier : List String) (a : Attribute) :
    answer? (output.map (Attribute.renumber r)) qualifier (a.renumber r) =
      (answer? output qualifier a).map (Attribute.renumber r) := by
  have hunder : isNamedUnder qualifier (a.renumber r) = isNamedUnder qualifier a := rfl
  simp only [answer?, any_id_renumber, hunder, Attribute.isSubqueryMarked_renumber,
    Attribute.isCountMarker_renumber, apply_ite (Option.map (Attribute.renumber r)),
    Option.map_some, Option.map_none, Attribute.renumber_withQualifier, Attribute.renumber_withName,
    Attribute.renumber_dropLastSegment, Attribute.name_renumber]

/-- A request to a table is answered under new numbers as before. -/
theorem renumber_answerOf (parent : LineageMap) (output : List Attribute)
    (qualifier : List String) : (parent.answerOf output qualifier).renumber r =
      (parent.renumber r).answerOf (output.map (Attribute.renumber r)) qualifier := by
  rw [answerOf, answerOf, isEmpty_renumber]
  split
  · rw [renumber_ofList, List.map_map, List.map_map]
    rfl
  · refine renumber_mapValues r fun key sources => ?_
    simp only [AttributeSet.renumber_ofList, AttributeSet.attrs_renumber, List.filterMap_map,
      List.map_filterMap, Function.comp_def, answer?_renumber]

/-- Whether a name is compared does not depend on numbers. -/
theorem comparesName_renumber (output : List Attribute) (a : Attribute) :
    comparesName (output.map (Attribute.renumber r)) (a.renumber r) = comparesName output a := by
  rw [comparesName, comparesName, any_id_renumber, Attribute.isSubqueryMarked_renumber]

end LineageMap

/-! ## Outcomes -/

/-- The error with the number of the named query that it shows under the new numbers. -/
def ExtractionError.renumber : ExtractionError → ExtractionError
  | .referenceArity id defined referenced => .referenceArity (r.query id) defined referenced
  | .tooDeep depth limit => .tooDeep depth limit
  | .unresolvedColumns exposed resolved => .unresolvedColumns exposed resolved
  | .insertWithoutTable mode => .insertWithoutTable mode
  | .directoryWithoutLocation => .directoryWithoutLocation
  | .viewColumns view listed produced => .viewColumns view listed produced
  | .namelessColumn => .namelessColumn

/-- Where named queries keep their numbers, an error is the same. -/
theorem ExtractionError.renumber_ofColumns (column : Int ↪ Int) :
    ExtractionError.renumber (.ofColumns column) = id :=
  funext fun e => by cases e <;> rfl

/-- The second computation has the map of the first under the new numbers, or fails as it does. -/
abbrev Traced.Renumbers (x y : Traced ExtractionError LineageMap) : Prop :=
  Traced.Sends (ExtractionError.renumber r) (LineageMap.renumber r) x y

namespace LineageMap

variable (parent child : LineageMap)

/-- A join under new numbers ends as before. -/
theorem sends_join : Traced.Renumbers r (parent.join child)
    ((parent.renumber r).join (child.renumber r)) := by
  have hlacks : (parent.renumber r).dependencies.any (child.renumber r).lacksName =
      parent.dependencies.any child.lacksName := by
    rw [dependencies_renumber, List.any_map]
    exact congrArg (List.any _) (funext fun asked => lacksName_renumber r child asked)
  simp only [Traced.Renumbers, Traced.Sends, join, hlacks, ← renumber_resolveAll]
  split <;> rfl

/-- A table under new numbers ends as before. -/
theorem sends_ofRelation (output : List Attribute) (qualifier : List String) :
    Traced.Renumbers r (parent.ofRelation output qualifier)
      ((parent.renumber r).ofRelation (output.map (Attribute.renumber r)) qualifier) := by
  have hcompares : (parent.renumber r).dependencies.any (fun pair =>
      comparesName (output.map (Attribute.renumber r)) pair.2 && !pair.2.isNamed) =
      parent.dependencies.any fun pair => comparesName output pair.2 && !pair.2.isNamed := by
    rw [dependencies_renumber, List.any_map]
    refine congrArg (List.any _) (funext fun pair => ?_)
    simp only [Function.comp_apply, Prod.map, comparesName_renumber, Attribute.isNamed_renumber]
  rw [ofRelation, ofRelation, hcompares, ← renumber_answerOf]
  split
  · exact Traced.sends_fail _
  · exact Traced.sends_pure rfl

/-- An opened view or result under new numbers ends as before. -/
theorem sends_ofRelationPlan (output : List Attribute) (lineage : LineageMap) :
    Traced.Renumbers r (parent.ofRelationPlan output lineage)
      ((parent.renumber r).ofRelationPlan (output.map (Attribute.renumber r))
        (lineage.renumber r)) := by
  rw [ofRelationPlan, ofRelationPlan, size_renumber, List.length_map]
  split
  · exact Traced.sends_fail _
  · have hpairs : renumber r (OrderedMap.ofList (output.zip lineage.values)) =
        OrderedMap.ofList
          ((output.map (Attribute.renumber r)).zip (lineage.renumber r).values) := by
      rw [renumber_ofList, values_renumber, List.zip_map]
      rfl
    rw [← hpairs]
    exact sends_join r parent _

/-! ## Records -/

/-- A record shows no numbers of columns. -/
theorem toColumns_renumber (m : LineageMap) : (m.renumber r).toColumns = m.toColumns := by
  simp only [toColumns, entries_renumber, List.map_map, Function.comp_def, renumberEntry,
    AttributeSet.attrs_renumber, Attribute.name_renumber, Attribute.qualifiedName_renumber]

/-- Whether all names are there does not depend on numbers. -/
theorem isNamed_renumber (m : LineageMap) : (m.renumber r).isNamed = m.isNamed := by
  simp only [isNamed, entries_renumber, List.all_map, Function.comp_def, renumberEntry,
    AttributeSet.attrs_renumber, Attribute.isNamed_renumber]

/-- A record shows no identities. -/
theorem record_renumber (m : LineageMap) : (m.renumber r).record = m.record := by
  rw [record, record, isNamed_renumber, toRecord, toRecord, toColumns_renumber]

end LineageMap

end ColumnTrace
