import ColumnTrace.Lineage.Map
import ColumnTrace.Proofs.MapEntries
import ColumnTrace.Proofs.Representatives
import Mathlib.Data.List.Nodup

/-!
# What a lineage map says of a column

The operations on lineage maps are read column by column. Merging two maps gives a column the
sources of the second map and after them those of the first (`sourcesOf_merge`). Resolving a request
exchanges each dependency of a column for what is known under its identity (`sourcesOf_resolveAll`),
and it goes through where every dependency that nothing below knows has a name and counts no rows
(`result_join_of_resolvable`).
-/

set_option autoImplicit false

namespace ColumnTrace

namespace LineageMap

/-- The sources of an entry are found under its column. -/
theorem sourcesOf_of_mem {m : LineageMap} {entry : Attribute × AttributeSet}
    (h : entry ∈ m.entries) : m.sourcesOf entry.1 = entry.2 := by
  rw [sourcesOf, OrderedMap.get?_of_mem h]
  rfl

/-- A column without an entry has no sources. -/
theorem sourcesOf_of_not_mem {m : LineageMap} {key : Attribute} (h : key ∉ m.keys) :
    m.sourcesOf key = ∅ := by
  rw [sourcesOf, OrderedMap.get?_eq_none_iff.2 h]
  rfl

@[simp]
theorem sourcesOf_empty (key : Attribute) : sourcesOf ∅ key = ∅ := rfl

/-- A column of the map stands in it beside its sources. -/
theorem mem_entries_of_mem_keys {m : LineageMap} {key : Attribute} (h : key ∈ m.keys) :
    (key, m.sourcesOf key) ∈ m.entries := by
  obtain ⟨entry, hentry, rfl⟩ := List.mem_map.1 h
  rw [sourcesOf_of_mem hentry]
  exact hentry

/-- A column that has a source stands in the map. -/
theorem mem_entries_of_mem_sourcesOf {m : LineageMap} {key a : Attribute}
    (h : a ∈ (m.sourcesOf key).attrs) : (key, m.sourcesOf key) ∈ m.entries := by
  apply mem_entries_of_mem_keys
  by_contra hnot
  rw [sourcesOf_of_not_mem hnot] at h
  cases h

/-- A map is its keys, each with its sources. -/
theorem entries_eq_map_keys (m : LineageMap) :
    m.entries = m.keys.map fun key => (key, m.sourcesOf key) := by
  rw [OrderedMap.keys, List.map_map]
  refine (List.map_id m.entries).symm.trans (List.map_congr_left fun entry hentry => ?_)
  rw [Function.comp_apply, sourcesOf_of_mem hentry]
  rfl

/-- The values are the sources of the columns, in order. -/
theorem values_eq_map_keys (m : LineageMap) : m.values = m.keys.map m.sourcesOf := by
  rw [OrderedMap.values, entries_eq_map_keys, List.map_map]
  rfl

/-- The sources of an entry are changed by the change of the values. -/
theorem sourcesOf_mapValues {m : LineageMap} {entry : Attribute × AttributeSet}
    (f : Attribute → AttributeSet → AttributeSet) (h : entry ∈ m.entries) :
    sourcesOf (m.mapValues f) entry.1 = f entry.1 entry.2 := by
  have hmem : (entry.1, f entry.1 entry.2) ∈ (m.mapValues f).entries :=
    List.mem_map_of_mem (f := fun entry => (entry.1, f entry.1 entry.2)) h
  exact sourcesOf_of_mem hmem

/-! ## Merging -/

/-- Two maps are merged entry by entry. -/
theorem merge_eq_insertAll (left right : LineageMap) :
    merge left right = left.insertAll
      (right.entries.map fun entry => (entry.1, entry.2 ∪ left.sourcesOf entry.1)) := by
  rw [merge, OrderedMap.insertAll, List.foldl_map]

/-- A column of both maps has the sources of the second, and after them those of the first. -/
theorem sourcesOf_merge (left right : LineageMap) (key : Attribute) :
    (merge left right).sourcesOf key = right.sourcesOf key ∪ left.sourcesOf key := by
  have hnodup : ((right.entries.map fun entry =>
      (entry.1, entry.2 ∪ left.sourcesOf entry.1)).map Prod.fst).Nodup := by
    rw [List.map_map]
    exact right.nodup_keys
  rw [merge_eq_insertAll, sourcesOf, OrderedMap.get?_insertAll_of_nodup left hnodup]
  by_cases hkey : key ∈ right.keys
  · obtain ⟨entry, hentry, rfl⟩ := List.mem_map.1 hkey
    have hlookup : (right.entries.map fun entry =>
        (entry.1, entry.2 ∪ left.sourcesOf entry.1)).lookup entry.1 =
        some (entry.2 ∪ left.sourcesOf entry.1) :=
      (lookup_eq_some_iff_of_nodup hnodup).2
        (List.mem_map_of_mem (f := fun entry => (entry.1, entry.2 ∪ left.sourcesOf entry.1))
          hentry)
    rw [hlookup, sourcesOf_of_mem hentry]
    rfl
  · have hlookup : (right.entries.map fun entry =>
        (entry.1, entry.2 ∪ left.sourcesOf entry.1)).lookup key = none := by
      rw [List.lookup_eq_none_iff]
      intro pair hpair
      obtain ⟨entry, hentry, rfl⟩ := List.mem_map.1 hpair
      have hmem : entry.1 ∈ right.keys := OrderedMap.key_mem_of_entry_mem hentry
      exact bne_iff_ne.2 fun e => hkey (e ▸ hmem)
    rw [hlookup, sourcesOf_of_not_mem hkey, AttributeSet.empty_union]
    rfl

/-- The keys of the first map and after them those of the second, in order of first appearance. -/
theorem keys_merge (left right : LineageMap) :
    (merge left right).keys = (left.keys ++ right.keys).eraseDups := by
  rw [merge_eq_insertAll, OrderedMap.keys_insertAll, List.map_map]
  rfl

/-- Maps of the same columns together have these columns. -/
theorem keys_merge_of_keys_eq {left right : LineageMap} (h : right.keys = left.keys) :
    (merge left right).keys = left.keys := by
  rw [keys_merge, h, eraseDups_append_of_subset (List.Subset.refl _), OrderedMap.eraseDups_keys]

/-- Two maps together have the columns of both. -/
theorem mem_keys_merge {left right : LineageMap} {key : Attribute} :
    key ∈ (merge left right).keys ↔ key ∈ left.keys ∨ key ∈ right.keys := by
  rw [keys_merge, List.mem_eraseDups, List.mem_append]

/-- Nothing is merged with a map as the map. -/
@[simp]
theorem merge_empty_left (m : LineageMap) : merge ∅ m = m := by
  rw [merge_eq_insertAll]
  have hpairs : (m.entries.map fun entry => (entry.1, entry.2 ∪ sourcesOf ∅ entry.1)) =
      m.entries := by
    simp
  rw [hpairs]
  exact OrderedMap.ofList_entries m

@[simp]
theorem mergeAll_singleton (m : LineageMap) : mergeAll [m] = m := merge_empty_left m

/-- Two maps are merged one with the other. -/
@[simp]
theorem mergeAll_pair (left right : LineageMap) : mergeAll [left, right] = merge left right := by
  show merge (merge ∅ left) right = _
  rw [merge_empty_left]

/-- Maps with the same keys have these keys together. -/
theorem keys_mergeAll {maps : List LineageMap} {keys : List Attribute}
    (hne : maps ≠ []) (h : ∀ m ∈ maps, m.keys = keys) : (mergeAll maps).keys = keys := by
  cases maps with
  | nil => exact absurd rfl hne
  | cons first rest =>
    rw [List.forall_mem_cons] at h
    obtain ⟨hfirst, hrest⟩ := h
    rw [mergeAll, List.foldl_cons, merge_empty_left]
    clear hne
    -- by induction on the maps that are still to be merged, into a map with these keys
    induction rest generalizing first with
    | nil => exact hfirst
    | cons m rest ih =>
      rw [List.forall_mem_cons] at hrest
      rw [List.foldl_cons]
      refine ih (first.merge m) ?_ hrest.2
      rw [keys_merge_of_keys_eq (hrest.1.trans hfirst.symm), hfirst]

/-- Several maps together have the columns of each. -/
theorem mem_keys_mergeAll {maps : List LineageMap} {key : Attribute} :
    key ∈ (mergeAll maps).keys ↔ ∃ m ∈ maps, key ∈ m.keys := by
  have step : ∀ (maps : List LineageMap) (start : LineageMap),
      key ∈ (maps.foldl merge start).keys ↔ key ∈ start.keys ∨ ∃ m ∈ maps, key ∈ m.keys := by
    intro maps
    induction maps with
    | nil => simp
    | cons m rest ih =>
      intro start
      rw [List.foldl_cons, ih, mem_keys_merge, or_assoc]
      simp
  rw [mergeAll, step]
  exact or_iff_right List.not_mem_nil

/-- Several maps together have the identities among the sources that each has. -/
theorem mem_ids_sourcesOf_mergeAll {maps : List LineageMap} {key : Attribute} {id : Int} :
    id ∈ ((mergeAll maps).sourcesOf key).attrs.map Attribute.id ↔
      ∃ m ∈ maps, id ∈ (m.sourcesOf key).attrs.map Attribute.id := by
  have step : ∀ (maps : List LineageMap) (start : LineageMap),
      id ∈ ((maps.foldl merge start).sourcesOf key).attrs.map Attribute.id ↔
        id ∈ (start.sourcesOf key).attrs.map Attribute.id ∨
          ∃ m ∈ maps, id ∈ (m.sourcesOf key).attrs.map Attribute.id := by
    intro maps
    induction maps with
    | nil => simp
    | cons m rest ih =>
      intro start
      have hmerge : id ∈ ((start.merge m).sourcesOf key).attrs.map Attribute.id ↔
          id ∈ (m.sourcesOf key).attrs.map Attribute.id ∨
            id ∈ (start.sourcesOf key).attrs.map Attribute.id := by
        rw [sourcesOf_merge]
        exact AttributeSet.mem_ids_insertAll
      rw [List.foldl_cons, ih, hmerge]
      simp only [List.mem_cons, exists_eq_or_imp]
      tauto
  rw [mergeAll, step]
  exact or_iff_right List.not_mem_nil

/-! ## Looking up an identity -/

/-- What is found under an identity are the sources of a column that has it. -/
theorem exists_entry_of_byId? {m : LineageMap} {id : Int} {sources : AttributeSet}
    (h : m.byId? id = some sources) : ∃ key, (key, sources) ∈ m.entries ∧ key.id = id := by
  rw [byId?, Option.map_eq_some_iff] at h
  obtain ⟨entry, hfound, rfl⟩ := h
  refine ⟨entry.1, ?_, by simpa using List.find?_some hfound⟩
  exact List.mem_reverse.1 (List.mem_of_find?_eq_some hfound)

/-- Nothing is found under an identity that no column has. -/
theorem byId?_eq_none_iff {m : LineageMap} {id : Int} :
    m.byId? id = none ↔ ∀ key ∈ m.keys, key.id ≠ id := by
  simp [byId?, OrderedMap.keys]

/-- Where no two keys have one identity, the sources of a key are found under its identity. -/
theorem byId?_of_mem {m : LineageMap} (hnodup : (m.keys.map Attribute.id).Nodup)
    {entry : Attribute × AttributeSet} (h : entry ∈ m.entries) :
    m.byId? entry.1.id = some entry.2 := by
  cases hfound : m.byId? entry.1.id with
  | none =>
    exact absurd rfl (byId?_eq_none_iff.1 hfound entry.1 (OrderedMap.key_mem_of_entry_mem h))
  | some sources =>
    obtain ⟨key, hkey, hid⟩ := exists_entry_of_byId? hfound
    have heq : key = entry.1 :=
      List.inj_on_of_nodup_map hnodup (OrderedMap.key_mem_of_entry_mem hkey)
        (OrderedMap.key_mem_of_entry_mem h) hid
    rw [← sourcesOf_of_mem h, ← heq, sourcesOf_of_mem hkey]

/-! ## Resolving -/

/-- An empty request gives way to what is below. -/
theorem resolveAll_of_isEmpty {parent : LineageMap} (h : parent.isEmpty = true)
    (child : LineageMap) : parent.resolveAll child = child := by
  rw [resolveAll, if_pos h]

/-- A request is resolved source by source. -/
theorem resolveAll_of_not_isEmpty {parent : LineageMap} (h : parent.isEmpty = false)
    (child : LineageMap) :
    parent.resolveAll child =
      parent.mapValues fun _ sources => .ofList (sources.attrs.flatMap child.resolve) := by
  rw [resolveAll, h, if_neg Bool.false_ne_true]

/-- A request that is not empty keeps its columns. -/
theorem keys_resolveAll {parent : LineageMap} (h : parent.isEmpty = false) (child : LineageMap) :
    (parent.resolveAll child).keys = parent.keys := by
  rw [resolveAll_of_not_isEmpty h, OrderedMap.keys_mapValues]

/-- A column of a request is resolved by its own dependencies only. -/
theorem sourcesOf_resolveAll {parent : LineageMap} (h : parent.isEmpty = false)
    (child : LineageMap) {entry : Attribute × AttributeSet} (hentry : entry ∈ parent.entries) :
    (parent.resolveAll child).sourcesOf entry.1 =
      .ofList (entry.2.attrs.flatMap child.resolve) := by
  rw [resolveAll_of_not_isEmpty h, sourcesOf_mapValues _ hentry]

/-- A source that is known gives way to what it stands for. -/
theorem resolve_of_byId? {child : LineageMap} {a : Attribute} {sources : AttributeSet}
    (h : child.byId? a.id = some sources) : child.resolve a = sources.attrs := by
  rw [resolve, h]

/-- A source that is not known stays, but for the marker of rows. -/
theorem resolve_of_unknown {child : LineageMap} {a : Attribute} (h : child.byId? a.id = none) :
    child.resolve a = if a.isCountMarker then [] else [a] := by
  rw [resolve, h]

/-- The dependencies are the pairs of a column and one of its sources. -/
theorem mem_dependencies {m : LineageMap} {pair : Attribute × Attribute} :
    pair ∈ m.dependencies ↔ ∃ sources, (pair.1, sources) ∈ m.entries ∧ pair.2 ∈ sources.attrs := by
  simp only [dependencies, List.mem_flatMap, List.mem_map]
  constructor
  · rintro ⟨entry, hentry, a, ha, rfl⟩
    exact ⟨entry.2, hentry, ha⟩
  · rintro ⟨sources, hentry, ha⟩
    exact ⟨(pair.1, sources), hentry, pair.2, ha, rfl⟩

/-- A request that is resolved at all is resolved dependency by dependency. -/
theorem eq_resolveAll_of_join {parent child m : LineageMap}
    (h : (parent.join child).result = .ok m) : m = parent.resolveAll child := by
  simp only [join] at h
  split at h
  · cases h
  · exact (Except.ok.inj h).symm

/-- A request is resolved where each of its dependencies is known below, or has a name and counts no
rows. -/
theorem result_join_of_resolvable {parent child : LineageMap}
    (h : ∀ entry ∈ parent.entries, ∀ a ∈ entry.2.attrs,
      child.byId? a.id ≠ none ∨ (a.isNamed = true ∧ a.isCountMarker = false)) :
    (parent.join child).result = .ok (parent.resolveAll child) := by
  have hnone : parent.dependencies.any child.lacksName = false := by
    rw [List.any_eq_false]
    intro pair hpair
    obtain ⟨sources, hentry, ha⟩ := mem_dependencies.1 hpair
    rcases h _ hentry pair.2 ha with hknown | ⟨hnamed, hcount⟩
    · simp [lacksName, hknown]
    · simp [lacksName, hnamed, hcount]
  simp [join, hnone]

/-- An empty request joins to what is below. -/
theorem result_join_of_isEmpty {parent : LineageMap} (h : parent.isEmpty = true)
    (child : LineageMap) : (parent.join child).result = .ok child := by
  have hentries := OrderedMap.isEmpty_iff.1 h
  rw [result_join_of_resolvable, resolveAll_of_isEmpty h]
  intro entry hentry
  rw [hentries] at hentry
  cases hentry

end LineageMap

end ColumnTrace
