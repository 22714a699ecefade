import ColumnTrace.OrderedMap
import ColumnTrace.Proofs.FirstAppearances

/-!
# Entries of a map in order of insertion

A map is read off its entries: looking up a key finds the value that stands beside it
(`get?_eq_some_iff`), the map of a list without repeated keys has that list as its entries
(`entries_ofList_of_nodup`), and a map is put together again from its own entries
(`ofList_entries`).
-/

set_option autoImplicit false

namespace ColumnTrace

universe u v w

variable {κ : Type u} {ν : Type v} {ω : Type w}

/-- In a list without repeated keys a key is looked up to the value beside it. -/
theorem lookup_eq_some_iff_of_nodup [DecidableEq κ] {entries : List (κ × ν)}
    (hnodup : (entries.map Prod.fst).Nodup) {key : κ} {value : ν} :
    entries.lookup key = some value ↔ (key, value) ∈ entries := by
  induction entries with
  | nil => simp
  | cons entry rest ih =>
    obtain ⟨k, v⟩ := entry
    simp only [List.map_cons, List.nodup_cons] at hnodup
    by_cases h : key = k
    · subst h
      have hrest : (key, value) ∉ rest := fun hmem => hnodup.1 (List.mem_map_of_mem hmem)
      simp [hrest, eq_comm]
    · rw [List.lookup_cons, beq_eq_false_iff_ne.2 h]
      simp [h, ih hnodup.2]

/-- A new key comes last. -/
theorem assign_of_not_mem [DecidableEq κ] {key : κ} {entries : List (κ × ν)}
    (h : key ∉ entries.map Prod.fst) (value : ν) :
    assign key value entries = entries ++ [(key, value)] := by
  induction entries with
  | nil => rfl
  | cons entry rest ih =>
    simp only [List.map_cons, List.mem_cons, not_or] at h
    simp [assign, Ne.symm h.1, ih h.2]

/-- Pairing cuts off the longer list only. -/
theorem sublist_map_fst_zip {α : Type u} {β : Type v} :
    ∀ (xs : List α) (ys : List β), ((xs.zip ys).map Prod.fst).Sublist xs
  | [], _ => by simp
  | _ :: _, [] => by simp
  | _ :: xs, _ :: ys => (sublist_map_fst_zip xs ys).cons_cons _

namespace OrderedMap

theorem isEmpty_iff {m : OrderedMap κ ν} : m.isEmpty = true ↔ m.entries = [] :=
  List.isEmpty_iff

theorem isEmpty_eq_false_of_mem {m : OrderedMap κ ν} {entry : κ × ν} (h : entry ∈ m.entries) :
    m.isEmpty = false := by
  rw [isEmpty, List.isEmpty_eq_false_iff]
  exact List.ne_nil_of_mem h

@[simp]
theorem isEmpty_empty : (∅ : OrderedMap κ ν).isEmpty = true := rfl

@[simp]
theorem entries_empty : (∅ : OrderedMap κ ν).entries = [] := rfl

theorem length_keys (m : OrderedMap κ ν) : m.keys.length = m.size := List.length_map _

theorem length_values (m : OrderedMap κ ν) : m.values.length = m.size := List.length_map _

theorem isEmpty_keys (m : OrderedMap κ ν) : m.keys.isEmpty = m.isEmpty :=
  List.isEmpty_map

/-- Maps with the same keys are empty together. -/
theorem isEmpty_eq_of_keys_eq {m : OrderedMap κ ν} {n : OrderedMap κ ω} (h : m.keys = n.keys) :
    m.isEmpty = n.isEmpty := by
  rw [← isEmpty_keys, h, isEmpty_keys]

theorem entries_mapValues (f : κ → ν → ω) (m : OrderedMap κ ν) :
    (m.mapValues f).entries = m.entries.map fun entry => (entry.1, f entry.1 entry.2) := rfl

/-- The key of an entry is a key. -/
theorem key_mem_of_entry_mem {m : OrderedMap κ ν} {entry : κ × ν} (h : entry ∈ m.entries) :
    entry.1 ∈ m.keys :=
  List.mem_map_of_mem h

section
variable [DecidableEq κ]

/-- A key has the value that stands beside it. -/
theorem get?_eq_some_iff {m : OrderedMap κ ν} {key : κ} {value : ν} :
    m.get? key = some value ↔ (key, value) ∈ m.entries :=
  lookup_eq_some_iff_of_nodup m.nodup_keys

/-- An entry is found under its key. -/
theorem get?_of_mem {m : OrderedMap κ ν} {entry : κ × ν} (h : entry ∈ m.entries) :
    m.get? entry.1 = some entry.2 :=
  get?_eq_some_iff.2 h

/-- Nothing is found under what is no key. -/
theorem get?_eq_none_iff {m : OrderedMap κ ν} {key : κ} :
    m.get? key = none ↔ key ∉ m.keys := by
  rw [Option.eq_none_iff_forall_not_mem]
  constructor
  · intro h hmem
    obtain ⟨entry, hentry, rfl⟩ := List.mem_map.1 hmem
    exact h entry.2 (get?_of_mem hentry)
  · intro h value hvalue
    exact h (key_mem_of_entry_mem (get?_eq_some_iff.1 hvalue))

theorem insertAll_cons (m : OrderedMap κ ν) (pair : κ × ν) (pairs : List (κ × ν)) :
    m.insertAll (pair :: pairs) = (m.insert pair.1 pair.2).insertAll pairs := rfl

theorem eraseDups_keys (m : OrderedMap κ ν) : m.keys.eraseDups = m.keys :=
  eraseDups_of_nodup m.nodup_keys

/-- Keys that came in one after the other, with one more. -/
theorem keys_insert_of_eraseDups {m : OrderedMap κ ν} {inserted : List κ}
    (h : m.keys = inserted.eraseDups) (key : κ) (value : ν) :
    (m.insert key value).keys = (inserted ++ [key]).eraseDups := by
  rw [keys_insert, h, eraseDups_append_singleton]
  simp only [List.mem_eraseDups]

/-- After insertions under keys that do not repeat, an inserted key has its new value and any other
key the old one. -/
theorem get?_insertAll_of_nodup (m : OrderedMap κ ν) {pairs : List (κ × ν)}
    (hnodup : (pairs.map Prod.fst).Nodup) (key : κ) :
    (m.insertAll pairs).get? key = (pairs.lookup key).or (m.get? key) := by
  induction pairs generalizing m with
  | nil => simp [insertAll]
  | cons pair rest ih =>
    obtain ⟨k, v⟩ := pair
    simp only [List.map_cons, List.nodup_cons] at hnodup
    rw [insertAll_cons, ih (m.insert k v) hnodup.2, get?_insert]
    by_cases h : key = k
    · subst h
      have hrest : rest.lookup key = none := by
        rw [List.lookup_eq_none_iff]
        intro entry hentry
        have hne : key ≠ entry.1 := fun e => hnodup.1 (e ▸ List.mem_map_of_mem hentry)
        exact bne_iff_ne.2 hne
      simp [hrest]
    · rw [List.lookup_cons, beq_eq_false_iff_ne.2 h, if_neg h]

/-- The keys are the old ones and after them the new ones, in order of first appearance. -/
theorem keys_insertAll (m : OrderedMap κ ν) (pairs : List (κ × ν)) :
    (m.insertAll pairs).keys = (m.keys ++ pairs.map Prod.fst).eraseDups := by
  induction pairs generalizing m with
  | nil =>
    rw [List.map_nil, List.append_nil, eraseDups_keys]
    rfl
  | cons pair rest ih =>
    rw [insertAll_cons, ih, keys_insert_of_eraseDups m.eraseDups_keys.symm pair.1 pair.2,
      eraseDups_eraseDups_append, List.append_assoc, List.map_cons, List.singleton_append]

/-- The keys are those from before and those that were added. -/
theorem mem_keys_insertAll {m : OrderedMap κ ν} {pairs : List (κ × ν)} {key : κ} :
    key ∈ (m.insertAll pairs).keys ↔ key ∈ m.keys ∨ key ∈ pairs.map Prod.fst := by
  rw [keys_insertAll, List.mem_eraseDups, List.mem_append]

/-- Keys that are added come after those that were there. -/
theorem keys_insertAll_sublist (m : OrderedMap κ ν) (pairs : List (κ × ν)) :
    (m.insertAll pairs).keys.Sublist (m.keys ++ pairs.map Prod.fst) := by
  rw [keys_insertAll]
  exact eraseDups_sublist _

/-- The keys of a map come in the order of its list. -/
theorem keys_ofList_sublist (pairs : List (κ × ν)) :
    (ofList pairs).keys.Sublist (pairs.map Prod.fst) :=
  keys_insertAll_sublist empty pairs

/-- Pairs whose keys are new and do not repeat are put at the end. -/
theorem entries_insertAll_of_nodup {m : OrderedMap κ ν} {pairs : List (κ × ν)}
    (h : ((m.entries ++ pairs).map Prod.fst).Nodup) :
    (m.insertAll pairs).entries = m.entries ++ pairs := by
  induction pairs generalizing m with
  | nil => simp [insertAll]
  | cons pair rest ih =>
    have hfresh : pair.1 ∉ m.entries.map Prod.fst := by
      intro hmem
      rw [List.map_append, List.nodup_append] at h
      exact h.2.2 _ hmem _ (by simp) rfl
    have hentries : (m.insert pair.1 pair.2).entries = m.entries ++ [pair] :=
      assign_of_not_mem hfresh pair.2
    have hrest : (((m.insert pair.1 pair.2).entries ++ rest).map Prod.fst).Nodup := by
      rw [hentries]
      simpa using h
    rw [insertAll_cons, ih hrest, hentries, List.append_assoc, List.singleton_append]

/-- A list without repeated keys is the list of entries of its map. -/
theorem entries_ofList_of_nodup {pairs : List (κ × ν)} (h : (pairs.map Prod.fst).Nodup) :
    (ofList pairs).entries = pairs :=
  entries_insertAll_of_nodup (m := empty) h

/-- Pairs with keys of their own make a map with these keys. -/
theorem keys_ofList_of_nodup {pairs : List (κ × ν)} (h : (pairs.map Prod.fst).Nodup) :
    (ofList pairs).keys = pairs.map Prod.fst := by
  rw [keys, entries_ofList_of_nodup h]

/-- Keys that are paired with enough values are all there. -/
theorem keys_ofList_zip {keys : List κ} {values : List ν} (hnodup : keys.Nodup)
    (hlength : keys.length ≤ values.length) : (ofList (keys.zip values)).keys = keys := by
  have hfst : (keys.zip values).map Prod.fst = keys := List.map_fst_zip hlength
  rw [keys_ofList_of_nodup (hfst.symm ▸ hnodup), hfst]

/-- Keys that do not repeat, each with the value at its place, as far as there are values. -/
theorem entries_ofList_zip {keys : List κ} (hnodup : keys.Nodup) (values : List ν) :
    (ofList (keys.zip values)).entries = keys.zip values :=
  entries_ofList_of_nodup (hnodup.sublist (sublist_map_fst_zip keys values))

@[simp]
theorem ofList_entries (m : OrderedMap κ ν) : ofList m.entries = m :=
  ext (entries_ofList_of_nodup m.nodup_keys)

/-- An entry was there or was added. -/
theorem mem_of_mem_insertAll {m : OrderedMap κ ν} {pairs : List (κ × ν)} {entry : κ × ν}
    (h : entry ∈ (m.insertAll pairs).entries) : entry ∈ m.entries ∨ entry ∈ pairs := by
  induction pairs generalizing m with
  | nil => exact Or.inl h
  | cons pair rest ih =>
    rw [insertAll_cons] at h
    rcases ih h with hinsert | hrest
    · obtain ⟨key, value⟩ := entry
      have hget := get?_eq_some_iff.2 hinsert
      rw [get?_insert] at hget
      split at hget
      · next hkey =>
        cases hget
        exact Or.inr (by rw [hkey]; exact List.mem_cons_self)
      · exact Or.inl (get?_eq_some_iff.1 hget)
    · exact Or.inr (List.mem_cons_of_mem pair hrest)

/-- An entry of the map of a list stands in the list. -/
theorem mem_of_mem_ofList {pairs : List (κ × ν)} {entry : κ × ν}
    (h : entry ∈ (ofList pairs).entries) : entry ∈ pairs :=
  (mem_of_mem_insertAll h).resolve_left List.not_mem_nil

/-- The keys of the map of a list are those of the list. -/
theorem mem_keys_ofList {pairs : List (κ × ν)} {key : κ} :
    key ∈ (ofList pairs).keys ↔ key ∈ pairs.map Prod.fst := by
  have h : key ∈ (empty.insertAll pairs : OrderedMap κ ν).keys ↔
      key ∈ (empty : OrderedMap κ ν).keys ∨ key ∈ pairs.map Prod.fst := mem_keys_insertAll
  simpa [ofList, keys, empty] using h

/-- Where pairs with the same key are the same, all of them are entries of their map. -/
theorem mem_entries_ofList_iff {pairs : List (κ × ν)}
    (h : ∀ pair ∈ pairs, ∀ other ∈ pairs, pair.1 = other.1 → pair = other) {entry : κ × ν} :
    entry ∈ (ofList pairs).entries ↔ entry ∈ pairs := by
  refine ⟨mem_of_mem_ofList, fun hentry => ?_⟩
  obtain ⟨other, hother, hkey⟩ := List.mem_map.1
    (mem_keys_ofList.2 (List.mem_map_of_mem hentry))
  rwa [h entry hentry other (mem_of_mem_ofList hother) hkey.symm]

end

end OrderedMap

end ColumnTrace
