import ColumnTrace.Proofs.Lineage.MapSources
import ColumnTrace.Proofs.Unions

/-!
# Maps that are merged

The answers of several children are merged from left to right into one. A map is told by its keys in
order and by the sources of each (`ext_sourcesOf`), keys of the left map come first, sources of the
right map come first (`keys_merge`, `sourcesOf_merge`). Both orders are kept however the maps are
grouped, and so is the attribute that represents an identity among the sources of a column:
`merge_independentOfGrouping`.
-/

set_option autoImplicit false

namespace ColumnTrace

namespace LineageMap

/-- A map is told by its keys in order and by the sources of each. -/
theorem ext_sourcesOf {m n : LineageMap} (hkeys : m.keys = n.keys)
    (hsources : ∀ key, m.sourcesOf key = n.sourcesOf key) : m = n := by
  apply OrderedMap.ext
  rw [entries_eq_map_keys m, entries_eq_map_keys n, hkeys]
  exact List.map_congr_left fun key _ => congrArg (Prod.mk key) (hsources key)

/-- Maps may be merged in any grouping. -/
theorem merge_assoc (a b c : LineageMap) : (a.merge b).merge c = a.merge (b.merge c) := by
  apply ext_sourcesOf
  · rw [keys_merge, keys_merge, eraseDups_eraseDups_append, keys_merge, keys_merge,
      eraseDups_append_eraseDups, List.append_assoc]
  · intro key
    rw [sourcesOf_merge, sourcesOf_merge, sourcesOf_merge, sourcesOf_merge,
      AttributeSet.union_assoc]

@[simp]
theorem merge_empty_right (m : LineageMap) : m.merge ∅ = m := rfl

/-- A map adds nothing to itself. -/
@[simp]
theorem merge_self (m : LineageMap) : m.merge m = m := by
  apply ext_sourcesOf
  · exact keys_merge_of_keys_eq rfl
  · intro key
    rw [sourcesOf_merge, AttributeSet.union_self]

/-- Merging one map after the other into a map merges all of them into it at once. -/
theorem foldl_merge (start : LineageMap) (maps : List LineageMap) :
    maps.foldl merge start = start.merge (mergeAll maps) := by
  induction maps using List.reverseRecOn with
  | nil => exact (merge_empty_right start).symm
  | append_singleton maps m ih =>
    have hlast : mergeAll (maps ++ [m]) = (mergeAll maps).merge m := List.foldl_append
    rw [List.foldl_append, ih, hlast, ← merge_assoc]
    rfl

/-- It does not matter how maps are grouped when they are merged: neither for the order of the keys,
nor for the order of a column's sources, nor for the attribute that represents an identity there. -/
theorem merge_independentOfGrouping :
    (∀ a b c : LineageMap, (a.merge b).merge c = a.merge (b.merge c)) ∧
    (∀ m : LineageMap, merge ∅ m = m ∧ m.merge ∅ = m) ∧
    (∀ m : LineageMap, m.merge m = m) ∧
    ∀ xs ys : List LineageMap, mergeAll (xs ++ ys) = (mergeAll xs).merge (mergeAll ys) := by
  refine ⟨merge_assoc, fun m => ⟨merge_empty_left m, merge_empty_right m⟩, merge_self, ?_⟩
  intro xs ys
  rw [mergeAll, List.foldl_append]
  exact foldl_merge (mergeAll xs) ys

end LineageMap

end ColumnTrace
