import Mathlib.Data.List.Basic
import Mathlib.Data.List.Induction

/-!
# Members in order of first appearance

`List.eraseDups` keeps of each member of a list its first appearance. What it gives is told by
`FirstSeen`: no repetition, the same members, and one before another if it appears first
(`firstSeen_eraseDups`). A list from which repetitions are taken off can stand for the whole list as
part of a longer one (`eraseDups_eraseDups_append`, `eraseDups_append_eraseDups`) and where each
member is exchanged for several (`eraseDups_flatMap_eraseDups`): in the end the same is left.
-/

set_option autoImplicit false

namespace ColumnTrace

universe u v

variable {α : Type u} {β : Type v} [BEq α] [LawfulBEq α]

/-- Nothing appears twice. -/
theorem nodup_eraseDups (xs : List α) : xs.eraseDups.Nodup := by
  -- on the length, since the rest is filtered before it is looked through
  induction hlength : xs.length using Nat.strongRecOn generalizing xs with
  | _ length ih =>
    cases xs with
    | nil => exact List.nodup_nil
    | cons x rest =>
      have hshort : (rest.filter fun y => !y == x).length < length := by
        have := List.length_filter_le (fun y => !y == x) rest
        rw [← hlength, List.length_cons]
        omega
      rw [List.eraseDups_cons, List.nodup_cons, List.mem_eraseDups]
      exact ⟨by simp, ih _ hshort _ rfl⟩

theorem eraseDups_ne_nil {xs : List α} (h : xs ≠ []) : xs.eraseDups ≠ [] := by
  obtain ⟨x, hx⟩ := List.exists_mem_of_ne_nil xs h
  exact List.ne_nil_of_mem (List.mem_eraseDups.2 hx)

/-- A list without repetition is left as it is. -/
theorem eraseDups_of_nodup {xs : List α} (h : xs.Nodup) : xs.eraseDups = xs := by
  induction xs with
  | nil => rfl
  | cons x rest ih =>
    rw [List.nodup_cons] at h
    have hrest : (rest.filter fun y => !y == x) = rest := by
      rw [List.filter_eq_self]
      intro y hy
      have hne : y ≠ x := fun e => h.1 (e ▸ hy)
      simpa using hne
    rw [List.eraseDups_cons, hrest, ih h.2]

/-- One more element comes last, unless it has appeared. -/
theorem eraseDups_append_singleton (xs : List α) (x : α) :
    (xs ++ [x]).eraseDups = if x ∈ xs then xs.eraseDups else xs.eraseDups ++ [x] := by
  rw [List.eraseDups_append]
  by_cases hx : x ∈ xs <;> simp [List.removeAll, List.eraseDups_cons, hx]

/-- The first appearances are in the order of the list. -/
theorem eraseDups_sublist (xs : List α) : xs.eraseDups.Sublist xs := by
  induction xs using List.reverseRecOn with
  | nil => exact List.Sublist.refl _
  | append_singleton xs x ih =>
    rw [eraseDups_append_singleton]
    split
    · exact ih.trans (List.sublist_append_left xs [x])
    · exact ih.append_right [x]

/-! ## Parts of a list -/

/-- What has appeared already changes nothing. -/
theorem eraseDups_append_of_subset {xs ys : List α} (h : ys ⊆ xs) :
    (xs ++ ys).eraseDups = xs.eraseDups := by
  have hnone : ys.removeAll xs = [] := by
    rw [List.removeAll, List.filter_eq_nil_iff]
    intro y hy
    simpa using h hy
  rw [List.eraseDups_append, hnone, List.eraseDups_nil, List.append_nil]

/-- Repetitions may be left out of the second part before. -/
theorem eraseDups_append_eraseDups (xs ys : List α) :
    (xs ++ ys.eraseDups).eraseDups = (xs ++ ys).eraseDups := by
  induction ys using List.reverseRecOn with
  | nil => rfl
  | append_singleton ys y ih =>
    rw [eraseDups_append_singleton, ← List.append_assoc, eraseDups_append_singleton]
    by_cases hy : y ∈ ys
    · rw [if_pos hy, ih, if_pos (List.mem_append_right xs hy)]
    · have hmem : y ∈ xs ++ ys.eraseDups ↔ y ∈ xs ++ ys := by simp
      rw [if_neg hy, ← List.append_assoc, eraseDups_append_singleton, ih]
      exact if_congr hmem rfl rfl

/-- Repetitions may be left out of the first part before. -/
theorem eraseDups_eraseDups_append (xs ys : List α) :
    (xs.eraseDups ++ ys).eraseDups = (xs ++ ys).eraseDups := by
  induction ys using List.reverseRecOn with
  | nil => rw [List.append_nil, List.append_nil, eraseDups_of_nodup (nodup_eraseDups xs)]
  | append_singleton ys y ih =>
    have hmem : y ∈ xs.eraseDups ++ ys ↔ y ∈ xs ++ ys := by simp
    rw [← List.append_assoc, ← List.append_assoc, eraseDups_append_singleton,
      eraseDups_append_singleton, ih]
    exact if_congr hmem rfl rfl

/-- Lists that leave the same leave the same with more behind them. -/
theorem eraseDups_append_congr {xs ys : List α} (h : xs.eraseDups = ys.eraseDups) (zs : List α) :
    (xs ++ zs).eraseDups = (ys ++ zs).eraseDups := by
  rw [← eraseDups_eraseDups_append, h, eraseDups_eraseDups_append]

/-! ## Members that are exchanged -/

/-- What repeated members are exchanged for comes in with their first appearance. -/
theorem eraseDups_flatMap_eraseDups [BEq β] [LawfulBEq β] (f : α → List β) (xs : List α) :
    (xs.eraseDups.flatMap f).eraseDups = (xs.flatMap f).eraseDups := by
  induction xs using List.reverseRecOn with
  | nil => rfl
  | append_singleton xs x ih =>
    rw [eraseDups_append_singleton, List.flatMap_append]
    split
    · next hx =>
      have hsubset : [x].flatMap f ⊆ xs.flatMap f := by
        intro y hy
        rw [List.flatMap_singleton] at hy
        exact List.mem_flatMap.2 ⟨x, hx, hy⟩
      rw [ih, eraseDups_append_of_subset hsubset]
    · rw [List.flatMap_append]
      exact eraseDups_append_congr ih ([x].flatMap f)

/-- Repetitions within the parts of a list are among those of the list. -/
theorem eraseDups_flatMap_of_parts (f : β → List α) (xs : List β) :
    (xs.flatMap fun x => (f x).eraseDups).eraseDups = (xs.flatMap f).eraseDups := by
  induction xs using List.reverseRecOn with
  | nil => rfl
  | append_singleton xs x ih =>
    simp only [List.flatMap_append, List.flatMap_singleton]
    rw [eraseDups_append_eraseDups]
    exact eraseDups_append_congr ih (f x)

/-! ## The order -/

/-- The second list has the members of the first, each once, in the order in which they first appear
there. -/
structure FirstSeen (xs ys : List α) : Prop where
  nodup : ys.Nodup
  mem_iff : ∀ x, x ∈ ys ↔ x ∈ xs
  inOrder : ys.Pairwise fun x y => xs.idxOf x < xs.idxOf y

omit [LawfulBEq α] in
/-- The members and their order tell the list. -/
theorem FirstSeen.eq {xs ys zs : List α} (hys : FirstSeen xs ys) (hzs : FirstSeen xs zs) :
    ys = zs := by
  refine List.Perm.eq_of_pairwise (fun y z _ _ hlt hgt => ?_) hys.inOrder hzs.inOrder ?_
  · exact absurd hgt (Nat.lt_asymm hlt)
  · rw [List.perm_ext_iff_of_nodup hys.nodup hzs.nodup]
    intro x
    rw [hys.mem_iff, hzs.mem_iff]

/-- The list without repetition is that of first appearances. -/
theorem firstSeen_eraseDups (xs : List α) : FirstSeen xs xs.eraseDups where
  nodup := nodup_eraseDups xs
  mem_iff _ := List.mem_eraseDups
  inOrder := by
    induction xs using List.reverseRecOn with
    | nil => exact List.Pairwise.nil
    | append_singleton xs x ih =>
      have hold : xs.eraseDups.Pairwise fun y z =>
          (xs ++ [x]).idxOf y < (xs ++ [x]).idxOf z := by
        refine List.Pairwise.imp_of_mem (fun {y z} hy hz hlt => ?_) ih
        rwa [List.idxOf_append_of_mem (List.mem_eraseDups.1 hy),
          List.idxOf_append_of_mem (List.mem_eraseDups.1 hz)]
      rw [eraseDups_append_singleton]
      split
      · exact hold
      · next hx =>
        refine List.pairwise_append.2 ⟨hold, List.pairwise_singleton _ _, ?_⟩
        intro y hy z hz
        rw [List.mem_singleton.1 hz, List.idxOf_append_of_mem (List.mem_eraseDups.1 hy),
          List.idxOf_append_of_notMem hx]
        exact Nat.lt_add_right _ (List.idxOf_lt_length_of_mem (List.mem_eraseDups.1 hy))

end ColumnTrace
