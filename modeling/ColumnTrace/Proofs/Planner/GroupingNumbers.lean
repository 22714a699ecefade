import ColumnTrace.Planner.Grouping
import ColumnTrace.Proofs.Representatives
import Mathlib.Data.List.Sublists
import Mathlib.Data.Nat.Bitwise

/-!
# The numbers of grouping sets

A grouping set is numbered by the columns that it lacks, the first column's bit the highest. So the
row of an expansion is known from its number (`groupingRow_eq_numberedRow`). Columns that every set
has leave the number as it is; over the others a rollup counts through the numbers below the powers
of two (`map_groupingMask_rollupSets`), and a cube through all numbers, each once
(`map_groupingMask_cubeSets`).
-/

set_option autoImplicit false

namespace ColumnTrace

/-- The row of an expansion for the set of this number: the columns of the input, then each grouping
column, or `NULL` where its bit is set in the number, the first column's bit the highest, and at the
end the number. -/
def numberedRow (input columns : List Attribute) (mask : Nat) : List Expr :=
  input.map Expr.column ++
    (columns.zipIdx.map fun place =>
      if mask.testBit (columns.length - 1 - place.2) then Expr.literal "NULL"
      else .column place.1) ++
    [.literal (Text.writeNat mask)]

/-- A row has an entry for each column of the input, for each grouping column and for the number. -/
@[simp]
theorem length_numberedRow (input columns : List Attribute) (mask : Nat) :
    (numberedRow input columns mask).length = input.length + columns.length + 1 := by
  simp [numberedRow, Nat.add_assoc]

/-! ## One set -/

section
variable {members : AttributeSet}

/-- One more column doubles the number and adds one where the set leaves the column out. -/
theorem groupingMask_append_singleton (columns : List Attribute) (c : Attribute) :
    groupingMask (columns ++ [c]) members =
      2 * groupingMask columns members + if members.contains c then 0 else 1 := by
  rw [groupingMask, List.foldl_append]
  rfl

/-- Bits that are read later stand below those read before. -/
theorem foldl_groupingMask (columns : List Attribute) (mask : Nat) :
    columns.foldl (fun mask c => 2 * mask + if members.contains c then 0 else 1) mask =
      mask * 2 ^ columns.length + groupingMask columns members := by
  -- from the end, where the next bit is read
  induction columns using List.reverseRecOn with
  | nil => simp [groupingMask]
  | append_singleton earlier c ih =>
    rw [List.foldl_append, ih, groupingMask_append_singleton, List.length_append]
    simp only [List.foldl_cons, List.foldl_nil, List.length_singleton]
    rw [Nat.mul_add, Nat.add_assoc, pow_succ, Nat.mul_left_comm, Nat.mul_comm 2 (2 ^ _)]

/-- The numbers of two lists of columns are put together as digits. -/
theorem groupingMask_append (columns more : List Attribute) :
    groupingMask (columns ++ more) members =
      groupingMask columns members * 2 ^ more.length + groupingMask more members := by
  rw [groupingMask, List.foldl_append, foldl_groupingMask]
  rfl

/-- A column that the set has leaves its bit unset, any other one sets it. -/
theorem testBit_groupingMask {columns : List Attribute} {place : Nat} {c : Attribute}
    (hc : columns[place]? = some c) :
    (groupingMask columns members).testBit (columns.length - 1 - place) = !members.contains c := by
  have hplace : place < columns.length := (List.getElem?_eq_some_iff.1 hc).1
  induction columns using List.reverseRecOn with
  | nil => cases hc
  | append_singleton earlier last ih =>
    rw [groupingMask_append_singleton, List.length_append, List.length_singleton]
    by_cases hlast : place = earlier.length
    · subst hlast
      obtain rfl : last = c := by simpa using hc
      have hzero : earlier.length + 1 - 1 - earlier.length = 0 := by omega
      rw [hzero, Nat.testBit_zero]
      cases members.contains last <;> simp
    · have hlt : place < earlier.length := by
        rw [List.length_append, List.length_singleton] at hplace
        omega
      have hnext : earlier.length + 1 - 1 - place = earlier.length - 1 - place + 1 := by omega
      have hhalf : (2 * groupingMask earlier members + if members.contains last then 0 else 1) / 2 =
          groupingMask earlier members := by split <;> omega
      rw [hnext, Nat.testBit_succ, hhalf]
      rw [List.getElem?_append_left hlt] at hc
      exact ih hc hlt

/-- The row of a set is the row of its number. -/
theorem groupingRow_eq_numberedRow (input columns : List Attribute) :
    groupingRow input columns members =
      numberedRow input columns (groupingMask columns members) := by
  have hcells : (columns.map fun c => if members.contains c then Expr.column c
      else .literal "NULL") = columns.zipIdx.map fun place =>
        if (groupingMask columns members).testBit (columns.length - 1 - place.2)
        then Expr.literal "NULL" else .column place.1 := by
    have hfst : columns = columns.zipIdx.map Prod.fst := by simp
    conv_lhs => rw [hfst, List.map_map]
    refine List.map_congr_left fun place hplace => ?_
    have hget : columns[place.2]? = some place.1 := by
      simpa [List.mem_zipIdx_iff_getElem?] using hplace
    rw [testBit_groupingMask hget, Function.comp_apply]
    cases members.contains place.1 <;> simp
  rw [groupingRow, hcells, numberedRow]

/-- A set with all columns has the number zero. -/
theorem groupingMask_eq_zero {columns : List Attribute}
    (h : ∀ c ∈ columns, members.contains c = true) : groupingMask columns members = 0 := by
  induction columns using List.reverseRecOn with
  | nil => rfl
  | append_singleton earlier last ih =>
    rw [groupingMask_append_singleton, ih fun c hc => h c (List.mem_append_left _ hc),
      h last (by simp)]
    rfl

/-- A set without any of the columns has the greatest number. -/
theorem groupingMask_of_absent {columns : List Attribute}
    (h : ∀ c ∈ columns, members.contains c = false) :
    groupingMask columns members = 2 ^ columns.length - 1 := by
  induction columns using List.reverseRecOn with
  | nil => rfl
  | append_singleton earlier last ih =>
    rw [groupingMask_append_singleton, ih fun c hc => h c (List.mem_append_left _ hc),
      h last (by simp), List.length_append, List.length_singleton, pow_succ]
    have hpos : 0 < 2 ^ earlier.length := Nat.two_pow_pos earlier.length
    rw [if_neg Bool.false_ne_true]
    omega

/-- The number depends on which of the columns are in the set. -/
theorem groupingMask_congr {columns : List Attribute} {others : AttributeSet}
    (h : ∀ c ∈ columns, members.contains c = others.contains c) :
    groupingMask columns members = groupingMask columns others := by
  induction columns using List.reverseRecOn with
  | nil => rfl
  | append_singleton earlier last ih =>
    rw [groupingMask_append_singleton, groupingMask_append_singleton,
      ih fun c hc => h c (List.mem_append_left _ hc), h last (by simp)]

end

/-! ## The sets of a clause -/

/-- The set of a list contains a column if the list has its identity. -/
theorem AttributeSet.contains_ofList_iff {attrs : List Attribute} {a : Attribute} :
    (ofList attrs).contains a = true ↔ a.id ∈ attrs.map Attribute.id := by
  have hids : a.id ∈ (empty.insertAll attrs).attrs.map Attribute.id ↔
      a.id ∈ empty.attrs.map Attribute.id ∨ a.id ∈ attrs.map Attribute.id := mem_ids_insertAll
  rw [contains, hasId, List.any_eq_true, ofList]
  simpa [empty] using hids

section
variable {rolled : List Attribute}

/-- Columns that every set has set no bits. -/
theorem groupingMask_of_kept {kept : List Attribute}
    (hids : ((kept ++ rolled).map Attribute.id).Nodup) (choice : List Attribute) :
    groupingMask (kept ++ rolled) (.ofList (kept ++ choice)) =
      groupingMask rolled (.ofList choice) := by
  have hkept : groupingMask kept (.ofList (kept ++ choice)) = 0 := by
    refine groupingMask_eq_zero fun c hc => AttributeSet.contains_ofList_iff.2 ?_
    exact List.mem_map_of_mem (List.mem_append_left choice hc)
  rw [groupingMask_append, hkept, Nat.zero_mul, Nat.zero_add]
  refine groupingMask_congr fun c hc => ?_
  rw [Bool.eq_iff_iff, AttributeSet.contains_ofList_iff, AttributeSet.contains_ofList_iff,
    List.map_append, List.mem_append, or_iff_right]
  rw [List.map_append, List.nodup_append] at hids
  exact fun hmem => hids.2.2 _ hmem _ (List.mem_map_of_mem hc) rfl

/-- A rollup gives all columns first and one less each time, so its numbers are those below the
powers of two. -/
theorem map_groupingMask_rollupSets (hids : (rolled.map Attribute.id).Nodup) :
    (Sql.rollupSets rolled).map (fun choice => groupingMask rolled (.ofList choice)) =
      (List.range (rolled.length + 1)).map fun j => 2 ^ j - 1 := by
  have htake : ∀ n, groupingMask rolled (.ofList (rolled.take n)) =
      2 ^ (rolled.length - n) - 1 := by
    intro n
    have hsplit : rolled.take n ++ rolled.drop n = rolled := List.take_append_drop n rolled
    have hdisjoint := hids
    rw [← hsplit, List.map_append, List.nodup_append] at hdisjoint
    have hpresent : groupingMask (rolled.take n) (.ofList (rolled.take n)) = 0 :=
      groupingMask_eq_zero fun c hc =>
        AttributeSet.contains_ofList_iff.2 (List.mem_map_of_mem hc)
    have habsent : groupingMask (rolled.drop n) (.ofList (rolled.take n)) =
        2 ^ (rolled.drop n).length - 1 := by
      refine groupingMask_of_absent fun c hc => Bool.eq_false_iff.2 fun hmem => ?_
      rw [AttributeSet.contains_ofList_iff] at hmem
      exact hdisjoint.2.2 _ hmem _ (List.mem_map_of_mem hc) rfl
    calc groupingMask rolled (.ofList (rolled.take n))
        = groupingMask (rolled.take n ++ rolled.drop n) (.ofList (rolled.take n)) := by rw [hsplit]
      _ = 2 ^ (rolled.length - n) - 1 := by
        rw [groupingMask_append, hpresent, habsent, Nat.zero_mul, Nat.zero_add, List.length_drop]
  rw [Sql.rollupSets, List.map_map]
  refine List.ext_getElem (by simp) fun i hi _ => ?_
  simp only [List.length_map, List.length_reverse, List.length_range] at hi
  simp only [List.getElem_map, List.getElem_reverse, List.getElem_range, List.length_range,
    Function.comp_apply, htake]
  congr 2
  omega

/-- The choices of some length are, in another order, the parts of the list of that length. -/
theorem choices_perm_sublistsLen {α : Type} (xs : List α) :
    ∀ n, (Sql.choices n xs).Perm (xs.sublistsLen n) := by
  induction xs with
  | nil =>
    intro n
    cases n <;> simp [Sql.choices]
  | cons x rest ih =>
    intro n
    cases n with
    | zero => simp [Sql.choices]
    | succ n =>
      rw [Sql.choices, List.sublistsLen_succ_cons]
      exact (((ih n).map _).append (ih (n + 1))).trans List.perm_append_comm

/-- The sets of a cube are, in another order, all parts of the list of columns. -/
theorem cubeSets_perm_sublists' {α : Type} (xs : List α) :
    (Sql.cubeSets xs).Perm xs.sublists' := by
  have hchoices : (Sql.cubeSets xs).Perm
      ((List.range (xs.length + 1)).flatMap fun n => xs.sublistsLen n) :=
    (List.reverse_perm _).flatMap fun n _ => choices_perm_sublistsLen xs n
  exact hchoices.trans (List.range_bind_sublistsLen_perm xs)

/-- All parts of the columns have all numbers: those with the first column have the numbers of the
parts of the others, those without it the same with the highest bit set. -/
theorem map_groupingMask_sublists' (hids : (rolled.map Attribute.id).Nodup) :
    (rolled.sublists'.map fun choice => groupingMask rolled (.ofList choice)).Perm
      (List.range (2 ^ rolled.length)) := by
  induction rolled with
  | nil => decide
  | cons c rest ih =>
    rw [List.map_cons, List.nodup_cons] at hids
    -- the first column has the highest bit, set where a part leaves it out
    have hfirst : ∀ members : AttributeSet, groupingMask (c :: rest) members =
        (if members.contains c then 0 else 1) * 2 ^ rest.length + groupingMask rest members := by
      intro members
      rw [← List.singleton_append, groupingMask_append]
      simp [groupingMask]
    have hwithout : ∀ choice ∈ rest.sublists', groupingMask (c :: rest) (.ofList choice) =
        2 ^ rest.length + groupingMask rest (.ofList choice) := by
      intro choice hchoice
      have habsent : (AttributeSet.ofList choice).contains c = false := by
        refine Bool.eq_false_iff.2 fun hmem => hids.1 ?_
        rw [AttributeSet.contains_ofList_iff] at hmem
        exact ((List.mem_sublists'.1 hchoice).map Attribute.id).subset hmem
      rw [hfirst, habsent, if_neg Bool.false_ne_true, Nat.one_mul]
    have hwith : ∀ choice, groupingMask (c :: rest) (.ofList (c :: choice)) =
        groupingMask rest (.ofList choice) := by
      intro choice
      have hpresent : (AttributeSet.ofList (c :: choice)).contains c = true :=
        AttributeSet.contains_ofList_iff.2 List.mem_cons_self
      rw [hfirst, hpresent, if_pos rfl, Nat.zero_mul, Nat.zero_add]
      refine groupingMask_congr fun d hd => ?_
      rw [Bool.eq_iff_iff, AttributeSet.contains_ofList_iff, AttributeSet.contains_ofList_iff,
        List.map_cons, List.mem_cons, or_iff_right]
      exact fun hid => hids.1 (hid ▸ List.mem_map_of_mem hd)
    have hrange : List.range (2 ^ (c :: rest).length) =
        List.range (2 ^ rest.length) ++
          (List.range (2 ^ rest.length)).map (2 ^ rest.length + ·) := by
      rw [List.length_cons, pow_succ, Nat.mul_two, List.range_add]
    rw [List.sublists'_cons, List.map_append, List.map_congr_left hwithout, List.map_map, hrange]
    have hhigh := (ih hids.2).map (2 ^ rest.length + ·)
    have hlow : (rest.sublists'.map ((fun choice => groupingMask (c :: rest) (.ofList choice)) ∘
        List.cons c)).Perm (List.range (2 ^ rest.length)) := by
      have hcongr : rest.sublists'.map ((fun choice => groupingMask (c :: rest)
          (.ofList choice)) ∘ List.cons c) =
          rest.sublists'.map fun choice => groupingMask rest (.ofList choice) :=
        List.map_congr_left fun choice _ => hwith choice
      rw [hcongr]
      exact ih hids.2
    rw [List.map_map] at hhigh
    exact List.perm_append_comm.trans (hlow.append hhigh)

/-- A cube gives each number below the power of two once. -/
theorem map_groupingMask_cubeSets (hids : (rolled.map Attribute.id).Nodup) :
    ((Sql.cubeSets rolled).map fun choice => groupingMask rolled (.ofList choice)).Perm
      (List.range (2 ^ rolled.length)) :=
  ((cubeSets_perm_sublists' rolled).map _).trans (map_groupingMask_sublists' hids)

end

end ColumnTrace
