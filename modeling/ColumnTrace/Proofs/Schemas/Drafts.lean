import ColumnTrace.Proofs.MapEntries
import ColumnTrace.Schema.Rows
import Mathlib.Data.List.Basic
import Mathlib.Data.List.Induction

/-!
# What rows leave in a draft

The rows of a schema make a draft, one row after the other. A row writes one entry under two names:
the database and the table or, where it has no database, the table and the column. `Holds.step` says
what one row does to the draft and `Holds.of_addAll` what all of them leave there. Rows are refused
only where a name is one of a database and one of a table without a database (`exists_addAll`).
-/

set_option autoImplicit false

namespace ColumnTrace

/-! ## The names of a row -/

namespace SchemaRow

/-- The name at the top under which a row is kept. -/
def outer (row : SchemaRow) : String := if row.database = "" then row.table else row.database

/-- The name that stands under it. -/
def inner (row : SchemaRow) : String := if row.database = "" then row.column else row.table

/-- The row is one of a table in a database. -/
def IsOf (row : SchemaRow) (database table : String) : Prop :=
  row.database ≠ "" ∧ row.database = database ∧ row.table = table
deriving Decidable

variable {row : SchemaRow}

theorem outer_of_database (h : row.database ≠ "") : row.outer = row.database := if_neg h

theorem inner_of_database (h : row.database ≠ "") : row.inner = row.table := if_neg h

theorem outer_of_no_database (h : row.database = "") : row.outer = row.table := if_pos h

theorem inner_of_no_database (h : row.database = "") : row.inner = row.column := if_pos h

/-- A row of a table in a database is kept under the database and the table. -/
theorem IsOf.outer_inner {database table : String} (h : row.IsOf database table) :
    row.outer = database ∧ row.inner = table :=
  ⟨(outer_of_database h.1).trans h.2.1, (inner_of_database h.1).trans h.2.2⟩

/-- A row with a database is one of a table in it. -/
theorem isOf_outer_inner (h : row.database ≠ "") : row.IsOf row.outer row.inner :=
  ⟨h, (outer_of_database h).symm, (inner_of_database h).symm⟩

/-- What a row writes under its names in place of what stands there; where it is a row of a
database, no column may stand there. -/
def entry? (row : SchemaRow) (old : Option SchemaEntry) : Option SchemaEntry :=
  if row.database = "" then some (.column row.type) else
    match old with
    | some (.column _) => none
    | some (.table columns) => some (.table (columns.insert row.column row.type))
    | none => some (.table (OrderedMap.empty.insert row.column row.type))

theorem entry?_of_no_database (h : row.database = "") (old : Option SchemaEntry) :
    row.entry? old = some (.column row.type) :=
  if_pos h

theorem entry?_column (h : row.database ≠ "") (type : String) :
    row.entry? (some (.column type)) = none :=
  if_neg h

theorem entry?_table (h : row.database ≠ "") (columns : OrderedMap String String) :
    row.entry? (some (.table columns)) = some (.table (columns.insert row.column row.type)) :=
  if_neg h

theorem entry?_none (h : row.database ≠ "") :
    row.entry? none = some (.table (OrderedMap.empty.insert row.column row.type)) :=
  if_neg h

/-- Only a row without a database writes a column. -/
theorem database_of_entry?_column {old : Option SchemaEntry} {type : String}
    (h : row.entry? old = some (.column type)) : row.database = "" := by
  by_contra hdatabase
  match old with
  | none =>
    rw [entry?_none hdatabase] at h
    cases h
  | some (.column _) =>
    rw [entry?_column hdatabase] at h
    cases h
  | some (.table _) =>
    rw [entry?_table hdatabase] at h
    cases h

/-- Only a row with a database writes a table. -/
theorem database_of_entry?_table {old : Option SchemaEntry} {columns : OrderedMap String String}
    (h : row.entry? old = some (.table columns)) : row.database ≠ "" := by
  intro hempty
  rw [entry?_of_no_database hempty] at h
  cases h

end SchemaRow

/-! ## One row -/

namespace SchemaDraft

variable {draft draft' : SchemaDraft} {rows : List SchemaRow} {row : SchemaRow}

/-- What stands under a name at the top. -/
def under (draft : SchemaDraft) (outer : String) : OrderedMap String SchemaEntry :=
  (draft.get? outer).getD ∅

/-- The draft with an entry under two names. -/
def put (draft : SchemaDraft) (outer inner : String) (entry : SchemaEntry) : SchemaDraft :=
  draft.insert outer ((draft.under outer).insert inner entry)

/-- An entry stands under its own name at the top only. -/
theorem under_put (draft : SchemaDraft) (outer inner : String) (entry : SchemaEntry)
    (other : String) : (draft.put outer inner entry).under other =
      if other = outer then (draft.under outer).insert inner entry else draft.under other := by
  rw [under, put, OrderedMap.get?_insert]
  split <;> rfl

/-- An entry stands under its two names, and leaves all others as they are. -/
theorem get?_under_put (draft : SchemaDraft) (outer inner : String) (entry : SchemaEntry)
    (other name : String) : ((draft.put outer inner entry).under other).get? name =
      if other = outer ∧ name = inner then some entry else (draft.under other).get? name := by
  rw [under_put]
  by_cases houter : other = outer
  · simp only [houter, if_true, OrderedMap.get?_insert, true_and]
  · simp only [houter, if_false, false_and]

/-- A row is refused or writes one entry. -/
theorem add_eq (draft : SchemaDraft) (row : SchemaRow) : draft.add row =
    match row.entry? ((draft.under row.outer).get? row.inner) with
    | some entry => .ok (draft.put row.outer row.inner entry)
    | none => .error ⟨row.database, row.table⟩ := by
  by_cases hdatabase : row.database = ""
  · simp only [add, SchemaRow.entry?, SchemaRow.outer, SchemaRow.inner, if_pos hdatabase]
    rfl
  · simp only [add, SchemaRow.entry?, SchemaRow.outer, SchemaRow.inner, if_neg hdatabase, under]
    rcases ((draft.get? row.database).getD ∅).get? row.table with _ | _ | _ <;> rfl

/-- A row is added by putting what it writes under its names. -/
theorem add_eq_ok_iff : draft.add row = .ok draft' ↔
    ∃ entry, row.entry? ((draft.under row.outer).get? row.inner) = some entry ∧
      draft.put row.outer row.inner entry = draft' := by
  rw [add_eq]
  cases row.entry? ((draft.under row.outer).get? row.inner) <;> simp

/-- One more row is added after the others. -/
theorem addAll_append_singleton (draft : SchemaDraft) (rows : List SchemaRow) (row : SchemaRow) :
    draft.addAll (rows ++ [row]) = (draft.addAll rows).bind (·.add row) := by
  induction rows generalizing draft with
  | nil =>
    rw [List.nil_append, addAll, addAll, Except.bind]
    cases draft.add row <;> rfl
  | cons first rest ih =>
    rw [List.cons_append, addAll, addAll]
    cases draft.add first with
    | error clash => rfl
    | ok next => exact ih next

/-! ## All rows -/

/-- What the rows leave in a draft: under a name at the top, the names that its rows write there, in
the order in which they come; a column only from a row without a database; a table with the columns
that the rows of its database give it. -/
structure Holds (draft : SchemaDraft) (rows : List SchemaRow) : Prop where
  keys : ∀ outer, (draft.under outer).keys =
    ((rows.filter (·.outer = outer)).map SchemaRow.inner).eraseDups
  column : ∀ {outer inner type}, (draft.under outer).get? inner = some (.column type) →
    ∃ row ∈ rows, row.database = "" ∧ row.table = outer
  table : ∀ {outer inner columns}, (draft.under outer).get? inner = some (.table columns) →
    (∃ row ∈ rows, row.IsOf outer inner) ∧
      columns.keys = ((rows.filter (·.IsOf outer inner)).map SchemaRow.column).eraseDups

/-- Under a name at the top stand the names that its rows write there. -/
theorem Holds.mem_keys_iff (h : draft.Holds rows) {outer inner : String} :
    inner ∈ (draft.under outer).keys ↔ ∃ row ∈ rows, row.outer = outer ∧ row.inner = inner := by
  rw [h.keys, List.mem_eraseDups]
  simp [and_assoc]

theorem holds_empty : Holds .empty [] where
  keys _ := rfl
  column h := by cases h
  table h := by cases h

/-- The entry that a row writes holds what it held, and the row. -/
theorem Holds.keys_of_entry? (h : draft.Holds rows) {columns : OrderedMap String String}
    (hentry : row.entry? ((draft.under row.outer).get? row.inner) = some (.table columns)) :
    row.IsOf row.outer row.inner ∧ columns.keys =
      (((rows ++ [row]).filter (·.IsOf row.outer row.inner)).map SchemaRow.column).eraseDups := by
  have hdatabase := SchemaRow.database_of_entry?_table hentry
  have hof := SchemaRow.isOf_outer_inner hdatabase
  have hrows : ((rows ++ [row]).filter (·.IsOf row.outer row.inner)).map SchemaRow.column =
      (rows.filter (·.IsOf row.outer row.inner)).map SchemaRow.column ++ [row.column] := by
    rw [List.filter_append, List.map_append, List.filter_singleton, decide_eq_true hof]
    rfl
  refine ⟨hof, ?_⟩
  rw [hrows]
  cases hold : (draft.under row.outer).get? row.inner with
  | none =>
    rw [hold, SchemaRow.entry?_none hdatabase] at hentry
    obtain rfl := SchemaEntry.table.inj (Option.some.inj hentry)
    have hnone : rows.filter (·.IsOf row.outer row.inner) = [] := by
      refine List.filter_eq_nil_iff.2 fun other hother hotherOf => ?_
      exact OrderedMap.get?_eq_none_iff.1 hold (h.mem_keys_iff.2
        ⟨other, hother, (of_decide_eq_true hotherOf : other.IsOf _ _).outer_inner⟩)
    rw [hnone]
    exact OrderedMap.keys_insert_of_eraseDups rfl row.column row.type
  | some entry =>
    cases entry with
    | column type =>
      rw [hold, SchemaRow.entry?_column hdatabase] at hentry
      cases hentry
    | table old =>
      rw [hold, SchemaRow.entry?_table hdatabase] at hentry
      obtain rfl := SchemaEntry.table.inj (Option.some.inj hentry)
      exact OrderedMap.keys_insert_of_eraseDups (h.table hold).2 row.column row.type

/-- One row more. -/
theorem Holds.step (h : draft.Holds rows) (hadd : draft.add row = .ok draft') :
    draft'.Holds (rows ++ [row]) := by
  obtain ⟨entry, hentry, rfl⟩ := add_eq_ok_iff.1 hadd
  have hget : ∀ {outer inner e}, ((draft.put row.outer row.inner entry).under outer).get? inner =
      some e → (outer = row.outer ∧ inner = row.inner ∧ e = entry) ∨
        (¬ row.IsOf outer inner ∧ (draft.under outer).get? inner = some e) := by
    intro outer inner e he
    rw [get?_under_put] at he
    split at he
    · next hnames => exact Or.inl ⟨hnames.1, hnames.2, (Option.some.inj he).symm⟩
    · next hnames =>
      exact Or.inr ⟨fun hof => hnames ⟨hof.outer_inner.1.symm, hof.outer_inner.2.symm⟩, he⟩
  constructor
  · intro outer
    rw [under_put, List.filter_append, List.map_append, List.filter_singleton]
    split
    · next houter =>
      rw [decide_eq_true houter.symm]
      exact OrderedMap.keys_insert_of_eraseDups (houter ▸ h.keys outer) row.inner entry
    · next houter =>
      rw [decide_eq_false (Ne.symm houter), h.keys]
      simp
  · intro outer inner type hcolumn
    rcases hget hcolumn with ⟨rfl, rfl, rfl⟩ | ⟨-, hold⟩
    · have hdatabase := SchemaRow.database_of_entry?_column hentry
      exact ⟨row, by simp, hdatabase, (SchemaRow.outer_of_no_database hdatabase).symm⟩
    · obtain ⟨other, hother, hnames⟩ := h.column hold
      exact ⟨other, List.mem_append_left _ hother, hnames⟩
  · intro outer inner columns htable
    rcases hget htable with ⟨rfl, rfl, rfl⟩ | ⟨hnot, hold⟩
    · obtain ⟨hof, hkeys⟩ := h.keys_of_entry? hentry
      exact ⟨⟨row, by simp, hof⟩, hkeys⟩
    · obtain ⟨⟨other, hother, hof⟩, hkeys⟩ := h.table hold
      refine ⟨⟨other, List.mem_append_left _ hother, hof⟩, ?_⟩
      rw [List.filter_append, List.filter_singleton, decide_eq_false hnot, hkeys]
      simp

/-- All rows, one after the other. -/
theorem Holds.of_addAll (h : addAll .empty rows = .ok draft) : draft.Holds rows := by
  -- from the end, as what a row writes depends on the rows before it
  induction rows using List.reverseRecOn generalizing draft with
  | nil =>
    obtain rfl := Except.ok.inj h
    exact holds_empty
  | append_singleton rows row ih =>
    rw [addAll_append_singleton] at h
    cases hrows : addAll .empty rows with
    | error clash =>
      rw [hrows] at h
      cases h
    | ok before =>
      rw [hrows] at h
      exact (ih hrows).step h

end SchemaDraft

/-- No name is one of a database and one of a table without a database. -/
def NamesApart (rows : List SchemaRow) : Prop :=
  ∀ row ∈ rows, ∀ other ∈ rows, row.database = "" → other.database ≠ "" →
    row.table ≠ other.database
deriving Decidable

namespace SchemaDraft

variable {draft : SchemaDraft} {rows : List SchemaRow}

/-- Rows whose names are apart are not refused. -/
theorem exists_addAll (hapart : NamesApart rows) : ∃ draft, addAll .empty rows = .ok draft := by
  induction rows using List.reverseRecOn with
  | nil => exact ⟨.empty, rfl⟩
  | append_singleton rows row ih =>
    obtain ⟨draft, hdraft⟩ := ih fun row hrow other hother =>
      hapart row (List.mem_append_left _ hrow) other (List.mem_append_left _ hother)
    have hentry : ∃ entry, row.entry? ((draft.under row.outer).get? row.inner) = some entry := by
      by_cases hdatabase : row.database = ""
      · exact ⟨_, SchemaRow.entry?_of_no_database hdatabase _⟩
      · match hold : (draft.under row.outer).get? row.inner with
        | none => exact ⟨_, SchemaRow.entry?_none hdatabase⟩
        | some (.table columns) => exact ⟨_, SchemaRow.entry?_table hdatabase columns⟩
        | some (.column type) =>
          obtain ⟨other, hother, hempty, htable⟩ := (Holds.of_addAll hdraft).column hold
          refine absurd ?_ (hapart other (List.mem_append_left _ hother) row (by simp) hempty
            hdatabase)
          rw [htable, SchemaRow.outer_of_database hdatabase]
    obtain ⟨entry, hentry⟩ := hentry
    refine ⟨draft.put row.outer row.inner entry, ?_⟩
    rw [addAll_append_singleton, hdraft]
    exact add_eq_ok_iff.2 ⟨entry, hentry, rfl⟩

end SchemaDraft

end ColumnTrace
