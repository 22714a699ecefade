import ColumnTrace.Lineage.Statement
import ColumnTrace.Proofs.Lineage.Depth
import ColumnTrace.Proofs.Lineage.MapSources
import ColumnTrace.Proofs.Namespaces

/-!
# The tables that a statement writes

A record takes its output tables from the names of its columns: all that stands before the last dot.
A command that writes puts its target before the name of each column, with a dot between them. So a
query has no output table if and only if nothing stands before the last dot of any of its columns'
names, and a command has its target for its only output table if and only if the names that it
writes have no dots (`record_outputs_iff`). The text of an expression without a name of its own may
have them.
-/

set_option autoImplicit false

namespace ColumnTrace

namespace Plan

/-- The target and the query of a command that writes a table or a lasting view. -/
def writes? : Plan → Option (TableName × Plan)
  | .insertTable (some table) query _ => some (table, query)
  | .createTable table query _ => some (table, query)
  | .alterView name query => some (name, query)
  | .createView name query .persisted _ => some (name, query)
  | _ => none

/-- The names under which a command writes these columns of its query: those that a view declares,
by position, or the columns' own. -/
def writtenNames (plan : Plan) (columns : List Attribute) : List String :=
  match plan with
  | .createView _ _ _ declared =>
    if declared.isEmpty then columns.map (Label.text ·.name)
    else (columns.zip declared).map fun pair => Label.text pair.2
  | .createTable .. => columns.map (·.name.getD "")
  | _ => columns.map (Label.text ·.name)

/-- A view declares a name for each of so many columns, if it declares any. -/
def DeclaresEnough (plan : Plan) (columns : Nat) : Prop :=
  match plan with
  | .createView _ _ _ declared => declared = [] ∨ columns ≤ declared.length
  | _ => True

/-- A new table leaves an empty name out. -/
def dropsName (plan : Plan) (name : String) : Bool :=
  match plan with
  | .createTable .. => name == ""
  | _ => false

/-- The column that a command writes under a name. -/
def writtenColumn (plan : Plan) (target name : String) : String :=
  if plan.dropsName name then target else target ++ "." ++ name

/-- The pairs are what a command writes under its target: columns with the names that it writes, in
their order, each with sources that the query has. -/
structure Writes (plan : Plan) (target : String) (lineage : LineageMap)
    (pairs : List (Attribute × AttributeSet)) : Prop where
  names : pairs.map (·.1.name) = (plan.writtenNames lineage.keys).map fun name =>
    some (plan.writtenColumn target name)
  values : ∀ pair ∈ pairs, pair.2 ∈ lineage.values

/-- The names keep the target whole: none that is written has a dot, and where one is left out the
target is no name under another. -/
def KeepsTarget (plan : Plan) (target : String) (names : List String) : Prop :=
  (∃ name ∈ names, plan.dropsName name = false) ∧
    ∀ name ∈ names,
      if plan.dropsName name then Text.namespaceOf target = "" else '.' ∉ name.toList

end Plan

namespace Lineage

open Traced

variable {settings : Settings} {below : Below} {plan query : Plan} {target : TableName}
variable {parent lineage : LineageMap}

/-! ## What a command writes -/

/-- A command runs out of levels where its query does. -/
theorem ranOut_step_of_writes (hwrites : plan.writes? = some (target, query))
    (hran : RanOut (below query parent)) : RanOut (step settings below plan parent) := by
  cases plan with
  | insertTable table inner mode =>
    cases table with
    | none => cases hwrites
    | some table =>
      cases hwrites
      exact hran.bind _
  | createTable name inner replace =>
    cases hwrites
    exact hran.bind _
  | alterView name inner =>
    cases hwrites
    exact hran.bind _
  | createView name inner type columns =>
    cases type with
    | persisted =>
      cases hwrites
      exact hran.bind _
    | temporary => cases hwrites
    | globalTemporary => cases hwrites
  | _ => cases hwrites

/-- The columns of a new table are written under its name. -/
theorem dotted_under_table (name : TableName) (hname : name.qualifiedName ≠ "") (label : Label) :
    Text.dotted ((name.catalog.toList ++ name.database.toList ++ [name.name] ++
        label.toList).filter (· != "")) =
      if label.getD "" == "" then name.qualifiedName
      else name.qualifiedName ++ "." ++ label.getD "" := by
  have hparts : name.parts ≠ [] := by
    intro hnil
    rw [TableName.qualifiedName, hnil] at hname
    exact hname rfl
  rw [List.filter_append]
  show Text.dotted (name.parts ++ label.toList.filter (· != "")) = _
  cases label with
  | none => simp [TableName.qualifiedName]
  | some text =>
    by_cases htext : text = ""
    · simp [htext, TableName.qualifiedName]
    · have hsingle : (Option.some text).toList.filter (· != "") = [text] := by simp [htext]
      rw [hsingle, Text.dotted_append hparts (List.cons_ne_nil _ _), Text.dotted_singleton]
      simp [htext, TableName.qualifiedName]

/-- Columns of the query under other names are written, where these are the names that the command
writes. -/
theorem writes_of_names (name : Attribute → Label)
    (hname : lineage.keys.map name = (plan.writtenNames lineage.keys).map fun written =>
      some (plan.writtenColumn target.qualifiedName written)) :
    plan.Writes target.qualifiedName lineage
      (lineage.entries.map fun entry => (entry.1.withName (name entry.1), entry.2)) where
  names := by
    rw [← hname]
    simp [OrderedMap.keys, Attribute.withName]
  values pair hpair := by
    obtain ⟨entry, hentry, rfl⟩ := List.mem_map.1 hpair
    exact List.mem_map.2 ⟨entry, hentry, rfl⟩

/-- Columns of the query under their own names are written by a command that keeps these. -/
theorem writes_of_ownNames
    (hnames : plan.writtenNames lineage.keys = lineage.keys.map (Label.text ·.name))
    (hkeeps : ∀ name, plan.dropsName name = false) :
    plan.Writes target.qualifiedName lineage (lineage.entries.map fun entry =>
      (entry.1.withName (target.qualifiedName ++ "." ++ Label.text entry.1.name), entry.2)) := by
  refine writes_of_names (fun key => target.qualifiedName ++ "." ++ Label.text key.name) ?_
  rw [hnames, List.map_map]
  refine List.map_congr_left fun key _ => ?_
  rw [Function.comp_apply, Plan.writtenColumn, hkeeps, if_neg Bool.false_ne_true]

/-- Columns of the query under the names that a view declares, by position, are written. -/
theorem writes_of_declared {columns : List Label} (hcolumns : columns ≠ []) :
    (Plan.createView target query .persisted columns).Writes target.qualifiedName lineage
      ((lineage.entries.zip columns).map fun pair =>
        (pair.1.1.withName (target.qualifiedName ++ "." ++ Label.text pair.2), pair.1.2)) where
  names := by
    have hdeclared : ¬ columns.isEmpty = true := by simpa using hcolumns
    simp only [Plan.writtenNames, if_neg hdeclared, Plan.writtenColumn, Plan.dropsName,
      OrderedMap.keys, List.zip_map_left, List.map_map]
    rfl
  values pair hpair := by
    obtain ⟨found, hfound, rfl⟩ := List.mem_map.1 hpair
    exact List.mem_map.2 ⟨found.1, (List.of_mem_zip hfound).1, rfl⟩

/-- A command answers for the columns of its query, in order, under its target. -/
theorem exists_written_pairs (settings : Settings) (hwrites : plan.writes? = some (target, query))
    (htarget : target.qualifiedName ≠ "") (hlineage : (below query parent).result = .ok lineage)
    (henough : plan.DeclaresEnough lineage.size) :
    ∃ pairs, (step settings below plan parent).result = .ok (.ofList pairs) ∧
      plan.Writes target.qualifiedName lineage pairs := by
  cases plan with
  | insertTable table inner mode =>
    cases table with
    | none => cases hwrites
    | some table =>
      cases hwrites
      exact ⟨_, result_bind_of_ok hlineage, writes_of_ownNames rfl fun _ => rfl⟩
  | createTable name inner replace =>
    cases hwrites
    refine ⟨_, result_bind_of_ok hlineage, writes_of_names (fun key =>
      Text.dotted ((target.catalog.toList ++ target.database.toList ++ [target.name] ++
        key.name.toList).filter (· != ""))) ?_⟩
    simp only [Plan.writtenNames, Plan.writtenColumn, Plan.dropsName, List.map_map]
    refine List.map_congr_left fun key _ => ?_
    exact congrArg some (dotted_under_table target htarget key.name)
  | alterView name inner =>
    cases hwrites
    exact ⟨_, result_bind_of_ok hlineage, writes_of_ownNames rfl fun _ => rfl⟩
  | createView name inner type columns =>
    cases type with
    | temporary => cases hwrites
    | globalTemporary => cases hwrites
    | persisted =>
      cases hwrites
      have hstep : (step settings below (.createView target query .persisted columns)
          parent).result = (ofNewView target.qualifiedName columns lineage).result :=
        result_bind_of_ok hlineage
      rw [hstep, ofNewView]
      by_cases hcolumns : columns = []
      · subst hcolumns
        exact ⟨_, rfl, writes_of_ownNames rfl fun _ => rfl⟩
      · have hfit : ¬ columns.length < lineage.size :=
          Nat.not_lt.2 (henough.resolve_left hcolumns)
        rw [if_neg (by simpa using hcolumns), if_neg hfit]
        exact ⟨_, rfl, writes_of_declared hcolumns⟩
  | _ => cases hwrites

section
variable {text : String} {pairs : List (Attribute × AttributeSet)}

/-- The names of what is written are those that the command writes. -/
theorem mem_names_of_writes (h : plan.Writes text lineage pairs) (name : Label) :
    name ∈ (OrderedMap.ofList pairs).keys.map Attribute.name ↔
      ∃ written ∈ plan.writtenNames lineage.keys,
        some (plan.writtenColumn text written) = name := by
  rw [← List.mem_map, ← h.names]
  simp only [List.mem_map, OrderedMap.mem_keys_ofList]
  constructor
  · rintro ⟨_, ⟨pair, hpair, rfl⟩, hname⟩
    exact ⟨pair, hpair, hname⟩
  · rintro ⟨pair, hpair, hname⟩
    exact ⟨pair.1, ⟨pair, hpair, rfl⟩, hname⟩

/-- What is written from sources with names has names throughout. -/
theorem isNamed_of_writes (h : plan.Writes text lineage pairs)
    (hnamed : ∀ entry ∈ lineage.entries, entry.2.attrs.all Attribute.isNamed = true) :
    LineageMap.isNamed (.ofList pairs) = true := by
  rw [LineageMap.isNamed, List.all_eq_true]
  intro entry hentry
  obtain ⟨written, -, hname⟩ := (mem_names_of_writes h entry.1.name).1
    (List.mem_map_of_mem (OrderedMap.key_mem_of_entry_mem hentry))
  obtain ⟨found, hfound, heq⟩ := List.mem_map.1
    (h.values entry (OrderedMap.mem_of_mem_ofList hentry))
  rw [Bool.and_eq_true, Attribute.isNamed, ← hname, ← heq]
  exact ⟨rfl, hnamed found hfound⟩

end

/-! ## The tables of a record -/

/-- The record of a lineage with names is that of its map. -/
theorem record_of_extract {m : LineageMap} (hm : (plan.extract settings ∅).result = .ok m)
    (hnamed : m.isNamed = true) : (plan.record settings).result = .ok m.toRecord := by
  rw [Plan.record, result_bind_of_ok hm, LineageMap.record, if_pos hnamed]

/-- The tables written are those of the map's columns. -/
theorem outputs_toRecord (m : LineageMap) :
    m.toRecord.outputs = tablesOf (m.keys.map (·.name.getD "")) := by
  simp [LineageMap.toRecord, LineageMap.toColumns, OrderedMap.keys, Function.comp_def]

/-- A written column has the target for its table if and only if it is written under a name without
dots. -/
theorem namespaceOf_writtenColumn_eq_iff (plan : Plan) {target name : String}
    (htarget : target ≠ "") :
    Text.namespaceOf (plan.writtenColumn target name) = target ↔
      plan.dropsName name = false ∧ '.' ∉ name.toList := by
  rw [Plan.writtenColumn]
  split
  · next h => simp [h, Text.namespaceOf_ne_self htarget]
  · next h => simp [h, Text.namespaceOf_under_eq_iff]

/-- A written column has no table if and only if its name is left out and the target has none. -/
theorem namespaceOf_writtenColumn_eq_empty_iff (plan : Plan) {target name : String}
    (htarget : target ≠ "") :
    Text.namespaceOf (plan.writtenColumn target name) = "" ↔
      plan.dropsName name = true ∧ Text.namespaceOf target = "" := by
  rw [Plan.writtenColumn]
  split
  · next h => simp [h]
  · next h => simp [h, Text.namespaceOf_under_ne_empty htarget]

/-- Written columns have the target for their only table if and only if their names keep it. -/
theorem tablesOf_written_eq_iff {target : String} (htarget : target ≠ "")
    {columns names : List String}
    (hcolumns : ∀ column, column ∈ columns ↔
      ∃ name ∈ names, plan.writtenColumn target name = column) :
    tablesOf columns = [target] ↔ plan.KeepsTarget target names := by
  have hall : ∀ P : String → Prop, (∀ column ∈ columns, P column) ↔
      ∀ name ∈ names, P (plan.writtenColumn target name) := by
    intro P
    simp only [hcolumns]
    constructor
    · exact fun h name hname => h _ ⟨name, hname, rfl⟩
    · rintro h _ ⟨name, hname, rfl⟩
      exact h name hname
  have hsome : (∃ column ∈ columns, Text.namespaceOf column = target) ↔
      ∃ name ∈ names, plan.dropsName name = false ∧ '.' ∉ name.toList := by
    simp only [hcolumns, ← namespaceOf_writtenColumn_eq_iff plan htarget]
    constructor
    · rintro ⟨_, ⟨name, hname, rfl⟩, h⟩
      exact ⟨name, hname, h⟩
    · rintro ⟨name, hname, h⟩
      exact ⟨_, ⟨name, hname, rfl⟩, h⟩
  -- what is asked of every column is asked of every name under which one is written
  rw [tablesOf_eq_singleton_iff htarget, hsome, hall]
  simp only [namespaceOf_writtenColumn_eq_iff plan htarget,
    namespaceOf_writtenColumn_eq_empty_iff plan htarget]
  constructor
  · rintro ⟨⟨name, hname, hkept, -⟩, h⟩
    refine ⟨⟨name, hname, hkept⟩, fun other hother => ?_⟩
    rcases h other hother with ⟨hdrop, hempty⟩ | ⟨hkeep, hdots⟩
    · rwa [if_pos hdrop]
    · rwa [hkeep, if_neg Bool.false_ne_true]
  · rintro ⟨⟨name, hname, hkept⟩, h⟩
    have hname' := h name hname
    rw [hkept, if_neg Bool.false_ne_true] at hname'
    refine ⟨⟨name, hname, hkept, hname'⟩, fun other hother => ?_⟩
    have hother' := h other hother
    cases hdrop : plan.dropsName other with
    | true =>
      rw [if_pos hdrop] at hother'
      exact Or.inl ⟨rfl, hother'⟩
    | false =>
      rw [hdrop, if_neg Bool.false_ne_true] at hother'
      exact Or.inr ⟨rfl, hother'⟩

/-- The record of a plan has no output table if and only if nothing stands before the last dot of
any column's name. The record of a command that writes has its target for its only output table if
and only if the names that it writes keep the target whole. -/
theorem record_outputs_iff (settings : Settings) (plan : Plan) :
    (∀ m, (plan.extract settings ∅).result = .ok m → m.isNamed = true →
      ∃ record, (plan.record settings).result = .ok record ∧
        (record.outputs = [] ↔
          ∀ key ∈ m.keys, Text.namespaceOf (key.name.getD "") = "")) ∧
    (∀ target query lineage, plan.writes? = some (target, query) → target.qualifiedName ≠ "" →
      ¬ RanOut (plan.extract settings ∅) → (query.extract settings ∅).result = .ok lineage →
      (∀ entry ∈ lineage.entries, entry.2.attrs.all Attribute.isNamed = true) →
      plan.DeclaresEnough lineage.size →
      ∃ record, (plan.record settings).result = .ok record ∧
        (record.outputs = [target.qualifiedName] ↔
          plan.KeepsTarget target.qualifiedName (plan.writtenNames lineage.keys))) := by
  constructor
  · intro m hm hnamed
    refine ⟨m.toRecord, record_of_extract hm hnamed, ?_⟩
    rw [outputs_toRecord, tablesOf_eq_nil_iff]
    simp
  · intro target query lineage hwrites htarget hdeep hlineage hnamed henough
    rw [extract_eq] at hdeep
    -- under the command the query has a level less, which is enough as the trace does not run out
    have hbelow : (extractWithin settings settings.maxPlanDepth query ∅).result = .ok lineage :=
      extractWithin_of_extract (fun hran => hdeep (ranOut_step_of_writes hwrites hran)) hlineage
    obtain ⟨pairs, hstep, hwritten⟩ :=
      exists_written_pairs settings hwrites htarget hbelow henough
    have hm : (plan.extract settings ∅).result = .ok (.ofList pairs) := by
      rw [extract_eq]
      exact hstep
    refine ⟨_, record_of_extract hm (isNamed_of_writes hwritten hnamed), ?_⟩
    rw [outputs_toRecord]
    refine tablesOf_written_eq_iff htarget fun column => ?_
    have hcolumn := mem_names_of_writes hwritten (some column)
    simp only [Option.some.injEq] at hcolumn
    rw [← hcolumn]
    simp only [List.mem_map]
    constructor
    · rintro ⟨key, hkey, hname⟩
      refine ⟨key, hkey, ?_⟩
      obtain ⟨written, -, hwrittenName⟩ :=
        (mem_names_of_writes hwritten key.name).1 (List.mem_map_of_mem hkey)
      rw [← hname, ← hwrittenName]
      rfl
    · rintro ⟨key, hkey, hname⟩
      exact ⟨key, hkey, by rw [hname]; rfl⟩

/-- `SELECT total FROM orders`. -/
def selectTotal : Plan :=
  .project [.column ⟨1, some "total", []⟩]
    (.relation [⟨1, some "total", []⟩] (some ⟨"orders", none, none⟩))

/-- The insertion of a query's rows into `db.t`. -/
def insertInto (query : Plan) : Plan := .insertTable (some ⟨"t", some "db", none⟩) query .append

/-- A query records no table, and an insertion of it records its target. -/
theorem outputs_selectTotal :
    (∃ record, (selectTotal.record .standard).result = .ok record ∧ record.outputs = []) ∧
      ∃ record, ((insertInto selectTotal).record .standard).result = .ok record ∧
        record.outputs = ["db.t"] := by
  constructor
  · obtain ⟨record, hrecord, hiff⟩ := (record_outputs_iff .standard selectTotal).1 _ rfl rfl
    exact ⟨record, hrecord, hiff.2 (by decide)⟩
  · obtain ⟨record, hrecord, hiff⟩ := (record_outputs_iff .standard (insertInto selectTotal)).2
      ⟨"t", some "db", none⟩ selectTotal _ rfl (by decide) (not_ranOut_of_ok rfl) rfl (by decide)
      trivial
    refine ⟨record, hrecord, hiff.2 ⟨⟨"total", by decide, rfl⟩, ?_⟩⟩
    intro name hname
    obtain rfl : name = "total" := List.mem_singleton.1 hname
    decide

/-- `SELECT SUM(o.total) FROM orders o`; the column is named by its text. -/
def selectSum : Plan :=
  .project [.aliased (.mk (.call "sum" [.column ⟨1, some "total", []⟩]) (some "SUM(o.total)") 5)]
    (.relation [⟨1, some "total", []⟩] (some ⟨"orders", none, none⟩))

/-- A dot in the text of an expression makes a table that nobody writes. -/
theorem outputs_selectSum :
    (selectSum.record .standard).result =
        .ok ⟨["orders"], ["SUM(o"], [⟨"SUM(o.total)", ["orders.total"]⟩]⟩ ∧
      ((insertInto selectSum).record .standard).result =
        .ok ⟨["orders"], ["db.t.SUM(o"], [⟨"db.t.SUM(o.total)", ["orders.total"]⟩]⟩ := by
  decide +kernel

end Lineage

end ColumnTrace
