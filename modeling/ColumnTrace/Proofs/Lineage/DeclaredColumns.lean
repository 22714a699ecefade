import ColumnTrace.Proofs.Lineage.PositionalUnions

/-!
# Columns that a view declares

A persisted view that declares names for its columns gives them to the entries of its query's
lineage, one after the other. The lineage has one entry for a column, so an entry stands at the
place of its column only if the query answers for each of its columns, and none of them comes twice.
Whether the names are by position is decided by that, and by no two entries meeting under one name
(`Plan.extract_createView_isDeclared_iff`).
-/

set_option autoImplicit false

namespace ColumnTrace

open Traced

/-- A column of a view as the view's lineage shows it. -/
def declaredName (view : String) (column : Label) : String := view ++ "." ++ Label.text column

/-- Columns of a query under the names that a view declares for them, by position. -/
def declaredKeys (view : String) (keys : List Attribute) (columns : List Label) : List Attribute :=
  (keys.zip columns).map fun pair => pair.1.withName (declaredName view pair.2)

/-- The map has one entry for each declared column, in order and under the name of the view, and its
sources are those that the query's answer has for the query's column at that place. -/
structure LineageMap.IsDeclared (view : String) (columns : List Label) (output : List Attribute)
    (m answer : LineageMap) : Prop where
  names : m.keys.map Attribute.name = columns.map fun column => some (declaredName view column)
  sources : ∀ (i : Nat) (column : Attribute), output[i]? = some column →
    m.values[i]? = some (answer.sourcesOf column)

namespace Lineage

variable {settings : Settings} {below : Below} {parent answer m : LineageMap}
variable {view : String} {columns : List Label} {output : List Attribute}

/-- The entries of an answer under declared names, by position. -/
def declaredEntries (view : String) (columns : List Label) (answer : LineageMap) :
    List (Attribute × AttributeSet) :=
  (answer.entries.zip columns).map fun pair =>
    (pair.1.1.withName (declaredName view pair.2), pair.1.2)

/-- A new view shows what its query answers, under the names that it declares. -/
theorem step_createView {name : TableName} {query : Plan} :
    (step settings below (.createView name query .persisted columns) parent).result = .ok m ↔
      ∃ answer, (below query parent).result = .ok answer ∧
        (ofNewView name.qualifiedName columns answer).result = .ok m := by
  rw [step, stepAt, if_neg (not_not_intro rfl), result_bind_eq_ok]

/-- A new view shows what its query answers, unless that has more entries than the view declares
columns. -/
theorem ofNewView_eq_ok :
    (ofNewView view columns answer).result = .ok m ↔
      (columns = [] ∧ m = answer.rename fun key => declaredName view key.name) ∨
        (columns ≠ [] ∧ answer.size ≤ columns.length ∧
          m = .ofList (declaredEntries view columns answer)) := by
  cases columns with
  | nil =>
    rw [ofNewView, List.isEmpty_nil, if_pos rfl, result_pure, Except.ok.injEq, eq_comm]
    simp [declaredName]
  | cons column rest =>
    rw [ofNewView, List.isEmpty_cons, if_neg Bool.false_ne_true]
    split
    · next hmany =>
      have hsize : ¬ answer.size ≤ (column :: rest).length := Nat.not_le.2 hmany
      simp [hsize, -List.length_cons]
    · next hfew =>
      have hsize : answer.size ≤ (column :: rest).length := Nat.not_lt.1 hfew
      rw [result_pure, Except.ok.injEq, eq_comm]
      simp [hsize, declaredEntries, declaredName, -List.length_cons]

/-- An answer can be shown if no names are declared, or enough of them. -/
theorem exists_ofNewView_iff : (∃ m, (ofNewView view columns answer).result = .ok m) ↔
    columns = [] ∨ answer.size ≤ columns.length := by
  simp only [ofNewView_eq_ok]
  constructor
  · rintro ⟨m, ⟨hnone, -⟩ | ⟨-, hsize, -⟩⟩
    · exact Or.inl hnone
    · exact Or.inr hsize
  · intro hsize
    by_cases hnone : columns = []
    · exact ⟨_, Or.inl ⟨hnone, rfl⟩⟩
    · exact ⟨_, Or.inr ⟨hnone, hsize.resolve_left hnone, rfl⟩⟩

/-- The entries stand under the declared names. -/
theorem map_fst_declaredEntries (view : String) (columns : List Label) (answer : LineageMap) :
    (declaredEntries view columns answer).map Prod.fst =
      declaredKeys view answer.keys columns := by
  rw [declaredEntries, declaredKeys, OrderedMap.keys, List.zip_map_left, List.map_map, List.map_map]
  rfl

/-- Enough declared names leave the sources as they are. -/
theorem map_snd_declaredEntries (h : answer.size ≤ columns.length) :
    (declaredEntries view columns answer).map Prod.snd = answer.values := by
  have hfst : (answer.entries.zip columns).map Prod.fst = answer.entries := List.map_fst_zip h
  rw [OrderedMap.values, declaredEntries, List.map_map]
  conv_rhs => rw [← hfst, List.map_map]
  rfl

/-- Where the names are as many as the columns, all of them are used. -/
theorem map_name_declaredKeys {keys : List Attribute} (h : columns.length = keys.length) :
    (declaredKeys view keys columns).map Attribute.name =
      columns.map fun column => some (declaredName view column) := by
  have hsnd : (keys.zip columns).map Prod.snd = columns := List.map_snd_zip h.le
  conv_rhs => rw [← hsnd]
  rw [declaredKeys, List.map_map, List.map_map]
  rfl

/-- A query that answers for each of its columns gets the declared names by position. -/
theorem isDeclared_ofList (hlength : columns.length = output.length) (hkeys : answer.keys = output)
    (hnodup : (declaredKeys view output columns).Nodup) :
    LineageMap.IsDeclared view columns output (.ofList (declaredEntries view columns answer))
      answer := by
  have hsize : answer.size ≤ columns.length := by
    rw [hlength, ← hkeys, OrderedMap.length_keys]
  have hfst : (declaredEntries view columns answer).map Prod.fst =
      declaredKeys view output columns := by
    rw [map_fst_declaredEntries, hkeys]
  rw [← hfst] at hnodup
  refine ⟨?_, fun i column hcolumn => ?_⟩
  · rw [OrderedMap.keys_ofList_of_nodup hnodup, hfst, map_name_declaredKeys hlength]
  · rw [OrderedMap.values, OrderedMap.entries_ofList_of_nodup hnodup,
      map_snd_declaredEntries hsize, LineageMap.getElem?_values, hkeys, hcolumn]
    rfl

/-- An answer that lists columns of the query and gets all declared names answers for each of the
query's columns: there are no more entries than columns, and no fewer than names. -/
theorem keys_of_isDeclared (hlength : columns.length = output.length)
    (hanswer : answer.keys.Sublist output)
    (h : LineageMap.IsDeclared view columns output (.ofList (declaredEntries view columns answer))
      answer) :
    answer.keys = output ∧ (declaredKeys view output columns).Nodup := by
  have hsublist := OrderedMap.keys_ofList_sublist (declaredEntries view columns answer)
  have hnames := congrArg List.length h.names
  rw [List.length_map, List.length_map] at hnames
  have hentries : (declaredKeys view answer.keys columns).length =
      min answer.keys.length columns.length := by
    rw [declaredKeys, List.length_map, List.length_zip]
  rw [map_fst_declaredEntries] at hsublist
  have hle := hsublist.length_le
  have hkeys : answer.keys = output := hanswer.eq_of_length_le (by omega)
  refine ⟨hkeys, ?_⟩
  rw [← hkeys, ← hsublist.eq_of_length_le (by omega)]
  exact OrderedMap.nodup_keys _

/-- What a new view shows is declared where its query answers for each of its columns and no two
columns meet under one name; and where the answer lists columns of the query, only there. -/
theorem isDeclared_of_ofNewView (hlength : columns.length = output.length)
    (hnew : (ofNewView view columns answer).result = .ok m) :
    (answer.keys = output ∧ (declaredKeys view output columns).Nodup →
      m.IsDeclared view columns output answer) ∧
    (answer.keys.Sublist output → m.IsDeclared view columns output answer →
      answer.keys = output ∧ (declaredKeys view output columns).Nodup) := by
  rcases ofNewView_eq_ok.1 hnew with ⟨rfl, rfl⟩ | ⟨-, -, rfl⟩
  · -- a query without columns, which may still answer for columns of the plans below it
    obtain rfl := List.length_eq_zero_iff.1 hlength.symm
    constructor
    · rintro ⟨hkeys, -⟩
      obtain rfl := LineageMap.eq_empty_of_keys_eq_nil hkeys
      exact ⟨rfl, fun i column hcolumn => absurd hcolumn (by simp)⟩
    · exact fun hsublist _ => ⟨List.sublist_nil.1 hsublist, List.nodup_nil⟩
  · exact ⟨fun h => isDeclared_ofList hlength h.1 h.2, keys_of_isDeclared hlength⟩

/-- A persisted view is traced as its query is, one level further down. -/
theorem extract_createView_eq_ok {name : TableName} {query : Plan} :
    ((Plan.createView name query .persisted columns).extract settings ∅).result = .ok m ↔
      ∃ answer, (extractWithin settings settings.maxPlanDepth query ∅).result = .ok answer ∧
        (ofNewView name.qualifiedName columns answer).result = .ok m := by
  rw [extract_eq, extractWithin, step_createView]

end Lineage

namespace Plan

open Lineage

/-- A persisted view with as many declared columns as its query has columns. It has a lineage if and
only if its query has one, one level further down, and no more entries in it than names are
declared. The names are by position where the query answers for each of its columns and no two
columns meet under one name; and where the query lists columns of its own, only then. -/
theorem extract_createView_isDeclared_iff (settings : Settings) (name : TableName) (query : Plan)
    (columns : List Label) (hlength : columns.length = query.output.length) :
    ((∃ m, ((Plan.createView name query .persisted columns).extract settings ∅).result = .ok m) ↔
      ∃ answer, (extractWithin settings settings.maxPlanDepth query ∅).result = .ok answer ∧
        (columns = [] ∨ answer.size ≤ columns.length)) ∧
    ∀ m, ((Plan.createView name query .persisted columns).extract settings ∅).result = .ok m →
      ∃ answer, (query.extract settings ∅).result = .ok answer ∧
        (answer.keys = query.output ∧ (declaredKeys name.qualifiedName query.output columns).Nodup →
          m.IsDeclared name.qualifiedName columns query.output answer) ∧
        (query.OnlyQueries ∧ query.Listing →
          m.IsDeclared name.qualifiedName columns query.output answer →
          answer.keys = query.output ∧
            (declaredKeys name.qualifiedName query.output columns).Nodup) := by
  constructor
  · simp only [extract_createView_eq_ok]
    constructor
    · rintro ⟨m, answer, hanswer, hnew⟩
      exact ⟨answer, hanswer, exists_ofNewView_iff.1 ⟨m, hnew⟩⟩
    · rintro ⟨answer, hanswer, hsize⟩
      obtain ⟨m, hnew⟩ := exists_ofNewView_iff.2 hsize
      exact ⟨m, answer, hanswer, hnew⟩
  · intro m hm
    obtain ⟨answer, hanswer, hnew⟩ := extract_createView_eq_ok.1 hm
    obtain ⟨hif, honly⟩ := isDeclared_of_ofNewView hlength hnew
    refine ⟨answer, extract_of_extractWithin (Nat.le_succ _) hanswer, hif, ?_⟩
    rintro ⟨hqueries, hlisting⟩
    exact honly (keys_sublist_output _ hqueries hlisting hanswer)

/-- A view `v (x, y)` of a query that repeats no column declares its names by position. -/
theorem extract_viewOf_selectWithAbs :
    ∃ m answer, ((Plan.createView ⟨"v", none, none⟩ selectWithAbs .persisted
        [some "x", some "y"]).extract .standard ∅).result = .ok m ∧
      (selectWithAbs.extract .standard ∅).result = .ok answer ∧
      (m.IsDeclared "v" [some "x", some "y"] selectWithAbs.output answer ∧
        (m.IsDeclared "v" [some "x", some "y"] selectWithAbs.output answer →
          answer.keys = selectWithAbs.output ∧
            (declaredKeys "v" selectWithAbs.output [some "x", some "y"]).Nodup)) := by
  obtain ⟨hexists, hdeclared⟩ := extract_createView_isDeclared_iff .standard ⟨"v", none, none⟩
    selectWithAbs [some "x", some "y"] rfl
  obtain ⟨m, hm⟩ := hexists.2 ⟨_, rfl, Or.inr (by decide +kernel)⟩
  obtain ⟨answer, hanswer, hif, honly⟩ := hdeclared m hm
  have hkeys : answer.keys = selectWithAbs.output := by
    obtain rfl := Except.ok.inj hanswer
    decide +kernel
  have hlisting : selectWithAbs.OnlyQueries ∧ selectWithAbs.Listing :=
    ⟨throughout_of_within 3 (by decide), throughout_of_within 3 (by decide)⟩
  exact ⟨m, answer, hm, hanswer, hif ⟨hkeys, by decide⟩, honly hlisting⟩

/-- A view `v (x, y, z)` of `SELECT a, a, b FROM t`: the second name gets the sources of the third
column, and the third name is lost. -/
theorem extract_viewOf_selectRepeated :
    ((Plan.createView ⟨"v", none, none⟩ selectRepeated .persisted
      [some "x", some "y", some "z"]).extract .standard ∅).result =
      .ok (.ofList [(⟨1, some "v.x", []⟩, .singleton ⟨1, some "a", ["t"]⟩),
        (⟨2, some "v.y", []⟩, .singleton ⟨2, some "b", ["t"]⟩)]) ∧
    ∀ answer, ¬ LineageMap.IsDeclared "v" [some "x", some "y", some "z"] selectRepeated.output
      (.ofList [(⟨1, some "v.x", []⟩, .singleton ⟨1, some "a", ["t"]⟩),
        (⟨2, some "v.y", []⟩, .singleton ⟨2, some "b", ["t"]⟩)]) answer := by
  constructor
  · decide +kernel
  · intro answer hdeclared
    exact absurd hdeclared.names (by decide)

end Plan

end ColumnTrace
