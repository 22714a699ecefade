import ColumnTrace.Proofs.Lineage.SelectedSources
import ColumnTrace.Proofs.Lineage.WrittenTables

/-!
# Counting the rows of a join

A count of rows asks the plan under it for the marker of its rows. Every table of a join answers
with the marker under its own name, but all these markers have the identity of the count, and of one
identity a set of sources holds one attribute. Where a join puts its sides together, the right one
is heard first, so the marker is that of the rightmost table (`Lineage.sourcesOf_countedJoin`), and
of the joined tables the count brings only that one into the record.
-/

set_option autoImplicit false

namespace ColumnTrace

open Traced

namespace Plan

/-- The plan is built from tables, which are these from left to right, by joins that show both sides
and by operators that have no rule of their own. -/
inductive JoinsTables : Plan → List (Option TableName) → Prop
  | table (output : List Attribute) (table : Option TableName) :
    JoinsTables (.relation output table) [table]
  | join {left right : Plan} {leftTables rightTables : List (Option TableName)} {type : JoinType}
      (condition : Option Expr) (hexposes : type.exposesRight = true)
      (hleft : JoinsTables left leftTables) (hright : JoinsTables right rightTables) :
    JoinsTables (.join left right type condition) (leftTables ++ rightTables)
  | unary {child : Plan} {tables : List (Option TableName)} (name : String)
      (output : List Attribute) (hchild : JoinsTables child tables) :
    JoinsTables (.operator name [child] output) tables

variable {plan : Plan} {tables : List (Option TableName)}

/-- There is at least one table. -/
theorem JoinsTables.ne_nil (h : plan.JoinsTables tables) : tables ≠ [] := by
  induction h with
  | table output table => exact List.cons_ne_nil _ _
  | join condition hexposes hleft hright ihLeft ihRight =>
    exact List.append_ne_nil_of_right_ne_nil _ ihRight
  | unary name output hchild ih => exact ih

end Plan

namespace Lineage

variable {settings : Settings} {plan child : Plan} {tables : List (Option TableName)}
variable {last : Option TableName} {items : List SelectItem} {f : Alias}

/-- A table always has a qualifier. -/
theorem isEmpty_relationQualifier (table : Option TableName) :
    (relationQualifier table).isEmpty = false := by
  cases table <;> rfl

/-- Of two markers of rows under one identity the first is kept, as it is qualified. -/
theorem union_countMarker (id : Int) (first second : Option TableName) :
    AttributeSet.singleton ⟨id, some countName, relationQualifier first⟩ ∪
        .singleton ⟨id, some countName, relationQualifier second⟩ =
      .singleton ⟨id, some countName, relationQualifier first⟩ := by
  apply AttributeSet.ext
  show joinAttribute _ [_] = [_]
  simp [joinAttribute, isEmpty_relationQualifier]

/-- By induction on the plan: it answers a request whose dependencies have names, and a marker of
rows with that of its last table. -/
theorem exists_answer_of_joinsTables (h : plan.JoinsTables tables) :
    ∀ {n : Nat} {request : LineageMap}, plan.fits settings n →
      request.All (fun a => a.isNamed = true) →
      ∃ m, (extractWithin settings n plan request).result = .ok m ∧
        ∀ key id, (key, AttributeSet.singleton ⟨id, some countName, []⟩) ∈ request.entries →
          ∀ last, tables.getLast? = some last →
            m.sourcesOf key = .singleton ⟨id, some countName, relationQualifier last⟩ := by
  induction h with
  | table output table =>
    intro n request hfits hnamed
    cases n with
    | zero => exact hfits.elim
    | succ n =>
      refine ⟨request.answerOf output (relationQualifier table), ?_, ?_⟩
      · rw [extractWithin, step_relation]
        exact result_ofRelation_of_named hnamed
      · intro key id hentry last hlast
        obtain rfl : table = last := Option.some.inj hlast
        rw [LineageMap.answerOf, OrderedMap.isEmpty_eq_false_of_mem hentry,
          if_neg Bool.false_ne_true, LineageMap.sourcesOf_mapValues _ hentry]
        show AttributeSet.ofList ([_].filterMap _) = _
        rw [List.filterMap_cons_some (answer?_countMarker output (relationQualifier table) id)]
        rfl
  | @join left right leftTables rightTables type condition hexposes hleft hright ihLeft ihRight =>
    intro n request hfits hnamed
    cases n with
    | zero => exact hfits.elim
    | succ n =>
      obtain ⟨l, hl, hlast⟩ := ihLeft (hfits left Plan.left_mem_tracedBelow) hnamed
      obtain ⟨r, hr, hrlast⟩ := ihRight (hfits right (Plan.right_mem_tracedBelow hexposes)) hnamed
      refine ⟨l.merge r, ?_, ?_⟩
      · rw [extractWithin, step_join hexposes]
        exact ⟨l, r, hl, hr, rfl⟩
      · intro key id hentry last htables
        obtain ⟨first, hfirst⟩ := Option.isSome_iff_exists.1
          (List.getLast?_isSome.2 hleft.ne_nil)
        rw [List.getLast?_append_of_ne_nil _ hright.ne_nil] at htables
        -- two markers of one identity: the union keeps that of the right side
        rw [LineageMap.sourcesOf_merge, hlast key id hentry first hfirst,
          hrlast key id hentry last htables, union_countMarker]
  | @unary child tables name output hchild ih =>
    intro n request hfits hnamed
    cases n with
    | zero => exact hfits.elim
    | succ n =>
      obtain ⟨m, hm, hlast⟩ := ih (hfits child List.mem_cons_self) hnamed
      refine ⟨m, ?_, hlast⟩
      rw [extractWithin, step_operator]
      exact hm

/-- By induction on the plan: it answers a request for something with names with names. -/
theorem isNamed_of_joinsTables (h : plan.JoinsTables tables) :
    ∀ {n : Nat} {request m : LineageMap}, request.isEmpty = false → request.isNamed = true →
      (extractWithin settings n plan request).result = .ok m → m.isNamed = true := by
  induction h with
  | table output table =>
    intro n request m hsome hnamed hm
    cases n with
    | zero => cases hm
    | succ n =>
      rw [extractWithin, step_relation] at hm
      rw [eq_answerOf_of_ofRelation hm]
      exact LineageMap.isNamed_answerOf hsome hnamed
  | @join left right leftTables rightTables type condition hexposes hleft hright ihLeft ihRight =>
    intro n request m hsome hnamed hm
    cases n with
    | zero => cases hm
    | succ n =>
      rw [extractWithin, step_join hexposes] at hm
      obtain ⟨l, r, hl, hr, rfl⟩ := hm
      rw [← LineageMap.mergeAll_pair]
      apply LineageMap.isNamed_mergeAll
      rw [List.forall_mem_cons, List.forall_mem_singleton]
      exact ⟨ihLeft hsome hnamed hl, ihRight hsome hnamed hr⟩
  | @unary child tables name output hchild ih =>
    intro n request m hsome hnamed hm
    cases n with
    | zero => cases hm
    | succ n =>
      rw [extractWithin, step_operator] at hm
      exact ih hsome hnamed hm

/-- A column that counts rows and nothing else asks for their marker. -/
theorem result_itemSources_of_countsRows (below : Below) (hcounts : f.child.countsRows = true)
    (hcolumns : f.child.attributes = []) (hsubqueries : f.child.subqueries = []) :
    (itemSources below (.aliased f)).result =
      .ok (f.toAttribute, .singleton ⟨f.id, some countName, []⟩) := by
  have hmarker : f.directSources = .singleton ⟨f.id, some countName, []⟩ := by
    rw [Alias.directSources, if_pos hcounts, Expr.references, hcolumns]
    rfl
  rw [← hmarker]
  exact result_itemSources_aliased (result_aliasSources_of_direct below (Or.inr hsubqueries))

/-- A record reads the table whose rows one of its columns counts. -/
theorem mem_inputs_of_countMarker {m : LineageMap} {key : Attribute} {id : Int} {name : TableName}
    (hname : name.qualifiedName ≠ "")
    (hmarker : m.sourcesOf key = .singleton ⟨id, some countName, relationQualifier (some name)⟩) :
    name.qualifiedName ∈ m.toRecord.inputs := by
  have hmem : ⟨id, some countName, relationQualifier (some name)⟩ ∈ (m.sourcesOf key).attrs := by
    rw [hmarker]
    exact List.mem_cons_self
  refine mem_tablesOf.2 ⟨hname, name.qualifiedName ++ "." ++ countName, ?_, ?_⟩
  · have hentry := LineageMap.mem_entries_of_mem_sourcesOf hmem
    refine List.mem_flatMap.2 ⟨_, List.mem_map_of_mem hentry, List.mem_eraseDups.2 ?_⟩
    refine List.mem_map.2 ⟨_, hmem, ?_⟩
    simp [Attribute.qualifiedName, relationQualifier, Text.dotted, Text.joinBy, String.ext_iff]
  · exact (Text.namespaceOf_under_eq_iff _ _).2 (by decide)

/-- The source of a column that counts the rows of a join is the marker of the last table of the
join. Where the columns have names, there is a record, and that table is one of those it reads. -/
theorem sourcesOf_countedJoin (hplan : plan.selectList? = some (items, child))
    (hchild : child.JoinsTables tables) (hlast : tables.getLast? = some last)
    (hfits : child.fits settings settings.maxPlanDepth) (hcounts : f.child.countsRows = true)
    (hcolumns : f.child.attributes = []) (hsubqueries : f.child.subqueries = [])
    (hmem : .aliased f ∈ items)
    (hunique : ∀ other ∈ items, other.toAttribute = f.toAttribute → other = .aliased f)
    (hothers : ∀ other ∈ items, other ≠ .aliased f →
      other.HasSources (extractWithin settings settings.maxPlanDepth) (·.isNamed = true)) :
    ∃ m : LineageMap, (plan.extract settings ∅).result = .ok m ∧
      m.sourcesOf f.toAttribute = .singleton ⟨f.id, some countName, relationQualifier last⟩ ∧
      ((∀ item ∈ items, item.toAttribute.isNamed = true) →
        ∃ record, (plan.record settings).result = .ok record ∧
          ∀ name, last = some name → name.qualifiedName ≠ "" →
            name.qualifiedName ∈ record.inputs) := by
  have hcount := result_itemSources_of_countsRows
    (extractWithin settings settings.maxPlanDepth) hcounts hcolumns hsubqueries
  obtain ⟨selected, hselected, hnamed, hentry⟩ := exists_selected_of_item hcount
    (fun d hd => List.mem_singleton.1 hd ▸ rfl) hmem hunique hothers
  obtain ⟨m, hm, hsources⟩ := exists_answer_of_joinsTables hchild hfits hnamed
  have hmarker := hsources _ _ hentry last hlast
  have hextract : (plan.extract settings ∅).result = .ok m := by
    rw [extract_eq]
    exact extractWithin_of_selectList hplan hselected hm
  refine ⟨m, hextract, hmarker, fun hitems => ⟨m.toRecord, ?_, ?_⟩⟩
  · have hkeys : ∀ key ∈ selected.keys, key.isNamed = true := by
      intro key hkey
      obtain ⟨item, hitem, rfl⟩ := List.mem_map.1 ((mem_keys_ofSelectList hselected).1 hkey)
      exact hitems item hitem
    exact record_of_extract hextract (isNamed_of_joinsTables hchild
      (OrderedMap.isEmpty_eq_false_of_mem hentry) (LineageMap.isNamed_iff.2 ⟨hkeys, hnamed⟩) hm)
  · rintro name rfl hname
    exact mem_inputs_of_countMarker hname hmarker

/-! ## The rows of a join of two tables -/

/-- The number of rows. -/
def numberOfRows : Alias := .mk (.count [] false) (some "n") 5

/-- The tables `t` and `u`, the second filtered, side by side. -/
def filteredJoin : Plan :=
  .join (.relation [⟨1, some "a", []⟩] (some ⟨"t", none, none⟩))
    (.operator "Filter" [.relation [⟨2, some "x", []⟩] (some ⟨"u", none, none⟩)]
      [⟨2, some "x", []⟩]) .inner none

/-- The filtered join is built from `t` and `u`. -/
theorem joinsTables_filteredJoin :
    filteredJoin.JoinsTables [some ⟨"t", none, none⟩, some ⟨"u", none, none⟩] :=
  .join none rfl (.table _ _) (.unary "Filter" _ (.table _ _))

/-- The number of rows of the join is traced to the rows of `u`, which the record reads. -/
theorem sourcesOf_count_filteredJoin :
    ∃ m : LineageMap,
      ((Plan.aggregate [] [.aliased numberOfRows] filteredJoin).extract .standard ∅).result =
        .ok m ∧
      m.sourcesOf numberOfRows.toAttribute = .singleton ⟨5, some countName, ["u"]⟩ ∧
      ∃ record, ((Plan.aggregate [] [.aliased numberOfRows] filteredJoin).record
        .standard).result = .ok record ∧ "u" ∈ record.inputs := by
  have hplan : (Plan.aggregate [] [.aliased numberOfRows] filteredJoin).selectList? =
      some ([.aliased numberOfRows], filteredJoin) := rfl
  have hfits : filteredJoin.fits .standard Settings.standard.maxPlanDepth := by decide
  obtain ⟨m, hm, hmarker, hrecord⟩ := sourcesOf_countedJoin hplan joinsTables_filteredJoin rfl hfits
    rfl rfl rfl List.mem_cons_self (fun _ hother _ => List.mem_singleton.1 hother)
    (fun _ hother hne => absurd (List.mem_singleton.1 hother) hne)
  obtain ⟨record, hok, hinputs⟩ := hrecord (by decide)
  exact ⟨m, hm, hmarker, record, hok, hinputs _ rfl (by decide)⟩

/-- The rows of `t` are missing, and so is `t` among the tables that the record reads. -/
theorem extract_count_filteredJoin :
    ((Plan.aggregate [] [.aliased numberOfRows] filteredJoin).extract .standard ∅).result =
      .ok (.ofList [(⟨5, some "n", []⟩, .singleton ⟨5, some countName, ["u"]⟩)]) ∧
    ((Plan.aggregate [] [.aliased numberOfRows] filteredJoin).record .standard).result =
      .ok ⟨["u"], [], [⟨"n", ["u.__count__"]⟩]⟩ :=
  ⟨by decide +kernel, by decide +kernel⟩

end Lineage

end ColumnTrace
