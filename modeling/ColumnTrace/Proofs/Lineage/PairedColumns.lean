import ColumnTrace.Proofs.Lineage.AssignedColumns
import ColumnTrace.Proofs.Lineage.ListedColumns
import ColumnTrace.Proofs.Lineage.SubRequests

/-!
# What a merge pairs

A merge asks its target, whatever plan that is, for the columns that its actions assign. A column of
a view resolves to the columns behind it, which may be several or none. All of them are put into one
list, and this is paired by position with what the source answers for the assigned columns. So the
columns behind an assigned column are paired with its own sources where each assigned column has one
column behind it at most, no two have the same, and those without come last; and where each assigned
column has a source of its own, only there (`Plan.extract_merge_pairsAssigned`).
-/

set_option autoImplicit false

namespace ColumnTrace

open Traced

/-! ## Lists of one member at most -/

/-- Each list has one member at most, no two have the same, and the empty ones come last. -/
def InOrder {α : Type} (lists : List (List α)) : Prop :=
  ∃ (members : List α) (rest : Nat), members.Nodup ∧
    lists = members.map (fun a => [a]) ++ List.replicate rest []

section
variable {α : Type}

/-- Lists of one member each, and empty ones after them, are a list of these members. -/
theorem flatten_inOrder (members : List α) (rest : Nat) :
    (members.map (fun a => [a]) ++ List.replicate rest []).flatten = members := by
  rw [List.flatten_append, List.flatten_replicate_nil, List.append_nil, ← List.flatMap_def,
    List.flatMap_singleton']

/-- Lists whose members are all different and stand, among all, one place behind that of their list
have no members. -/
theorem eq_nil_of_placed {rest : List (List α)} (hnodup : rest.flatten.Nodup)
    (hplace : ∀ (i : Nat) l, rest[i]? = some l → ∀ a ∈ l, rest.flatten[i + 1]? = some a) :
    ∀ l ∈ rest, l = [] := by
  rw [← List.flatten_eq_nil_iff]
  cases hflat : rest.flatten with
  | nil => rfl
  | cons a more =>
    -- the first member of all would stand at two places
    have ha : a ∈ rest.flatten := hflat ▸ List.mem_cons_self
    obtain ⟨l, hl, hal⟩ := List.mem_flatten.1 ha
    obtain ⟨i, hi⟩ := List.mem_iff_getElem?.1 hl
    have hfirst : rest.flatten[0]? = some a := by rw [hflat]; rfl
    have hsame : rest.flatten[0]? = rest.flatten[i + 1]? := by rw [hfirst, hplace i l hi a hal]
    have hlt : 0 < rest.flatten.length := List.length_pos_of_mem ha
    exact absurd ((List.getElem?_inj hlt hnodup).1 hsame) (Nat.succ_ne_zero i).symm

/-- Lists are in order where all their members are different and each one stands, among all, at the
place of its list. -/
theorem inOrder_iff {lists : List (List α)} : InOrder lists ↔ lists.flatten.Nodup ∧
    ∀ (i : Nat) l, lists[i]? = some l → ∀ a ∈ l, lists.flatten[i]? = some a := by
  constructor
  · rintro ⟨members, rest, hnodup, rfl⟩
    rw [flatten_inOrder]
    refine ⟨hnodup, fun i l hl a ha => ?_⟩
    rcases List.mem_append.1 (List.mem_of_getElem? hl) with hmem | hempty
    · have hlt : i < members.length := by
        by_contra hge
        rw [List.getElem?_append_right (by simpa using hge)] at hl
        obtain rfl := List.eq_of_mem_replicate (List.mem_of_getElem? hl)
        cases ha
      rw [List.getElem?_append_left (by simpa using hlt), List.getElem?_map,
        Option.map_eq_some_iff] at hl
      obtain ⟨b, hb, rfl⟩ := hl
      rwa [List.mem_singleton.1 ha]
    · obtain rfl := List.eq_of_mem_replicate hempty
      cases ha
  · rintro ⟨hnodup, hplace⟩
    induction lists with
    | nil => exact ⟨[], 0, List.nodup_nil, rfl⟩
    | cons l rest ih =>
      cases l with
      | nil =>
        have hrest : rest.flatten.Nodup := hnodup
        have hempty := eq_nil_of_placed hrest fun i l hl => hplace (i + 1) l hl
        refine ⟨[], rest.length + 1, List.nodup_nil, ?_⟩
        rw [List.eq_replicate_of_mem hempty]
        simp [List.replicate_succ]
      | cons a more =>
        -- two members of one list would have to stand at one place
        have hmore : more = [] := by
          cases more with
          | nil => rfl
          | cons b others =>
            have hb := hplace 0 _ rfl b (List.mem_cons_of_mem a List.mem_cons_self)
            obtain rfl : a = b := Option.some.inj hb
            exact absurd hnodup (by simp)
        subst hmore
        have hrest : rest.flatten.Nodup := (List.nodup_cons.1 hnodup).2
        obtain ⟨members, count, -, rfl⟩ := ih hrest fun i l hl b hb => hplace (i + 1) l hl b hb
        refine ⟨a :: members, count, ?_, rfl⟩
        rw [← flatten_inOrder (a :: members) count]
        exact hnodup

end

/-! ## What is paired by position -/

namespace Attribute

/-- The column as a merge shows it: under its qualified name. -/
def underQualifiedName (a : Attribute) : Attribute := a.withName a.qualifiedName

end Attribute

namespace Plan

/-- What a plan answers for a column when it is asked for that column alone, which needs these
sources; nothing where it gives no lineage. -/
def answerFor (settings : Settings) (plan : Plan) (column : Attribute) (sources : AttributeSet) :
    AttributeSet :=
  match (plan.extract settings (.ofList [(column, sources)])).result with
  | .ok m => m.sourcesOf column
  | .error _ => ∅

/-- The columns behind a column of a target. -/
def columnsBehind (settings : Settings) (target : Plan) (column : Attribute) : AttributeSet :=
  target.answerFor settings column (.singleton column)

/-- What the values assigned to a column draw on. -/
def drawnFor (settings : Settings) (source : Plan) (assignments : List Assignment)
    (column : Attribute) : AttributeSet :=
  source.answerFor settings column ((Lineage.ofAssignments assignments).sourcesOf column)

end Plan

section
variable {columns : List Attribute} {behind drawn : Attribute → AttributeSet}

/-- The columns behind columns are paired with what these draw on: each one has an entry of its
name that has all of that, and no entry has anything that is drawn on for other columns only. -/
structure LineageMap.Pairs (columns : List Attribute) (behind drawn : Attribute → AttributeSet)
    (m : LineageMap) : Prop where
  complete : ∀ column ∈ columns, ∀ t ∈ (behind column).attrs, ∃ entry ∈ m.entries,
    entry.1.name = some t.qualifiedName ∧ (drawn column).attrs ⊆ entry.2.attrs
  sound : ∀ entry ∈ m.entries, ∀ r ∈ entry.2.attrs, ∃ column ∈ columns,
    r ∈ (drawn column).attrs ∧ ∃ t ∈ (behind column).attrs, entry.1.name = some t.qualifiedName

/-- Each column draws on something that no other column draws on, and the columns behind them are
told apart by their qualified names. -/
structure Apart (columns : List Attribute) (behind drawn : Attribute → AttributeSet) :
    Prop where
  own : ∀ column ∈ columns, ∃ r ∈ (drawn column).attrs, ∀ other ∈ columns,
    r ∈ (drawn other).attrs → other = column
  names : ∀ column ∈ columns, ∀ other ∈ columns, ∀ t ∈ (behind column).attrs,
    ∀ u ∈ (behind other).attrs, t.qualifiedName = u.qualifiedName →
      t.underQualifiedName = u.underQualifiedName

namespace LineageMap

/-- The lists of the columns behind columns, as a merge shows them. -/
def shownBehind (columns : List Attribute) (behind : Attribute → AttributeSet) :
    List (List Attribute) :=
  columns.map fun column => (behind column).attrs.map Attribute.underQualifiedName

/-- The columns behind columns, one after another, and beside them what the columns draw on. -/
def paired (columns : List Attribute) (behind drawn : Attribute → AttributeSet) : LineageMap :=
  .ofList ((shownBehind columns behind).flatten.zip (columns.map drawn))

/-- At the place of a column stand the columns behind it. -/
theorem getElem?_shownBehind {i : Nat} {column : Attribute} (h : columns[i]? = some column) :
    (shownBehind columns behind)[i]? =
      some ((behind column).attrs.map Attribute.underQualifiedName) := by
  rw [shownBehind, List.getElem?_map, h]
  rfl

/-- What a merge shows are the columns behind one of the columns. -/
theorem mem_flatten_shownBehind {key : Attribute} :
    key ∈ (shownBehind columns behind).flatten ↔
      ∃ column ∈ columns, ∃ t ∈ (behind column).attrs, t.underQualifiedName = key := by
  simp [shownBehind, List.mem_flatten]

/-- An entry pairs what stands at one place. -/
theorem exists_place_of_mem_paired {entry : Attribute × AttributeSet}
    (h : entry ∈ (paired columns behind drawn).entries) : ∃ (i : Nat) (column : Attribute),
      columns[i]? = some column ∧ entry.2 = drawn column ∧
        (shownBehind columns behind).flatten[i]? = some entry.1 := by
  obtain ⟨i, hi⟩ := List.mem_iff_getElem?.1 (OrderedMap.mem_of_mem_ofList h)
  obtain ⟨hkey, hvalue⟩ := List.getElem?_zip_eq_some.1 hi
  rw [List.getElem?_map, Option.map_eq_some_iff] at hvalue
  obtain ⟨column, hcolumn, hdrawn⟩ := hvalue
  exact ⟨i, column, hcolumn, hdrawn.symm, hkey⟩

/-- What stands at one place is paired, if nothing is shown twice. -/
theorem mem_paired_of_place {i : Nat} {column key : Attribute}
    (hnodup : (shownBehind columns behind).flatten.Nodup) (hcolumn : columns[i]? = some column)
    (hkey : (shownBehind columns behind).flatten[i]? = some key) :
    (key, drawn column) ∈ (paired columns behind drawn).entries := by
  rw [paired, OrderedMap.entries_ofList_zip hnodup]
  refine List.mem_iff_getElem?.2 ⟨i, List.getElem?_zip_eq_some.2 ⟨hkey, ?_⟩⟩
  rw [List.getElem?_map, hcolumn]
  rfl

/-- Columns in order are paired with what they draw on. -/
theorem pairs_of_inOrder (h : InOrder (shownBehind columns behind)) :
    (paired columns behind drawn).Pairs columns behind drawn := by
  obtain ⟨hnodup, hplace⟩ := inOrder_iff.1 h
  have hplaced : ∀ (i : Nat) (column : Attribute), columns[i]? = some column →
      ∀ t ∈ (behind column).attrs, (shownBehind columns behind).flatten[i]? =
        some t.underQualifiedName := fun i column hi t ht =>
    hplace i _ (getElem?_shownBehind hi) _ (List.mem_map_of_mem ht)
  constructor
  · intro column hcolumn t ht
    obtain ⟨i, hi⟩ := List.mem_iff_getElem?.1 hcolumn
    exact ⟨_, mem_paired_of_place hnodup hi (hplaced i column hi t ht), rfl, List.Subset.refl _⟩
  · intro entry hentry r hr
    obtain ⟨i, column, hi, hdrawn, hkey⟩ := exists_place_of_mem_paired hentry
    -- the entry's column stands at one place only, that of the column that it is behind
    obtain ⟨other, hother, t, ht, hshown⟩ := mem_flatten_shownBehind.1 (List.mem_of_getElem? hkey)
    obtain ⟨j, hj⟩ := List.mem_iff_getElem?.1 hother
    have hlt : j < (shownBehind columns behind).flatten.length :=
      (List.getElem?_eq_some_iff.1 (hplaced j other hj t ht)).1
    have hsame : (shownBehind columns behind).flatten[j]? =
        (shownBehind columns behind).flatten[i]? := by
      rw [hplaced j other hj t ht, hkey, hshown]
    obtain rfl := (List.getElem?_inj hlt hnodup).1 hsame
    obtain rfl := Option.some.inj (hi.symm.trans hj)
    exact ⟨column, List.mem_of_getElem? hi, hdrawn ▸ hr, t, ht, hshown ▸ rfl⟩

section
variable (hapart : Apart columns behind drawn)
include hapart

/-- Where pairs are found by what is drawn on for one column only, the entry of a column that is
behind it has just what is drawn on for it, and the column stands at its place. -/
theorem exists_place_of_pairs (h : (paired columns behind drawn).Pairs columns behind drawn)
    {column t : Attribute} (hcolumn : column ∈ columns) (ht : t ∈ (behind column).attrs) :
    (t.underQualifiedName, drawn column) ∈ (paired columns behind drawn).entries ∧
      ∃ i : Nat, columns[i]? = some column ∧
        (shownBehind columns behind).flatten[i]? = some t.underQualifiedName := by
  obtain ⟨r, hr, hown⟩ := hapart.own column hcolumn
  obtain ⟨entry, hentry, hname, hdraws⟩ := h.complete column hcolumn t ht
  obtain ⟨i, other, hi, hdrawn, hkey⟩ := exists_place_of_mem_paired hentry
  obtain rfl : other = column :=
    hown other (List.mem_of_getElem? hi) (hdrawn ▸ hdraws hr)
  obtain ⟨shown, hshown, u, hu, hukey⟩ := mem_flatten_shownBehind.1 (List.mem_of_getElem? hkey)
  have hqualified : t.qualifiedName = u.qualifiedName := by
    rw [← hukey] at hname
    exact (Option.some.inj hname).symm
  have hentryKey : entry.1 = t.underQualifiedName := by
    rw [hapart.names _ hcolumn _ hshown t ht u hu hqualified, hukey]
  rw [← hentryKey, ← hdrawn]
  exact ⟨hentry, i, hi, hkey⟩

/-- Pairs that are found by what is drawn on for one column only are in order. -/
theorem inOrder_of_pairs (hcolumns : columns.Nodup)
    (h : (paired columns behind drawn).Pairs columns behind drawn) :
    InOrder (shownBehind columns behind) := by
  have hdisjoint : ∀ column ∈ columns, ∀ other ∈ columns, ∀ t ∈ (behind column).attrs,
      ∀ u ∈ (behind other).attrs, t.underQualifiedName = u.underQualifiedName → column = other := by
    intro column hcolumn other hother t ht u hu hsame
    obtain ⟨hentry, -⟩ := exists_place_of_pairs hapart h hcolumn ht
    obtain ⟨hentry', -⟩ := exists_place_of_pairs hapart h hother hu
    rw [← hsame] at hentry'
    have hdrawn : drawn column = drawn other :=
      Option.some.inj ((OrderedMap.get?_of_mem hentry).symm.trans (OrderedMap.get?_of_mem hentry'))
    obtain ⟨r, hr, hown⟩ := hapart.own other hother
    exact hown column hcolumn (hdrawn ▸ hr)
  have hnodup : (shownBehind columns behind).flatten.Nodup := by
    rw [shownBehind, ← List.flatMap_def, List.nodup_flatMap]
    refine ⟨fun column hcolumn => ?_, ?_⟩
    · refine LineageMap.nodup_of_nodup_ids ?_
      rw [List.map_map]
      exact (behind column).nodup_ids
    · refine hcolumns.imp_of_mem fun {column other} hcolumn hother hne key hkey hkey' => ?_
      obtain ⟨t, ht, rfl⟩ := List.mem_map.1 hkey
      obtain ⟨u, hu, hsame⟩ := List.mem_map.1 hkey'
      exact hne (hdisjoint column hcolumn other hother t ht u hu hsame.symm)
  refine inOrder_iff.2 ⟨hnodup, fun i shown hi key hkey => ?_⟩
  rw [shownBehind, List.getElem?_map, Option.map_eq_some_iff] at hi
  obtain ⟨column, hi, rfl⟩ := hi
  obtain ⟨t, ht, rfl⟩ := List.mem_map.1 hkey
  obtain ⟨-, j, hj, hplace⟩ := exists_place_of_pairs hapart h (List.mem_of_getElem? hi) ht
  have hlt : i < columns.length := (List.getElem?_eq_some_iff.1 hi).1
  obtain rfl := (List.getElem?_inj hlt hcolumns).1 (hi.trans hj.symm)
  exact hplace

end

end LineageMap

end

/-! ## What a plan answers for one column -/

/-- A request cut down to one column asks for that column alone. -/
theorem OrderedMap.restrict_eq_ofList {request : LineageMap} {column : Attribute}
    (h : column ∈ request.keys) :
    request.restrict (fun key => key == column) =
      .ofList [(column, request.sourcesOf column)] := by
  have hnodup : request.keys.Nodup := request.nodup_keys
  have hkeys : (request.restrict (fun key => key == column)).keys = [column] := by
    rw [keys_restrict, List.filter_beq, List.count_eq_one_of_mem hnodup h]
    rfl
  obtain ⟨entry, hentries, rfl⟩ := List.map_eq_singleton_iff.1 hkeys
  have hentry : entry ∈ request.entries :=
    (mem_restrict.1 (hentries ▸ List.mem_singleton_self entry)).1
  rw [LineageMap.sourcesOf_of_mem hentry]
  exact ext hentries

/-- A plan that only reads hands requests on to plans that only read. -/
theorem Plan.onlyReads_of_mem_handsTo {plan child : Plan} (hreads : plan.onlyReads = true)
    (hchild : child ∈ plan.handsTo) : child.onlyReads = true := by
  cases plan with
  | project | aggregate | window | expand =>
    rw [List.mem_singleton.1 hchild]
    exact hreads
  | cteDefinition definition =>
    cases definition
    rw [List.mem_singleton.1 hchild]
    exact hreads
  | join left right type condition =>
    simp only [onlyReads, Bool.and_eq_true] at hreads
    rw [handsTo] at hchild
    split at hchild
    · simp only [List.mem_cons, List.not_mem_nil, or_false] at hchild
      rcases hchild with rfl | rfl
      · exact hreads.1
      · exact hreads.2
    · rw [List.mem_singleton.1 hchild]
      exact hreads.1
  | operator name children output => exact onlyReadAll_iff.1 hreads child hchild
  | withCte definitions body =>
    rw [handsTo] at hchild
    split at hchild
    · next inlined hinlined =>
      rw [List.mem_singleton.1 hchild]
      exact (onlyReads_inline (fun _ h => absurd h List.not_mem_nil) _ hreads).of_ok hinlined
    · cases hchild
  | _ => cases hchild

namespace Lineage

variable {settings : Settings} {plan : Plan} {request answer : LineageMap}

/-- A plan that only reads answers a request for columns with its columns, or not at all. -/
theorem keys_of_onlyReads (n : Nat) : ∀ {plan : Plan} {request m : LineageMap},
    plan.onlyReads = true → request.isEmpty = false →
    (extractWithin settings n plan request).result = .ok m →
    m.keys = request.keys ∨ m.keys = [] := by
  induction n with
  | zero => intro plan request m _ _ hm; cases hm
  | succ n ih =>
    intro plan request m hplan hne hm
    by_cases hquery : plan.isQueryNode = true
    · refine holds_of_step (C := fun keys => keys = request.keys ∨ keys = [])
        (holdsMerged_eq_or_nil request.keys) (Or.inl rfl) (fun _ => Or.inr rfl) hquery hne ?_ hm
      intro child hchild inner answer hkeys hanswer
      rw [← hkeys]
      exact ih (Plan.onlyReads_of_mem_handsTo hplan hchild)
        ((OrderedMap.isEmpty_eq_of_keys_eq hkeys).trans hne) hanswer
    · cases plan with
      | commandResult output command =>
        have hcommand : command.onlyReads = true := hplan
        exact ih hcommand hne hm
      | project | aggregate | window | expand | join | union | relation | localRelation | oneRow
      | view | cached | cteReference | cteDefinition | withCte | operator => exact absurd rfl hquery
      | _ => cases hplan

/-- A plan that answers for a column among others answers the same for that column alone. -/
theorem answerFor_of_extractWithin {n : Nat} (hn : n ≤ settings.maxPlanDepth + 1)
    (hreads : plan.onlyReads = true)
    (hanswer : (extractWithin settings n plan request).result = .ok answer) {column : Attribute}
    (hcolumn : column ∈ request.keys) :
    plan.answerFor settings column (request.sourcesOf column) = answer.sourcesOf column := by
  have hkept : (request.restrict fun key => key == column).isEmpty = false := by
    rw [OrderedMap.restrict_eq_ofList hcolumn]
    rfl
  have halone : (extractWithin settings n plan (request.restrict fun key => key == column)).result =
      .ok (answer.restrict fun key => key == column) := by
    rcases partOf_extractWithin n hreads hkept with hnameless | hpart
    · rw [hanswer] at hnameless
      cases hnameless
    · rw [hpart, hanswer]
      rfl
  rw [Plan.answerFor, ← OrderedMap.restrict_eq_ofList hcolumn, extract_of_extractWithin hn halone]
  have hget : OrderedMap.get? (answer.restrict fun key => key == column) column =
      answer.get? column := OrderedMap.get?_restrict answer (beq_self_eq_true column)
  exact congrArg (·.getD ∅) hget

/-! ## Merging into a plan -/

variable {target : Plan} {sources : List Attribute} {readFrom : Option TableName}
variable {assignments : List Assignment}

/-- The columns that a merge writes are those behind the assigned columns. -/
theorem flatMap_values_of_target {levels : Nat} (hlevels : levels ≤ settings.maxPlanDepth + 1)
    (hreads : target.onlyReads = true) {columns : List Attribute} (hne : columns ≠ [])
    (hnodup : columns.Nodup)
    (hanswer : (extractWithin settings levels target (.identity columns)).result = .ok answer) :
    answer.values.flatMap AttributeSet.attrs =
      columns.flatMap fun column => (target.columnsBehind settings column).attrs := by
  have hentries := LineageMap.entries_identity hnodup
  have hkeys : (LineageMap.identity columns).keys = columns := by
    rw [OrderedMap.keys, hentries, List.map_map]
    exact List.map_id columns
  have hasked : (LineageMap.identity columns).isEmpty = false := by
    rw [← OrderedMap.isEmpty_keys, hkeys, List.isEmpty_eq_false_iff]
    exact hne
  have hbehind : ∀ column ∈ columns,
      target.columnsBehind settings column = answer.sourcesOf column := by
    intro column hcolumn
    have hself : (LineageMap.identity columns).sourcesOf column = .singleton column := by
      have hentry : (column, AttributeSet.singleton column) ∈
          (LineageMap.identity columns).entries := by
        rw [hentries]
        exact List.mem_map_of_mem hcolumn
      exact LineageMap.sourcesOf_of_mem hentry
    rw [Plan.columnsBehind, ← hself]
    exact answerFor_of_extractWithin hlevels hreads hanswer (hkeys.symm ▸ hcolumn)
  have hall : columns.flatMap (fun column => (target.columnsBehind settings column).attrs) =
      columns.flatMap fun column => (answer.sourcesOf column).attrs :=
    List.flatMap_congr fun column hcolumn => by rw [hbehind column hcolumn]
  rw [hall, LineageMap.values_eq_map_keys, List.flatMap_map]
  rcases keys_of_onlyReads levels hreads hasked hanswer with hsame | hnone
  · rw [hsame, hkeys]
  · obtain rfl := LineageMap.eq_empty_of_keys_eq_nil hnone
    exact (List.flatMap_eq_nil_iff.2 fun column _ => rfl).symm

/-- The source answers for each assigned column with what is drawn on for it. -/
theorem values_of_source {levels : Nat} (hlevels : levels ≤ settings.maxPlanDepth + 1)
    (hne : assignments ≠ [])
    (hanswer : (extractWithin settings levels (.relation sources readFrom)
      (ofAssignments assignments)).result = .ok answer) :
    answer.values = (assignments.map Assignment.key).eraseDups.map
      ((Plan.relation sources readFrom).drawnFor settings assignments) := by
  have hasked : (ofAssignments assignments).isEmpty = false := by
    rw [← OrderedMap.isEmpty_keys, keys_ofAssignments, List.isEmpty_eq_false_iff]
    exact eraseDups_ne_nil fun hnil => hne (List.map_eq_nil_iff.1 hnil)
  have hkeys : answer.keys = (assignments.map Assignment.key).eraseDups := by
    cases levels with
    | zero => cases hanswer
    | succ levels =>
      rw [extractWithin, step_relation] at hanswer
      rw [eq_answerOf_of_ofRelation hanswer, keys_answerOf hasked, keys_ofAssignments]
  rw [LineageMap.values_eq_map_keys, hkeys]
  refine List.map_congr_left fun column hcolumn => ?_
  rw [← keys_ofAssignments] at hcolumn
  exact (answerFor_of_extractWithin hlevels rfl hanswer hcolumn).symm

/-- The source answers where what the values refer to is its own or has a name. -/
theorem exists_answer_of_source {levels : Nat} (hlevels : 0 < levels)
    (settings : Settings) (readFrom : Option TableName)
    (hvalues : ∀ a ∈ assignments, ∀ r ∈ a.value.attributes,
      r.id ∈ sources.map Attribute.id ∨ r.isNamed = true) :
    ∃ answer, (extractWithin settings levels (.relation sources readFrom)
      (ofAssignments assignments)).result = .ok answer := by
  obtain ⟨below, rfl⟩ : ∃ below, levels = below + 1 := ⟨levels - 1, by omega⟩
  have hcompared : (ofAssignments assignments).All (Comparable sources) := by
    apply all_ofAssignments
    intro a ha r hr
    refine (hvalues a ha r hr).imp_left fun hown => ?_
    obtain ⟨c, hc, hid⟩ := List.mem_map.1 hown
    have hany : sources.any (·.id == r.id) = true := List.any_eq_true.2 ⟨c, hc, beq_iff_eq.2 hid⟩
    simp [LineageMap.comparesName, hany]
  exact ⟨_, by rw [extractWithin, step_relation]; exact result_ofRelation_of_compared hcompared⟩

/-- A merge pairs the columns behind its assigned columns with what is drawn on for these, where the
target answers with columns that have names. -/
theorem extract_merge_eq_ok {matched notMatched : List MergeAction}
    (hassignments : (matched ++ notMatched).flatMap MergeAction.assignments = assignments)
    (hne : assignments ≠ []) (hreads : target.onlyReads = true)
    (hvalues : ∀ a ∈ assignments, ∀ r ∈ a.value.attributes,
      r.id ∈ sources.map Attribute.id ∨ r.isNamed = true) {m : LineageMap} :
    ((Plan.merge target (.relation sources readFrom) matched notMatched).extract settings
        request).result = .ok m ↔
      (∃ answer, (extractWithin settings settings.maxPlanDepth target
        (.identity (assignments.map Assignment.key).eraseDups)).result = .ok answer ∧
        ∀ a ∈ answer.values.flatMap AttributeSet.attrs, a.isNamed = true) ∧
      m = .paired (assignments.map Assignment.key).eraseDups (target.columnsBehind settings)
        ((Plan.relation sources readFrom).drawnFor settings assignments) := by
  have hnodup : (assignments.map Assignment.key).eraseDups.Nodup := nodup_eraseDups _
  have hcolumns : (assignments.map Assignment.key).eraseDups ≠ [] :=
    eraseDups_ne_nil fun hnil => hne (List.map_eq_nil_iff.1 hnil)
  obtain ⟨read, hread⟩ := exists_answer_of_source settings.maxPlanDepth_pos settings readFrom
    hvalues
  have hdrawn := values_of_source (Nat.le_succ _) hne hread
  have hmerged : ∀ answer : LineageMap,
      (extractWithin settings settings.maxPlanDepth target
        (.identity (assignments.map Assignment.key).eraseDups)).result = .ok answer →
      (ofMerge answer read).result =
        if (answer.values.flatMap AttributeSet.attrs).all Attribute.isNamed = true then
          .ok (.paired (assignments.map Assignment.key).eraseDups (target.columnsBehind settings)
            ((Plan.relation sources readFrom).drawnFor settings assignments))
        else .error .namelessColumn := by
    intro answer hanswer
    have hwritten := flatMap_values_of_target (Nat.le_succ _) hreads hcolumns hnodup hanswer
    have hshown : (answer.values.flatMap AttributeSet.attrs).map Attribute.underQualifiedName =
        (LineageMap.shownBehind (assignments.map Assignment.key).eraseDups
          (target.columnsBehind settings)).flatten := by
      rw [hwritten, List.map_flatMap, List.flatMap_def, LineageMap.shownBehind]
    -- the target is asked for the assigned columns, the source for what their values refer to
    rw [LineageMap.paired, ← hshown, ← hdrawn, ofMerge]
    split <;> rfl
  rw [extract_eq, extractWithin, step, stepAt, hassignments, result_bind_eq_ok, keys_ofAssignments]
  constructor
  · rintro ⟨answer, hanswer, hm⟩
    rw [result_bind_of_ok hread, hmerged answer hanswer] at hm
    split at hm
    · next hnamed =>
      exact ⟨⟨answer, hanswer, List.all_eq_true.1 hnamed⟩, (Except.ok.inj hm).symm⟩
    · cases hm
  · rintro ⟨⟨answer, hanswer, hnamed⟩, rfl⟩
    refine ⟨answer, hanswer, ?_⟩
    rw [result_bind_of_ok hread, hmerged answer hanswer, if_pos (List.all_eq_true.2 hnamed)]

end Lineage

namespace Plan

open Lineage

/-- A merge into a plan that only reads, from a base table, has a lineage if and only if the plan
answers for the assigned columns with columns that have names. Then the columns behind each assigned
column are paired with what is drawn on for it where they are in order: each assigned column has one
behind it at most, no two have the same, and those without come last. Where the assigned columns are
apart, they are paired only there. -/
theorem extract_merge_pairsAssigned (settings : Settings) {target : Plan}
    (hreads : target.onlyReads = true) (sources : List Attribute) (readFrom : Option TableName)
    {matched notMatched : List MergeAction} {assignments : List Assignment}
    (hassignments : (matched ++ notMatched).flatMap MergeAction.assignments = assignments)
    (hne : assignments ≠ [])
    (hvalues : ∀ a ∈ assignments, ∀ r ∈ a.value.attributes,
      r.id ∈ sources.map Attribute.id ∨ r.isNamed = true) (request : LineageMap) :
    let merge := Plan.merge target (.relation sources readFrom) matched notMatched
    let columns := (assignments.map Assignment.key).eraseDups
    let behind := target.columnsBehind settings
    let drawn := (Plan.relation sources readFrom).drawnFor settings assignments
    ((∃ m, (merge.extract settings request).result = .ok m) ↔
      ∃ answer, (extractWithin settings settings.maxPlanDepth target
        (.identity columns)).result = .ok answer ∧
          ∀ a ∈ answer.values.flatMap AttributeSet.attrs, a.isNamed = true) ∧
    ∀ m, (merge.extract settings request).result = .ok m →
      (InOrder (LineageMap.shownBehind columns behind) → m.Pairs columns behind drawn) ∧
      (Apart columns behind drawn → m.Pairs columns behind drawn →
        InOrder (LineageMap.shownBehind columns behind)) := by
  intro merge columns behind drawn
  have hmerge : ∀ m, (merge.extract settings request).result = .ok m ↔
      (∃ answer, (extractWithin settings settings.maxPlanDepth target
        (.identity columns)).result = .ok answer ∧
          ∀ a ∈ answer.values.flatMap AttributeSet.attrs, a.isNamed = true) ∧
        m = .paired columns behind drawn :=
    fun m => extract_merge_eq_ok hassignments hne hreads hvalues
  have hnodup : columns.Nodup := by
    have hkeys : (ofAssignments assignments).keys = columns := keys_ofAssignments assignments
    exact hkeys ▸ OrderedMap.nodup_keys _
  constructor
  · simp only [hmerge]
    exact exists_and_left.trans (and_iff_left ⟨_, rfl⟩)
  · intro m hm
    obtain ⟨-, rfl⟩ := (hmerge m).1 hm
    exact ⟨LineageMap.pairs_of_inOrder, fun hapart => LineageMap.inOrder_of_pairs hapart hnodup⟩

/-- A view `v (x, z)` over a table `t (a, b, c)`, whose first column is computed and whose second is
`c`. -/
def computedView (first : Expr) : Plan :=
  .view ⟨"v", none, none⟩ [⟨4, some "x", []⟩, ⟨5, some "z", []⟩]
    (.project [.aliased (.mk first (some "x") 6), .column ⟨3, some "c", []⟩]
      (.relation [⟨1, some "a", []⟩, ⟨2, some "b", []⟩, ⟨3, some "c", []⟩]
        (some ⟨"t", none, none⟩))) false

/-- The view of `abs(a)` and `c`. -/
def viewOfAbs : Plan := computedView (.call "abs" [.column ⟨1, some "a", []⟩])

/-- The view of `a + b` and `c`. -/
def viewOfSum : Plan :=
  computedView (.call "add" [.column ⟨1, some "a", []⟩, .column ⟨2, some "b", []⟩])

/-- `UPDATE SET x = p, z = q` -/
def updateBoth : List MergeAction :=
  [.update [.mk ⟨4, some "x", []⟩ (.column ⟨7, some "p", []⟩),
    .mk ⟨5, some "z", []⟩ (.column ⟨8, some "q", []⟩)] none]

/-- A table `s (p, q)`. -/
def tableOfBoth : Plan :=
  .relation [⟨7, some "p", []⟩, ⟨8, some "q", []⟩] (some ⟨"s", none, none⟩)

/-- A merge into a view whose columns have one column each behind them pairs these. -/
theorem extract_merge_viewOfAbs_pairs :
    ∃ m, ((Plan.merge viewOfAbs tableOfBoth updateBoth []).extract .standard ∅).result = .ok m ∧
      m.Pairs [⟨4, some "x", []⟩, ⟨5, some "z", []⟩] (viewOfAbs.columnsBehind .standard)
        (tableOfBoth.drawnFor .standard (updateBoth.flatMap MergeAction.assignments)) ∧
      Apart [⟨4, some "x", []⟩, ⟨5, some "z", []⟩] (viewOfAbs.columnsBehind .standard)
        (tableOfBoth.drawnFor .standard (updateBoth.flatMap MergeAction.assignments)) := by
  have hreads : viewOfAbs.onlyReads = true := rfl
  have hassigned : (updateBoth ++ []).flatMap MergeAction.assignments =
      updateBoth.flatMap MergeAction.assignments := rfl
  obtain ⟨hexists, hpairs⟩ := extract_merge_pairsAssigned .standard hreads
    [⟨7, some "p", []⟩, ⟨8, some "q", []⟩] (some ⟨"s", none, none⟩) hassigned (by decide)
    (by decide) ∅
  obtain ⟨m, hm⟩ := hexists.2 ⟨_, rfl, by decide +kernel⟩
  exact ⟨m, hm, (hpairs m hm).1 ⟨[⟨1, some "t.a", ["t"]⟩, ⟨3, some "t.c", ["t"]⟩], 0, by decide,
    by decide +kernel⟩, by decide +kernel, by decide +kernel⟩

/-- The first column of a view over `a + b` has two columns behind it: the second of them is paired
with what is drawn on for the view's second column, and the column behind that is lost. -/
theorem extract_merge_viewOfSum_not_pairs :
    ((Plan.merge viewOfSum tableOfBoth updateBoth []).extract .standard ∅).result =
        .ok (.ofList [(⟨1, some "t.a", ["t"]⟩, .singleton ⟨7, some "p", ["s"]⟩),
          (⟨2, some "t.b", ["t"]⟩, .singleton ⟨8, some "q", ["s"]⟩)]) ∧
      ¬ LineageMap.Pairs [⟨4, some "x", []⟩, ⟨5, some "z", []⟩] (viewOfSum.columnsBehind .standard)
        (tableOfBoth.drawnFor .standard (updateBoth.flatMap MergeAction.assignments))
        (.ofList [(⟨1, some "t.a", ["t"]⟩, .singleton ⟨7, some "p", ["s"]⟩),
          (⟨2, some "t.b", ["t"]⟩, .singleton ⟨8, some "q", ["s"]⟩)]) := by
  refine ⟨by decide +kernel, fun h => ?_⟩
  obtain ⟨entry, hentry, hname, -⟩ := h.complete ⟨5, some "z", []⟩ (by decide)
    ⟨3, some "c", ["t"]⟩ (by decide +kernel)
  rcases List.mem_cons.1 (OrderedMap.mem_of_mem_ofList hentry) with rfl | hrest
  · exact absurd hname (by decide)
  · obtain rfl := List.mem_singleton.1 hrest
    exact absurd hname (by decide)

end Plan

end ColumnTrace
