import ColumnTrace.Proofs.Lineage.Depth
import ColumnTrace.Proofs.Lineage.UnknownColumns

/-!
# A join and its sides

A join that has the columns of both sides sends the whole request into both. The side that a column
belongs to answers it; the other side should not be seen in the answer. It is seen if and only if it
hands back a column that it does not know, and the answer of the column's own side does not cover
what is handed back (`extract_join_isolated_iff`). Base tables hand nothing back of a plain column;
a union, an opened view, a stored result and the row of a query without tables hand back the column
itself, which a derived table on the own side does not cover.
-/

set_option autoImplicit false

namespace ColumnTrace

/-- The attribute takes the place of an attribute of its identity that comes before it. -/
def Attribute.Overrides (s e : Attribute) : Prop :=
  s = e ∨ (e.qualifier.isEmpty = true ∧ s.qualifier.isEmpty = false)

/-- The attribute keeps its place against an attribute of its identity that comes after it. -/
def Attribute.Withstands (s e : Attribute) : Prop :=
  s = e ∨ s.qualifier.isEmpty = false ∨ e.qualifier.isEmpty = true

namespace AttributeSet

/-- What stands before a set is not seen if and only if the set overrides it. -/
theorem sameElements_union_right_iff {foreign own : AttributeSet} :
    (foreign ∪ own).sameElements own = true ↔
      ∀ e ∈ foreign.attrs, ∃ s ∈ own.attrs, s.id = e.id ∧ s.Overrides e := by
  rw [sameElements_iff]
  constructor
  · intro h e he
    have hfound := h e.id
    rw [find?_union, find?_of_mem he] at hfound
    cases hown : own.find? e.id with
    | none =>
      rw [hown, prefer_none_right] at hfound
      cases hfound
    | some s =>
      rw [hown] at hfound
      obtain ⟨hs, hid⟩ := find?_eq_some_iff.1 hown
      exact ⟨s, hs, hid, prefer_eq_right_iff.1 hfound⟩
  · intro h id
    rw [find?_union]
    cases hforeign : foreign.find? id with
    | none => exact prefer_none_left _
    | some e =>
      obtain ⟨he, rfl⟩ := find?_eq_some_iff.1 hforeign
      obtain ⟨s, hs, hid, hover⟩ := h e he
      rw [← hid, find?_of_mem hs]
      exact prefer_eq_right_iff.2 hover

/-- What stands after a set is not seen if and only if the set withstands it. -/
theorem sameElements_union_left_iff {own foreign : AttributeSet} :
    (own ∪ foreign).sameElements own = true ↔
      ∀ e ∈ foreign.attrs, ∃ s ∈ own.attrs, s.id = e.id ∧ s.Withstands e := by
  rw [sameElements_iff]
  constructor
  · intro h e he
    have hfound := h e.id
    rw [find?_union, find?_of_mem he] at hfound
    cases hown : own.find? e.id with
    | none =>
      rw [hown, prefer_none_left] at hfound
      cases hfound
    | some s =>
      rw [hown] at hfound
      obtain ⟨hs, hid⟩ := find?_eq_some_iff.1 hown
      exact ⟨s, hs, hid, prefer_eq_left_iff.1 hfound⟩
  · intro h id
    rw [find?_union]
    cases hforeign : foreign.find? id with
    | none => exact prefer_none_right _
    | some e =>
      obtain ⟨he, rfl⟩ := find?_eq_some_iff.1 hforeign
      obtain ⟨s, hs, hid, hkeeps⟩ := h e he
      rw [← hid, find?_of_mem hs]
      exact prefer_eq_left_iff.2 hkeeps

end AttributeSet

/-- All columns of the request and all their dependencies are among these. -/
def LineageMap.AsksOnly (request : LineageMap) (columns : List Attribute) : Prop :=
  ∀ entry ∈ request.entries, entry.1 ∈ columns ∧ ∀ a ∈ entry.2.attrs, a ∈ columns

instance (request : LineageMap) (columns : List Attribute) :
    Decidable (request.AsksOnly columns) :=
  inferInstanceAs (Decidable (∀ entry ∈ request.entries,
    entry.1 ∈ columns ∧ ∀ a ∈ entry.2.attrs, a ∈ columns))

/-- The plan answers the request for each of its columns with the same sources as the map. -/
def Plan.AnswersAs (settings : Settings) (plan : Plan) (request own : LineageMap) : Prop :=
  ∃ m, (plan.extract settings request).result = .ok m ∧ m.keys = request.keys ∧
    ∀ key ∈ request.keys, (m.sourcesOf key).sameElements (own.sourcesOf key) = true

/-- Whatever the plan hands back of a request is covered by an attribute of the same identity in
this answer. -/
def Plan.Covered (settings : Settings) (plan : Plan) (covers : Attribute → Attribute → Prop)
    (request own : LineageMap) : Prop :=
  ∀ entry ∈ request.entries, ∀ d ∈ entry.2.attrs, ∀ e, plan.handedBack? settings d = some e →
    ∃ s ∈ (own.sourcesOf entry.1).attrs, s.id = e.id ∧ covers s e

namespace Lineage

open Traced

variable {settings : Settings} {left right : Plan} {type : JoinType} {condition : Option Expr}
variable {request l r m : LineageMap}

/-! ## Joins of whole plans -/

/-- A join that is answered is answered by its sides, each traced on its own. -/
theorem extract_sides_of_join (hexposes : type.exposesRight = true)
    (hm : ((Plan.join left right type condition).extract settings request).result = .ok m) :
    ∃ l r, (left.extract settings request).result = .ok l ∧
      (right.extract settings request).result = .ok r ∧ m = l.merge r := by
  rw [extract_eq, extractWithin] at hm
  obtain ⟨l, r, hl, hr, hmerge⟩ := (step_join hexposes).1 hm
  exact ⟨l, r, extract_of_extractWithin (Nat.le_succ _) hl,
    extract_of_extractWithin (Nat.le_succ _) hr, hmerge⟩

/-- Two sides that are answered make an answer of the join, unless it goes too deep. -/
theorem extract_join_of_sides (hexposes : type.exposesRight = true)
    (hdeep : ¬ RanOut ((Plan.join left right type condition).extract settings request))
    (hl : (left.extract settings request).result = .ok l)
    (hr : (right.extract settings request).result = .ok r) :
    ((Plan.join left right type condition).extract settings request).result =
      .ok (l.merge r) := by
  have hjoin : (Plan.join left right type condition).extract settings request =
      ofChildren (extractWithin settings settings.maxPlanDepth) [left, right] request := by
    rw [extract_eq, extractWithin, step, stepAt, if_pos hexposes]
  rw [hjoin] at hdeep ⊢
  have hpair : ofChildren (extractWithin settings settings.maxPlanDepth) [left, right] request =
      extractWithin settings settings.maxPlanDepth left request >>= fun l =>
        extractWithin settings settings.maxPlanDepth right request >>= fun r =>
          pure (.mergeAll [l, r]) := by
    simp only [ofChildren, List.mapM_cons, List.mapM_nil, bind_assoc, pure_bind]
  rw [hpair] at hdeep
  have hl' := extractWithin_of_extract (fun hran => hdeep (hran.bind _)) hl
  have hr' := extractWithin_of_extract (fun hran => hdeep (.of_ok hl' (hran.bind _))) hr
  exact result_ofChildren_pair.2 ⟨l, r, hl', hr', rfl⟩

/-- The sources that a merged answer has are those of one side if and only if what the other side
hands back is covered. -/
theorem sameElements_iff_covered {other : Plan} {answer own : LineageMap}
    {covers : Attribute → Attribute → Prop} (hquery : other.isQuery = true)
    (hforeign : ∀ entry ∈ request.entries, other.KnowsNothingOf entry)
    (hanswer : (other.extract settings request).result = .ok answer)
    (hcovers : ∀ key, (m.sourcesOf key).sameElements (own.sourcesOf key) = true ↔
      ∀ e ∈ (answer.sourcesOf key).attrs, ∃ s ∈ (own.sourcesOf key).attrs,
        s.id = e.id ∧ covers s e) :
    (∀ key ∈ request.keys, (m.sourcesOf key).sameElements (own.sourcesOf key) = true) ↔
      other.Covered settings covers request own := by
  rw [extract_eq] at hanswer
  constructor
  · intro h entry hentry d hd e hback
    have hmem := (mem_sourcesOf_unknown hquery hanswer hentry (hforeign entry hentry)).2
      ⟨d, hd, hback⟩
    exact (hcovers entry.1).1 (h entry.1 (OrderedMap.key_mem_of_entry_mem hentry)) e hmem
  · intro h key hkey
    obtain ⟨entry, hentry, rfl⟩ := List.mem_map.1 hkey
    rw [hcovers]
    intro e he
    obtain ⟨d, hd, hback⟩ :=
      (mem_sourcesOf_unknown hquery hanswer hentry (hforeign entry hentry)).1 he
    exact h entry hentry d hd e hback

/-- A plan knows nothing of a request for columns that it does not have. -/
theorem knowsNothingOf_of_asksOnly {columns : List Attribute} {plan : Plan}
    (hasks : request.AsksOnly columns) (hcolumns : ∀ a ∈ columns, a.id ∉ plan.columnIds) :
    ∀ entry ∈ request.entries, plan.KnowsNothingOf entry := by
  intro entry hentry
  obtain ⟨hkey, hdeps⟩ := hasks entry hentry
  exact ⟨hcolumns _ hkey, fun a ha => hcolumns a (hdeps a ha)⟩

/-- A join answers as a map if and only if it is not too deep, both sides have an answer, and these
together are the map. -/
theorem answersAs_join_iff {own : LineageMap} (hexposes : type.exposesRight = true)
    (hleft : left.isQuery = true) (hright : right.isQuery = true)
    (hasked : request.isEmpty = false) :
    (Plan.join left right type condition).AnswersAs settings request own ↔
      ¬ RanOut ((Plan.join left right type condition).extract settings request) ∧
      ∃ l r, (left.extract settings request).result = .ok l ∧
        (right.extract settings request).result = .ok r ∧
        ∀ key ∈ request.keys,
          ((l.merge r).sourcesOf key).sameElements (own.sourcesOf key) = true := by
  constructor
  · rintro ⟨m, hm, -, hsame⟩
    obtain ⟨l, r, hl, hr, rfl⟩ := extract_sides_of_join hexposes hm
    exact ⟨not_ranOut_of_ok hm, l, r, hl, hr, hsame⟩
  · rintro ⟨hdeep, l, r, hl, hr, hsame⟩
    refine ⟨l.merge r, extract_join_of_sides hexposes hdeep hl hr, ?_, hsame⟩
    rw [extract_eq] at hl hr
    have hlkeys := keys_of_request _ hleft hasked hl
    have hrkeys := keys_of_request _ hright hasked hr
    rw [LineageMap.keys_merge_of_keys_eq (hrkeys.trans hlkeys.symm), hlkeys]

/-- A request for columns of one side of a join is answered as by that side alone if and only if the
join is not too deep, the other side has an answer, and the answer of the own side covers whatever
the other side hands back. The right side's attributes come first in the answer of a join. -/
theorem extract_join_isolated_iff (hexposes : type.exposesRight = true)
    (hleft : left.isQuery = true) (hright : right.isQuery = true)
    (hleftOnly : ∀ a ∈ left.output, a.id ∉ right.columnIds)
    (hrightOnly : ∀ a ∈ right.output, a.id ∉ left.columnIds) (hasked : request.isEmpty = false) :
    (request.AsksOnly left.output → ∀ l, (left.extract settings request).result = .ok l →
      ((Plan.join left right type condition).AnswersAs settings request l ↔
        ¬ RanOut ((Plan.join left right type condition).extract settings request) ∧
        (∃ r, (right.extract settings request).result = .ok r) ∧
        right.Covered settings Attribute.Overrides request l)) ∧
    (request.AsksOnly right.output → ∀ r, (right.extract settings request).result = .ok r →
      ((Plan.join left right type condition).AnswersAs settings request r ↔
        ¬ RanOut ((Plan.join left right type condition).extract settings request) ∧
        (∃ l, (left.extract settings request).result = .ok l) ∧
        left.Covered settings Attribute.Withstands request r)) := by
  constructor
  · intro hasks l hl
    -- the other side adds nothing if and only if the asked side has what it hands back
    have hcovered : ∀ {r : LineageMap}, (right.extract settings request).result = .ok r →
        ((∀ key ∈ request.keys,
            ((l.merge r).sourcesOf key).sameElements (l.sourcesOf key) = true) ↔
          right.Covered settings Attribute.Overrides request l) := by
      intro r hr
      refine sameElements_iff_covered hright (knowsNothingOf_of_asksOnly hasks hleftOnly) hr ?_
      intro key
      rw [LineageMap.sourcesOf_merge, AttributeSet.sameElements_union_right_iff]
    constructor
    · intro hanswers
      obtain ⟨hdeep, l', r, hl', hr, hsame⟩ := (answersAs_join_iff hexposes hleft hright hasked).1
        hanswers
      obtain rfl : l' = l := Except.ok.inj (hl'.symm.trans hl)
      exact ⟨hdeep, ⟨r, hr⟩, (hcovered hr).1 hsame⟩
    · rintro ⟨hdeep, ⟨r, hr⟩, hcovers⟩
      exact (answersAs_join_iff hexposes hleft hright hasked).2
        ⟨hdeep, l, r, hl, hr, (hcovered hr).2 hcovers⟩
  · intro hasks r hr
    have hcovered : ∀ {l : LineageMap}, (left.extract settings request).result = .ok l →
        ((∀ key ∈ request.keys,
            ((l.merge r).sourcesOf key).sameElements (r.sourcesOf key) = true) ↔
          left.Covered settings Attribute.Withstands request r) := by
      intro l hl
      refine sameElements_iff_covered hleft (knowsNothingOf_of_asksOnly hasks hrightOnly) hl ?_
      intro key
      rw [LineageMap.sourcesOf_merge, AttributeSet.sameElements_union_left_iff]
    constructor
    · intro hanswers
      obtain ⟨hdeep, l, r', hl, hr', hsame⟩ := (answersAs_join_iff hexposes hleft hright hasked).1
        hanswers
      obtain rfl : r' = r := Except.ok.inj (hr'.symm.trans hr)
      exact ⟨hdeep, ⟨l, hl⟩, (hcovered hl).1 hsame⟩
    · rintro ⟨hdeep, ⟨l, hl⟩, hcovers⟩
      exact (answersAs_join_iff hexposes hleft hright hasked).2
        ⟨hdeep, l, r, hl, hr, (hcovered hl).2 hcovers⟩

/-- `SELECT abs(a) AS c FROM t`, as a derived table. -/
def derivedTable : Plan :=
  .project [.aliased (.mk (.call "abs" [.column ⟨1, some "a", []⟩]) (some "c") 10)]
    (.relation [⟨1, some "a", []⟩] (some ⟨"t", none, none⟩))

/-- The table `u` with the column `x`. -/
def plainTable : Plan := .relation [⟨2, some "x", []⟩] (some ⟨"u", none, none⟩)

/-- The view `v` on the table `u`. -/
def viewOfTable : Plan := .view ⟨"v", none, none⟩ [⟨3, some "x", []⟩] plainTable false

/-- The column `c` asked for as it is. -/
def derivedColumn : Attribute := ⟨10, some "c", []⟩

/-- Beside a table the derived table answers as it does alone. -/
theorem derivedTable_beside_plainTable :
    (Plan.join derivedTable plainTable .inner none).AnswersAs .standard
      (.identity [derivedColumn])
      (.ofList [(derivedColumn, .ofList [⟨1, some "a", ["t"]⟩])]) := by
  refine ((extract_join_isolated_iff rfl rfl rfl (by decide) (by decide) rfl).1 (by decide) _
    rfl).2 ⟨not_ranOut_of_ok rfl, ⟨_, rfl⟩, ?_⟩
  have hnone : plainTable.handedBack? .standard derivedColumn = none := by decide
  intro entry hentry d hd e hback
  obtain rfl : entry = (derivedColumn, .singleton derivedColumn) := List.mem_singleton.1 hentry
  obtain rfl : d = derivedColumn := List.mem_singleton.1 hd
  rw [hnone] at hback
  cases hback

/-- Beside a view the derived column is answered by itself and its source. -/
theorem derivedTable_beside_viewOfTable :
    (∀ id ∈ derivedTable.columnIds, id ∉ viewOfTable.columnIds) ∧
      (LineageMap.identity [derivedColumn]).AsksOnly derivedTable.output ∧
      (derivedTable.extract .standard (.identity [derivedColumn])).result =
        .ok (.ofList [(derivedColumn, .ofList [⟨1, some "a", ["t"]⟩])]) ∧
      ((Plan.join derivedTable viewOfTable .inner none).extract .standard
          (.identity [derivedColumn])).result =
        .ok (.ofList [(derivedColumn, .ofList [derivedColumn, ⟨1, some "a", ["t"]⟩])]) ∧
      (AttributeSet.ofList [derivedColumn, ⟨1, some "a", ["t"]⟩]).sameElements
        (.ofList [⟨1, some "a", ["t"]⟩]) = false := by
  decide +kernel

end Lineage

end ColumnTrace
