import ColumnTrace.Lineage.Record

/-!
# What stands before the last dot

Of a table's name and a column's name with a dot between them, all that stands before the last dot
is the table's name if and only if the column's name has no dot (`namespaceOf_under_eq_iff`). The
tables of a list of columns are read off their texts by this rule: there is none if and only if
nothing stands before the last dot of any text (`tablesOf_eq_nil_iff`), and there is one if and only
if it stands before the last dot of some text and of every text that has a table at all
(`tablesOf_eq_singleton_iff`).
-/

set_option autoImplicit false

namespace ColumnTrace

namespace Text

variable {separator : Char}

/-- No piece has the separator in it. -/
theorem not_mem_of_mem_cutAt {cs piece : List Char} (h : piece ∈ cutAt separator cs) :
    separator ∉ piece := by
  induction cs generalizing piece with
  | nil =>
    unfold cutAt at h
    rw [List.mem_singleton] at h
    simp [h]
  | cons c rest ih =>
    simp only [cutAt] at h
    split at h
    · rcases List.mem_cons.1 h with rfl | hrest
      · exact List.not_mem_nil
      · exact ih hrest
    · next hc =>
      split at h
      · next hnil => exact absurd hnil (cutAt_ne_nil separator rest)
      · next first pieces hpieces =>
        rcases List.mem_cons.1 h with rfl | hrest
        · have hfirst := ih (hpieces ▸ List.mem_cons_self)
          simpa [Ne.symm hc] using hfirst
        · exact ih (hpieces ▸ List.mem_cons_of_mem first hrest)

/-- A text is cut at the separators of its first part, at a separator between, and at those of its
second part. -/
theorem cutAt_append_cons (first rest : List Char) :
    cutAt separator (first ++ separator :: rest) =
      cutAt separator first ++ cutAt separator rest := by
  induction first with
  | nil => simp [cutAt]
  | cons c first ih =>
    rw [List.cons_append, cutAt, ih, cutAt]
    split
    · rfl
    · cases hfirst : cutAt separator first with
      | nil => exact absurd hfirst (cutAt_ne_nil separator first)
      | cons piece pieces => rfl

/-- Two lists of pieces have one separator between them. -/
theorem joinBy_append {xs ys : List (List Char)} (hxs : xs ≠ []) (hys : ys ≠ []) :
    joinBy separator (xs ++ ys) = joinBy separator xs ++ separator :: joinBy separator ys := by
  induction xs with
  | nil => exact absurd rfl hxs
  | cons x rest ih =>
    cases hrest : rest with
    | nil => exact joinBy_cons_of_ne_nil separator x hys
    | cons next pieces =>
      have hne : rest ≠ [] := hrest ▸ List.cons_ne_nil next pieces
      rw [← hrest, List.cons_append,
        joinBy_cons_of_ne_nil separator x (List.append_ne_nil_of_left_ne_nil hne ys),
        joinBy_cons_of_ne_nil separator x hne, ih hne, List.append_assoc, List.cons_append]

/-- Nothing is left of the pieces without the last if and only if there is no separator. -/
theorem dropLast_cutAt_eq_nil_iff (cs : List Char) :
    (cutAt separator cs).dropLast = [] ↔ separator ∉ cs := by
  constructor
  · intro h
    obtain ⟨piece, hpiece⟩ : ∃ piece, cutAt separator cs = [piece] := by
      cases hcut : cutAt separator cs with
      | nil => exact absurd hcut (cutAt_ne_nil separator cs)
      | cons piece pieces =>
        cases pieces with
        | nil => exact ⟨piece, rfl⟩
        | cons next pieces => simp [hcut] at h
    have hcs : cs = piece := by
      have hjoin := joinBy_cutAt separator cs
      rw [hpiece] at hjoin
      exact hjoin.symm
    rw [hcs]
    exact not_mem_of_mem_cutAt (hpiece ▸ List.mem_singleton_self piece)
  · intro h
    rw [cutAt_of_not_mem h]
    rfl

theorem segments_ne_nil (s : String) : segments s ≠ [] := by
  simp [segments, cutAt_ne_nil]

/-- No segment has a dot in it. -/
theorem not_mem_of_mem_segments {s part : String} (h : part ∈ segments s) : '.' ∉ part.toList := by
  unfold segments at h
  obtain ⟨piece, hpiece, rfl⟩ := List.mem_map.1 h
  rw [String.toList_ofList]
  exact not_mem_of_mem_cutAt hpiece

/-- The segments of two texts with a dot between them are those of the one and those of the other.
-/
theorem segments_under (outer inner : String) :
    segments (outer ++ "." ++ inner) = segments outer ++ segments inner := by
  have hlist : (outer ++ "." ++ inner).toList = outer.toList ++ '.' :: inner.toList := by
    simp
  rw [segments, hlist, cutAt_append_cons, List.map_append]
  rfl

/-- Two lists of parts have one dot between them. -/
theorem dotted_append {xs ys : List String} (hxs : xs ≠ []) (hys : ys ≠ []) :
    dotted (xs ++ ys) = dotted xs ++ "." ++ dotted ys := by
  unfold dotted
  rw [List.map_append, joinBy_append (by simpa using hxs) (by simpa using hys)]
  simp [String.append_assoc]

/-- A text is one segment if and only if it has no dot. -/
theorem dropLast_segments_eq_nil_iff (s : String) :
    (segments s).dropLast = [] ↔ '.' ∉ s.toList := by
  unfold segments
  rw [← List.map_dropLast, List.map_eq_nil_iff, dropLast_cutAt_eq_nil_iff]

/-- Nothing stands before the last dot of a text without dots. -/
theorem namespaceOf_of_not_mem {s : String} (h : '.' ∉ s.toList) : namespaceOf s = "" := by
  unfold namespaceOf
  rw [(dropLast_segments_eq_nil_iff s).2 h]
  rfl

/-- What stands before the last dot is shorter than the text. -/
theorem namespaceOf_ne_self {s : String} (h : s ≠ "") : namespaceOf s ≠ s := by
  intro heq
  by_cases hdots : '.' ∈ s.toList
  · have hne : (segments s).dropLast ≠ [] := fun hnil =>
      (dropLast_segments_eq_nil_iff s).1 hnil hdots
    have hsplit :
        s = namespaceOf s ++ "." ++ dotted [(segments s).getLast (segments_ne_nil s)] := by
      rw [namespaceOf, ← dotted_append hne (List.cons_ne_nil _ _),
        List.dropLast_concat_getLast, dotted_segments]
    have hlength := congrArg String.length hsplit
    have hdot : ".".length = 1 := rfl
    rw [heq, String.length_append, String.length_append] at hlength
    omega
  · rw [namespaceOf_of_not_mem hdots] at heq
    exact h heq.symm

/-- Before the last dot stands the outer text, and with it what stands there in the inner one. -/
theorem namespaceOf_under (outer inner : String) :
    namespaceOf (outer ++ "." ++ inner) =
      if '.' ∈ inner.toList then outer ++ "." ++ namespaceOf inner else outer := by
  rw [namespaceOf, segments_under, List.dropLast_append_of_ne_nil (segments_ne_nil inner)]
  split
  · next h =>
    have hne : (segments inner).dropLast ≠ [] := fun hnil =>
      (dropLast_segments_eq_nil_iff inner).1 hnil h
    rw [dotted_append (segments_ne_nil outer) hne, dotted_segments, namespaceOf]
  · next h =>
    rw [(dropLast_segments_eq_nil_iff inner).2 h, List.append_nil, dotted_segments]

/-- A name under another has that one for its namespace if and only if it has no dots itself. -/
theorem namespaceOf_under_eq_iff (outer inner : String) :
    namespaceOf (outer ++ "." ++ inner) = outer ↔ '.' ∉ inner.toList := by
  rw [namespaceOf_under]
  split
  · next h =>
    refine iff_of_false ?_ (not_not_intro h)
    intro heq
    have hlength := congrArg String.length heq
    have hdot : ".".length = 1 := rfl
    rw [String.length_append, String.length_append] at hlength
    omega
  · next h => exact iff_of_true rfl h

/-- Something stands before the last dot, where the outer text is not empty. -/
theorem namespaceOf_under_ne_empty {outer : String} (h : outer ≠ "") (inner : String) :
    namespaceOf (outer ++ "." ++ inner) ≠ "" := by
  rw [namespaceOf_under]
  split
  · intro heq
    have hlength := congrArg String.length heq
    have hdot : ".".length = 1 := rfl
    rw [String.length_append, String.length_append, String.length_empty] at hlength
    omega
  · exact h

end Text

/-! ## The tables of columns -/

/-- The tables of columns are the texts that stand before their last dots. -/
theorem mem_tablesOf {columns : List String} {table : String} :
    table ∈ tablesOf columns ↔
      table ≠ "" ∧ ∃ column ∈ columns, Text.namespaceOf column = table := by
  simp only [tablesOf, List.mem_eraseDups, List.mem_filter, List.mem_map, bne_iff_ne]
  exact and_comm

/-- No column names a table if and only if nothing stands before the last dot of any. -/
theorem tablesOf_eq_nil_iff {columns : List String} :
    tablesOf columns = [] ↔ ∀ column ∈ columns, Text.namespaceOf column = "" := by
  rw [List.eq_nil_iff_forall_not_mem]
  simp only [mem_tablesOf, not_and, not_exists]
  constructor
  · intro h column hcolumn
    by_cases hempty : Text.namespaceOf column = ""
    · exact hempty
    · exact absurd rfl (h _ hempty column hcolumn)
  · rintro h table hne column hcolumn rfl
    exact hne (h column hcolumn)

/-- A list from which repetitions are taken off has one member if and only if it repeats it. -/
theorem eraseDups_eq_singleton_iff {xs : List String} {x : String} :
    xs.eraseDups = [x] ↔ x ∈ xs ∧ ∀ y ∈ xs, y = x := by
  constructor
  · intro h
    have hmem : ∀ {y}, y ∈ xs ↔ y = x := by
      intro y
      rw [← List.mem_eraseDups, h, List.mem_singleton]
    exact ⟨hmem.2 rfl, fun y hy => hmem.1 hy⟩
  · rintro ⟨hx, hall⟩
    cases xs with
    | nil => cases hx
    | cons y rest =>
      have hrest : (rest.filter fun z => !z == y) = [] := by
        rw [List.filter_eq_nil_iff]
        intro z hz
        rw [hall z (List.mem_cons_of_mem y hz), hall y List.mem_cons_self]
        simp
      rw [List.eraseDups_cons, hrest, hall y List.mem_cons_self, List.eraseDups_nil]

/-- The columns name one table if and only if one of them does and no other names another. -/
theorem tablesOf_eq_singleton_iff {columns : List String} {table : String} (h : table ≠ "") :
    tablesOf columns = [table] ↔
      (∃ column ∈ columns, Text.namespaceOf column = table) ∧
        ∀ column ∈ columns, Text.namespaceOf column = "" ∨ Text.namespaceOf column = table := by
  unfold tablesOf
  rw [eraseDups_eq_singleton_iff]
  apply and_congr
  · simp [h]
  · simp only [List.mem_filter, List.mem_map, bne_iff_ne]
    constructor
    · intro hall column hcolumn
      by_cases hempty : Text.namespaceOf column = ""
      · exact Or.inl hempty
      · exact Or.inr (hall _ ⟨⟨column, hcolumn, rfl⟩, hempty⟩)
    · rintro hall _ ⟨⟨column, hcolumn, rfl⟩, hempty⟩
      exact (hall column hcolumn).resolve_left hempty

end ColumnTrace
