import ColumnTrace.Proofs.Lineage.ListedColumns

/-!
# Unions by position

A union traces its branches for all that they have and puts their answers together by position. An
answer has one entry for a column of the branch, so the positions in it are those of the branch's
columns only if the branch names no column twice and answers for all its columns. The lineage of a
union is by position if and only if all branches are of this kind
(`Plan.extract_union_isPositional_iff`).
-/

set_option autoImplicit false

namespace ColumnTrace

open Traced

/-- What answers of branches give for the branches' columns at one place, from left to right; a
branch without an answer for its column gives nothing. -/
def Plan.sourcesAt (branches : List Plan) (answers : List LineageMap) (i : Nat) : AttributeSet :=
  ((branches.zip answers).map fun pair => pair.1.output[i]?.elim ∅ pair.2.sourcesOf).foldl
    (fun s t => s ∪ t) ∅

/-- The map has one entry for each column, in order, and the sources of a column are all that the
branches give for their columns at its place. -/
structure LineageMap.IsPositional (output : List Attribute) (branches : List Plan)
    (answers : List LineageMap) (m : LineageMap) : Prop where
  keys : m.keys = output
  sources : ∀ (i : Nat) (column : Attribute), output[i]? = some column →
    m.sourcesOf column = Plan.sourcesAt branches answers i

/-- The union has distinct columns and a branch at least, and each branch answers for exactly its
own columns, of which then none comes twice. -/
structure Plan.AllColumnsAnswered (output : List Attribute) (branches : List Plan)
    (answers : List LineageMap) : Prop where
  distinct : output.Nodup
  branched : branches ≠ []
  full : List.Forall₂ (fun branch answer => answer.keys = branch.output) branches answers

namespace Lineage

variable {output : List Attribute} {branches : List Plan} {answers : List LineageMap}

/-- What the answers of branches hold at each place, as far as all of them go. -/
def columnsOfBranches : List LineageMap → List AttributeSet
  | [] => []
  | first :: rest => rest.foldl (fun columns branch =>
      List.zipWith (fun s t => s ∪ t) columns branch.values) first.values

/-- The columns of a union are paired with what stands at their places. -/
theorem ofBranches_eq (houtput : output ≠ []) (answers : List LineageMap) :
    ofBranches output answers = .ofList (output.zip (columnsOfBranches answers)) := by
  match output, answers, houtput with
  | _ :: _, [], _ => rfl
  | _ :: _, _ :: _, _ => rfl

/-- Places are filled as far as the shortest answer goes, if there is an answer. -/
theorem le_length_columnsOfBranches {width : Nat} (hwidth : 0 < width) :
    width ≤ (columnsOfBranches answers).length ↔
      answers ≠ [] ∧ ∀ answer ∈ answers, width ≤ answer.size := by
  cases answers with
  | nil =>
    rw [columnsOfBranches, List.length_nil]
    simp only [ne_eq, not_true_eq_false, false_and, iff_false]
    omega
  | cons first rest =>
    rw [columnsOfBranches, le_length_foldl_zipWith, OrderedMap.length_values, List.forall_mem_cons]
    simp

/-- Columns to which branches are added that answer for all their columns. -/
theorem getElem?_foldl_zipWith {i : Nat}
    (h : List.Forall₂ (fun branch answer => answer.keys = branch.output) branches answers)
    (hwidth : ∀ branch ∈ branches, i < branch.output.length) :
    ∀ {columns : List AttributeSet} {s : AttributeSet}, columns[i]? = some s →
      (answers.foldl (fun columns branch =>
        List.zipWith (fun s t => s ∪ t) columns branch.values) columns)[i]? =
      some (((branches.zip answers).map fun pair =>
        pair.1.output[i]?.elim ∅ pair.2.sourcesOf).foldl (fun s t => s ∪ t) s) := by
  induction h with
  | nil => exact fun hs => hs
  | @cons branch answer branches answers hkeys _ ih =>
    intro columns s hs
    rw [List.forall_mem_cons] at hwidth
    have hvalue : answer.values[i]? =
        some (branch.output[i]?.elim ∅ answer.sourcesOf) := by
      rw [LineageMap.getElem?_values, hkeys, List.getElem?_eq_getElem hwidth.1]
      rfl
    rw [List.foldl_cons, List.zip_cons_cons, List.map_cons, List.foldl_cons]
    exact ih hwidth.2 (List.getElem?_zipWith_eq_some.2 ⟨s, _, hs, hvalue, rfl⟩)

/-- At a place stands what the branches give for their columns there. -/
theorem getElem?_columnsOfBranches {i : Nat} (hne : branches ≠ [])
    (h : List.Forall₂ (fun branch answer => answer.keys = branch.output) branches answers)
    (hwidth : ∀ branch ∈ branches, i < branch.output.length) :
    (columnsOfBranches answers)[i]? = some (Plan.sourcesAt branches answers i) := by
  cases h with
  | nil => exact absurd rfl hne
  | @cons branch answer branches answers hkeys hrest =>
    rw [List.forall_mem_cons] at hwidth
    have hvalue : answer.values[i]? =
        some (branch.output[i]?.elim ∅ answer.sourcesOf) := by
      rw [LineageMap.getElem?_values, hkeys, List.getElem?_eq_getElem hwidth.1]
      rfl
    rw [columnsOfBranches, getElem?_foldl_zipWith hrest hwidth.2 hvalue, Plan.sourcesAt,
      List.zip_cons_cons, List.map_cons, List.foldl_cons, AttributeSet.empty_union]

/-- Branches that answer for all their columns are put together by position. -/
theorem isPositional_ofBranches (houtput : output ≠ [])
    (hwidth : ∀ branch ∈ branches, branch.output.length = output.length)
    (h : Plan.AllColumnsAnswered output branches answers) :
    (ofBranches output answers).IsPositional output branches answers := by
  have hplaces : ∀ i, i < output.length →
      (columnsOfBranches answers)[i]? = some (Plan.sourcesAt branches answers i) := by
    intro i hi
    apply getElem?_columnsOfBranches h.branched h.full
    intro branch hbranch
    rwa [hwidth branch hbranch]
  have hlength : output.length ≤ (columnsOfBranches answers).length := by
    have hpos : 0 < output.length := List.length_pos_of_ne_nil houtput
    have hlast := (List.getElem?_eq_some_iff.1 (hplaces (output.length - 1) (by omega))).1
    omega
  rw [ofBranches_eq houtput]
  refine ⟨OrderedMap.keys_ofList_zip h.distinct hlength, ?_⟩
  intro i column hcolumn
  have hi := (List.getElem?_eq_some_iff.1 hcolumn).1
  have hentry : (column, Plan.sourcesAt branches answers i) ∈
      (OrderedMap.ofList (output.zip (columnsOfBranches answers))).entries := by
    rw [OrderedMap.entries_ofList_zip h.distinct]
    apply List.mem_of_getElem?
    rw [List.getElem?_zip_eq_some]
    exact ⟨hcolumn, hplaces i hi⟩
  exact LineageMap.sourcesOf_of_mem hentry

/-- Branches that list columns of their own and are put together by position answer for all their
columns: an entry that is missing in one of them leaves the last column without an entry. -/
theorem allColumnsAnswered_of_isPositional (houtput : output ≠ [])
    (hwidth : ∀ branch ∈ branches, branch.output.length = output.length)
    (hanswers : List.Forall₂ (fun branch answer => answer.keys.Sublist branch.output) branches
      answers)
    (h : (ofBranches output answers).IsPositional output branches answers) :
    Plan.AllColumnsAnswered output branches answers := by
  have hkeys := h.keys
  rw [ofBranches_eq houtput] at hkeys
  have hnodup : output.Nodup := by
    rw [← hkeys]
    exact OrderedMap.nodup_keys _
  have hlength : output.length ≤ (columnsOfBranches answers).length := by
    have hlengths := congrArg List.length hkeys
    rw [OrderedMap.keys, OrderedMap.entries_ofList_zip hnodup, List.length_map,
      List.length_zip] at hlengths
    omega
  have hpos : 0 < output.length := List.length_pos_of_ne_nil houtput
  obtain ⟨hne, hsizes⟩ := (le_length_columnsOfBranches hpos).1 hlength
  refine ⟨hnodup, ?_, ?_⟩
  · rintro rfl
    exact hne (List.forall₂_nil_left_iff.1 hanswers)
  · clear h hkeys hne hlength
    induction hanswers with
    | nil => exact .nil
    | @cons branch answer branches answers hsublist _ ih =>
      rw [List.forall_mem_cons] at hwidth hsizes
      refine .cons (hsublist.eq_of_length_le ?_) (ih hwidth.2 hsizes.2)
      rw [OrderedMap.length_keys, hwidth.1]
      exact hsizes.1

end Lineage

namespace Plan

open Lineage

/-- A union has a lineage if and only if all its branches have one, one level further down. It is by
position where all columns of the branches are answered for; and where the branches are queries that
list columns of their own, it is by position only then. -/
theorem extract_union_isPositional_iff (settings : Settings) (branches : List Plan)
    (output : List Attribute) (houtput : output ≠ [])
    (hwidth : ∀ branch ∈ branches, branch.output.length = output.length) :
    ((∃ m, ((Plan.union branches output).extract settings ∅).result = .ok m) ↔
      ∀ branch ∈ branches, ∃ answer,
        (extractWithin settings settings.maxPlanDepth branch ∅).result = .ok answer) ∧
    ∀ m, ((Plan.union branches output).extract settings ∅).result = .ok m →
      ∃ answers, List.Forall₂ (fun branch answer =>
          (branch.extract settings ∅).result = .ok answer) branches answers ∧
        (AllColumnsAnswered output branches answers → m.IsPositional output branches answers) ∧
        ((∀ branch ∈ branches, branch.OnlyQueries ∧ branch.Listing) →
          m.IsPositional output branches answers → AllColumnsAnswered output branches answers) := by
  have hunion : ∀ {m}, ((Plan.union branches output).extract settings ∅).result = .ok m ↔
      ∃ answers, List.Forall₂ (fun branch answer =>
          (extractWithin settings settings.maxPlanDepth branch ∅).result = .ok answer)
          branches answers ∧ m = ofBranches output answers := by
    intro m
    rw [extract_eq, extractWithin, step_union]
    refine exists_congr fun answers => and_congr_right fun _ => ?_
    rw [LineageMap.result_join_of_isEmpty rfl, Except.ok.injEq]
    exact eq_comm
  constructor
  · constructor
    · rintro ⟨m, hm⟩ branch hbranch
      obtain ⟨answers, hanswers, -⟩ := hunion.1 hm
      obtain ⟨answer, -, hanswer⟩ := exists_left_of_forall₂ hanswers.flip hbranch
      exact ⟨answer, hanswer⟩
    · intro hbranches
      obtain ⟨answers, hanswers⟩ := exists_forall₂ hbranches
      exact ⟨_, hunion.2 ⟨answers, hanswers, rfl⟩⟩
  · intro m hm
    obtain ⟨answers, hanswers, rfl⟩ := hunion.1 hm
    refine ⟨answers, ?_, isPositional_ofBranches houtput hwidth, fun hlisting => ?_⟩
    · exact hanswers.imp fun _ _ hanswer => extract_of_extractWithin (Nat.le_succ _) hanswer
    · apply allColumnsAnswered_of_isPositional houtput hwidth
      -- an induction on the branches and their answers side by side
      clear hunion hm hwidth
      induction hanswers with
      | nil => exact .nil
      | @cons branch answer branches answers hanswer _ ih =>
        rw [List.forall_mem_cons] at hlisting
        exact .cons (keys_sublist_output _ hlisting.1.1 hlisting.1.2 hanswer) (ih hlisting.2)

/-- `SELECT a, abs(b) AS c FROM t` -/
def selectWithAbs : Plan :=
  .project [.column ⟨1, some "a", []⟩,
      .aliased (.mk (.call "abs" [.column ⟨2, some "b", []⟩]) (some "c") 3)]
    (.relation [⟨1, some "a", []⟩, ⟨2, some "b", []⟩] (some ⟨"t", none, none⟩))

/-- `SELECT a, a, b FROM t` -/
def selectRepeated : Plan :=
  .project [.column ⟨1, some "a", []⟩, .column ⟨1, some "a", []⟩, .column ⟨2, some "b", []⟩]
    (.relation [⟨1, some "a", []⟩, ⟨2, some "b", []⟩] (some ⟨"t", none, none⟩))

/-- The table `u` with as many of the columns `x`, `y` and `z` as are asked for. -/
def tableOfWidth (width : Nat) : Plan :=
  .relation ([⟨4, some "x", []⟩, ⟨5, some "y", []⟩, ⟨6, some "z", []⟩].take width)
    (some ⟨"u", none, none⟩)

/-- The columns that a union stands for with so many columns. -/
def unionColumns (width : Nat) : List Attribute :=
  [⟨7, some "p", []⟩, ⟨8, some "q", []⟩, ⟨9, some "r", []⟩].take width

/-- Two branches that repeat no column are put together by position. -/
theorem extract_union_selectWithAbs :
    ∃ m answers, ((Plan.union [selectWithAbs, tableOfWidth 2] (unionColumns 2)).extract .standard
        ∅).result = .ok m ∧
      List.Forall₂ (fun branch answer => (branch.extract .standard ∅).result = .ok answer)
        [selectWithAbs, tableOfWidth 2] answers ∧
      (m.IsPositional (unionColumns 2) [selectWithAbs, tableOfWidth 2] answers ∧
        (m.IsPositional (unionColumns 2) [selectWithAbs, tableOfWidth 2] answers →
          AllColumnsAnswered (unionColumns 2) [selectWithAbs, tableOfWidth 2] answers)) := by
  obtain ⟨hexists, hpositional⟩ := extract_union_isPositional_iff .standard
    [selectWithAbs, tableOfWidth 2] (unionColumns 2) (by decide) (by decide)
  have hbranches : ∀ branch ∈ [selectWithAbs, tableOfWidth 2], ∃ answer,
      (extractWithin .standard Settings.standard.maxPlanDepth branch ∅).result = .ok answer := by
    rw [List.forall_mem_cons, List.forall_mem_singleton]
    exact ⟨⟨_, rfl⟩, ⟨_, rfl⟩⟩
  obtain ⟨m, hm⟩ := hexists.2 hbranches
  obtain ⟨answers, hanswers, hif, honly⟩ := hpositional m hm
  have hfull : List.Forall₂ (fun branch answer => answer.keys = branch.output)
      [selectWithAbs, tableOfWidth 2] answers := by
    obtain ⟨first, rest, hfirst, hrest, rfl⟩ := List.forall₂_cons_left_iff.1 hanswers
    obtain ⟨second, last, hsecond, hlast, rfl⟩ := List.forall₂_cons_left_iff.1 hrest
    obtain rfl := List.forall₂_nil_left_iff.1 hlast
    obtain rfl := Except.ok.inj hfirst
    obtain rfl := Except.ok.inj hsecond
    exact .cons (by decide +kernel) (.cons (by decide +kernel) .nil)
  have hlisting : ∀ branch ∈ [selectWithAbs, tableOfWidth 2],
      branch.OnlyQueries ∧ branch.Listing := by
    rw [List.forall_mem_cons, List.forall_mem_singleton]
    exact ⟨⟨throughout_of_within 3 (by decide), throughout_of_within 3 (by decide)⟩,
      ⟨throughout_of_within 3 (by decide), throughout_of_within 3 (by decide)⟩⟩
  exact ⟨m, answers, hm, hanswers, hif ⟨by decide, by decide, hfull⟩, honly hlisting⟩

/-- A branch that repeats a column has fewer entries than columns: the second column of the union
gets the sources of the branch's third column, and the third column of the union is lost. -/
theorem extract_union_selectRepeated :
    ((Plan.union [selectRepeated, tableOfWidth 3] (unionColumns 3)).extract .standard ∅).result =
      .ok (.ofList [
        (⟨7, some "p", []⟩, .ofList [⟨1, some "a", ["t"]⟩, ⟨4, some "x", ["u"]⟩]),
        (⟨8, some "q", []⟩, .ofList [⟨2, some "b", ["t"]⟩, ⟨5, some "y", ["u"]⟩])]) ∧
    ∀ answers, ¬ LineageMap.IsPositional (unionColumns 3) [selectRepeated, tableOfWidth 3] answers
      (.ofList [
        (⟨7, some "p", []⟩, .ofList [⟨1, some "a", ["t"]⟩, ⟨4, some "x", ["u"]⟩]),
        (⟨8, some "q", []⟩, .ofList [⟨2, some "b", ["t"]⟩, ⟨5, some "y", ["u"]⟩])]) := by
  constructor
  · decide +kernel
  · intro answers hpositional
    exact absurd hpositional.keys (by decide)

end Plan

end ColumnTrace
