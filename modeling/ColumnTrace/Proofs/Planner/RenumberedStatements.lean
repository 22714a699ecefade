import ColumnTrace.Proofs.Planner.PlanRequests
import ColumnTrace.Proofs.Planner.RenumberedQueries

/-!
# Statements under other numbers

Merges, inserts and creations are planned to plans that differ in their numbers only
(`Planner.renumbers_statement`). A planner carries nothing but its numbers from one request to the
next, so what it makes of a request after any others is what a new planner makes of it, with one
constant added to the identities of columns and another to the numbers of named queries
(`PlanRequest.run_after`).
-/

set_option autoImplicit false

namespace ColumnTrace

variable {r : Renumbering}

namespace Planner

/-! ## Merges -/

/-- A column that is assigned is the same under new numbers. -/
theorem renumbers_targetColumn (target : Source) (node : Sql.Node) :
    Renumbers r (Attribute.renumber r) (targetColumn target node)
      (targetColumn (target.renumber r) node) := by
  have hfound : (target.renumber r).output.find? (·.name == node.normalName) =
      (target.output.find? (·.name == node.normalName)).map (Attribute.renumber r) :=
    List.find?_map
  rw [targetColumn, targetColumn, hfound]
  cases target.output.find? (·.name == node.normalName) with
  | some a => exact renumbers_pure rfl
  | none => exact renumbers_fail _

theorem renumbers_failMissing {α β : Type} {f : α → β} (names : List Label) :
    Renumbers r f (failMissing names) (failMissing names) := by
  rw [failMissing, failMissing]
  split <;> exact renumbers_fail _

/-- A star assigns the same columns, by their names. -/
theorem renumbers_starAssignments (target source : Source) :
    Renumbers r (List.map (Assignment.renumber r)) (starAssignments target source)
      (starAssignments (target.renumber r) (source.renumber r)) := by
  have hfind : ∀ a : Attribute,
      (source.output.map (Attribute.renumber r)).reverse.find? (·.name == (a.renumber r).name) =
        (source.output.reverse.find? (·.name == a.name)).map (Attribute.renumber r) := by
    intro a
    rw [← List.map_reverse, List.find?_map]
    rfl
  have hmissing : (target.output.map (Attribute.renumber r)).filter (fun a =>
      ((source.output.map (Attribute.renumber r)).reverse.find? (·.name == a.name)).isNone) =
      (target.output.filter fun a =>
        (source.output.reverse.find? (·.name == a.name)).isNone).map (Attribute.renumber r) := by
    rw [List.filter_map]
    refine congrArg (List.map _) (List.filter_congr fun a _ => ?_)
    rw [Function.comp_apply, hfind, Option.isNone_map]
  have hassigned : (target.output.map (Attribute.renumber r)).filterMap (fun a =>
      ((source.output.map (Attribute.renumber r)).reverse.find? (·.name == a.name)).map fun s =>
        Assignment.mk a (.column s)) =
      (target.output.filterMap fun a => (source.output.reverse.find? (·.name == a.name)).map
        fun s => Assignment.mk a (.column s)).map (Assignment.renumber r) := by
    rw [List.filterMap_map, List.map_filterMap]
    refine List.filterMap_congr fun a _ => ?_
    rw [Function.comp_apply, hfind, Option.map_map, Option.map_map]
    refine Option.map_congr fun s _ => ?_
    rw [Function.comp_apply, Function.comp_apply, Assignment.renumber, Expr.renumber]
  simp only [starAssignments, Source.renumber, hmissing, hassigned, List.isEmpty_map, List.map_map]
  split
  · exact renumbers_pure rfl
  · exact renumbers_failMissing _

/-- The columns that an insertion names are the same under new numbers. -/
theorem renumbers_insertKeys (target : Source) (action : Sql.Node) :
    Renumbers r (List.map (Attribute.renumber r)) (insertKeys target action)
      (insertKeys (target.renumber r) action) := by
  rw [insertKeys, insertKeys]
  split
  · refine renumbers_ofExcept_bind fun nodes => ?_
    exact renumbers_mapM_self fun node _ => renumbers_targetColumn target node
  · exact renumbers_pure rfl

section
variable {resolve : Resolver} (h : resolve.Renumbers r)
include h

/-- An assignment of an update is planned under new numbers as before. -/
theorem renumbers_updateAssignment (target source : Source) (entry : Sql.Value) :
    Renumbers r (List.map (Assignment.renumber r))
      (updateAssignment resolve target source entry)
      (updateAssignment resolve (target.renumber r) (source.renumber r) entry) := by
  refine renumbers_ofExcept_bind fun node => ?_
  split
  · exact renumbers_starAssignments target source
  split
  · exact (renumbers_write node).bind fun text => renumbers_fail _
  · refine renumbers_ofExcept_bind fun named => ?_
    refine (renumbers_targetColumn target named).bind fun key => ?_
    refine (h.plain [.ofSources [target, source]] _).bind fun value => renumbers_pure ?_
    rw [List.map_singleton, Assignment.renumber]

/-- The assignments of an update are planned under new numbers as before. -/
theorem renumbers_updateAssignments (target source : Source) (action : Sql.Node) :
    Renumbers r (List.map (Assignment.renumber r))
      (updateAssignments resolve target source action)
      (updateAssignments resolve (target.renumber r) (source.renumber r) action) := by
  refine renumbers_ofExcept_bind fun entries => ?_
  refine (renumbers_mapM_self fun entry _ =>
    renumbers_updateAssignment h target source entry).bind fun lists => renumbers_pure ?_
  rw [List.map_flatten]

/-- The assignments of an insertion are planned under new numbers as before. -/
theorem renumbers_insertAssignments (target source : Source) (action : Sql.Node) :
    Renumbers r (List.map (Assignment.renumber r))
      (insertAssignments resolve target source action)
      (insertAssignments resolve (target.renumber r) (source.renumber r) action) := by
  rw [insertAssignments, insertAssignments]
  split
  · exact renumbers_starAssignments target source
  refine (renumbers_insertKeys target action).bind fun keys => ?_
  refine renumbers_ofExcept_bind fun values => ?_
  rw [List.length_map]
  split
  · exact renumbers_fail_bind _ _ _
  · rw [List.zip_map_left]
    refine renumbers_mapM fun pair _ => ?_
    refine (h.plain [.ofSources [source]] pair.2).bind fun value => renumbers_pure ?_
    rw [Assignment.renumber]
    rfl

/-- An action of a merge is planned under new numbers as before. -/
theorem renumbers_mergeAction (target source : Source) (clause : Sql.Node) :
    Renumbers r (MergeAction.renumber r) (mergeAction resolve target source clause)
      (mergeAction resolve (target.renumber r) (source.renumber r) clause) := by
  have hdelete : Renumbers r (MergeAction.renumber r) (pure (.delete none))
      (pure (.delete none)) :=
    renumbers_pure (by rw [MergeAction.renumber, Expr.renumberIfThere])
  rw [mergeAction, mergeAction]
  split
  · exact hdelete
  split
  · refine (renumbers_updateAssignments h target source _).bind fun assignments =>
      renumbers_pure ?_
    rw [MergeAction.renumber, Expr.renumberIfThere]
  split
  · refine (renumbers_insertAssignments h target source _).bind fun assignments =>
      renumbers_pure ?_
    rw [MergeAction.renumber, Expr.renumberIfThere]
  · exact hdelete

end

variable {stored : String → Planner Plan} (hstored : RenumbersStored r stored)
variable {tier : Tier} (htier : tier.Renumbers r)

section
include hstored htier

/-- A side of a merge is planned under new numbers as before. -/
theorem renumbers_mergeTerm (hints : List Label) (node : Sql.Node) :
    Renumbers r (Planned.renumber r) (mergeTerm stored tier.query hints node)
      (mergeTerm stored tier.query hints node) := by
  refine (renumbers_isUnknownTable node).bind fun unknown => ?_
  dsimp only [id]
  split
  · exact renumbers_context.bind fun _ => renumbers_inferred _ _
  · exact renumbers_source hstored htier.query [] node

/-- A merge is planned under new numbers as before. -/
theorem renumbers_merge (node : Sql.Node) :
    Renumbers r (Plan.renumber r) (merge stored tier node) (merge stored tier node) := by
  refine renumbers_ofExcept_bind fun clauses => ?_
  split
  · rw [pure_bind]
    refine renumbers_ofExcept_bind fun sourceValue => renumbers_ofExcept_bind fun hints => ?_
    refine (renumbers_mergeTerm hstored htier _ _).bind fun target => ?_
    refine renumbers_ofExcept_bind fun sourceNode => ?_
    refine (renumbers_mergeTerm hstored htier _ _).bind fun source => ?_
    refine (renumbers_mapM_self (g := Prod.map id (MergeAction.renumber r))
      fun clause _ => ?_).bind fun actions => renumbers_pure ?_
    · exact (renumbers_mergeAction htier.resolve target.source source.source clause).bind
        fun action => renumbers_pure rfl
    · rw [Plan.renumber, List.filter_map, List.filter_map]
      simp only [List.map_map]
      rfl
  · exact renumbers_fail_bind _ _ _

end

/-! ## Inserts and creations -/

/-- Columns are renamed under new numbers as before. -/
theorem renumbers_align (target : String) (names : List Label) (query : Plan) :
    Renumbers r (Plan.renumber r) (align target names query)
      (align target names (query.renumber r)) := by
  have hpairs : (query.renumber r).output.zip names =
      (query.output.zip names).map (Prod.map (Attribute.renumber r) id) := by
    rw [Plan.output_renumber, List.zip_map_left]
  have hsame : ((query.output.zip names).map (Prod.map (Attribute.renumber r) id)).all
      (fun pair => pair.1.name == pair.2) =
      (query.output.zip names).all fun pair => pair.1.name == pair.2 := List.all_map
  rw [align, align]
  dsimp only
  rw [hpairs, hsame, Plan.output_renumber, List.length_map]
  split
  · exact renumbers_fail_bind _ _ _
  split
  · exact renumbers_pure rfl
  · refine (renumbers_mapM (g := SelectItem.renumber r) fun pair _ => ?_).bind
      fun items => renumbers_pure (by rw [Plan.renumber])
    have hname : (pair.map (Attribute.renumber r) id).1.name = pair.1.name := rfl
    rw [hname]
    dsimp only [Prod.map, id]
    split
    · exact renumbers_pure (by rw [SelectItem.renumber])
    · refine renumbers_freshId.bind fun number => renumbers_pure ?_
      rw [SelectItem.renumber, Alias.renumber, Expr.renumber]

section
include htier

/-- The rows of an insert are planned under new numbers as before. -/
theorem renumbers_insertRows (rows : Sql.Value) :
    Renumbers r (Plan.renumber r) (insertRows tier rows) (insertRows tier rows) := by
  refine renumbers_ofExcept_bind fun node => ?_
  split
  · exact (renumbers_values node node).bind fun planned => renumbers_pure rfl
  · exact htier.query [] node

/-- An insert is planned under new numbers as before. -/
theorem renumbers_insert (node : Sql.Node) :
    Renumbers r (Plan.renumber r) (insert tier node) (insert tier node) := by
  rw [insert]
  dsimp only
  split
  · exact renumbers_fail_bind _ _ _
  refine (renumbers_withClause htier.query (renumbers_insertRows htier _) node).bind
    fun query => ?_
  split
  · exact renumbers_pure (by rw [Plan.renumber])
  · refine renumbers_ofExcept_bind fun target => ?_
    obtain ⟨target, columns⟩ := target
    cases target with
    | none => exact renumbers_pure (by rw [Plan.renumber])
    | some table =>
      have hnames : (query.renumber r).output.map Attribute.name =
          query.output.map Attribute.name := by
        rw [Plan.output_renumber, List.map_map]
        rfl
      refine renumbers_catalog.bind fun catalog => renumbers_ofExcept_bind fun mode => ?_
      rw [hnames]
      refine (renumbers_align _ _ query).bind fun aligned => renumbers_pure ?_
      rw [Plan.renumber]

/-- A creation is planned under new numbers as before. -/
theorem renumbers_create (node : Sql.Node) :
    Renumbers r (Plan.renumber r) (create tier node) (create tier node) := by
  have hplain : ∀ name : String, Renumbers r (Plan.renumber r)
      (pure (.operator name [] [])) (pure (.operator name [] [])) := fun name =>
    renumbers_pure (by rw [Plan.renumber, List.map_nil, List.map_nil])
  have hquery : ∀ query : Sql.Node, Renumbers r (Plan.renumber r)
      (withClause tier.query node (tier.query [] query))
      (withClause tier.query node (tier.query [] query)) := fun query =>
    renumbers_withClause htier.query (htier.query [] query) node
  refine renumbers_ofExcept_bind fun kind => ?_
  split
  · split
    · refine renumbers_ofExcept_bind fun target => (hquery _).bind fun plan => ?_
      exact renumbers_ofExcept_bind fun type => renumbers_pure (by rw [Plan.renumber])
    split
    · refine renumbers_ofExcept_bind fun target => (hquery _).bind fun plan => ?_
      exact renumbers_pure (by rw [Plan.renumber])
    · exact hplain _
  · exact hplain _

end

/-! ## Statements -/

include hstored htier in
/-- A statement is planned to a plan that differs in its numbers only. -/
theorem renumbers_statement (node : Sql.Node) :
    Renumbers r (Plan.renumber r) (statement stored tier node) (statement stored tier node) := by
  have hplain : ∀ name : String, Renumbers r (Plan.renumber r)
      (pure (.operator name [] [])) (pure (.operator name [] [])) := fun name =>
    renumbers_pure (by rw [Plan.renumber, List.map_nil, List.map_nil])
  refine renumbers_context.bind fun context => renumbers_ofExcept_bind fun change => ?_
  cases change with
  | some change =>
    exact (hstored change.2).bind fun plan => renumbers_pure (by rw [Plan.renumber])
  | none =>
    dsimp only
    split
    · exact htier.query [] node
    split
    · exact renumbers_insert htier node
    split
    · exact renumbers_create htier node
    split
    · exact renumbers_merge hstored htier node
    split
    · exact hplain _
    · exact (renumbers_note _).bind fun _ => hplain _

end Planner

/-! ## Requests -/

namespace PlanRequest

/-- From other numbers a request asks for the same plan under the other numbers. -/
theorem renumbers_planner (s : Surroundings) (request : PlanRequest) :
    Planner.Renumbers r (Plan.renumber r) (request.planner s) (request.planner s) := by
  have hstatement : ∀ node, Planner.Renumbers r (Plan.renumber r)
      (.within (.root node) (s.planner node)) (.within (.root node) (s.planner node)) := fun node =>
    have hstored := Planner.renumbersStored_storedQuery (r := r) (openLimit s.library node)
    have htier := Tier.renumbers_upTo hstored node.height
    Planner.renumbers_within (fun _ => rfl) (Planner.renumbers_statement hstored htier node)
  cases request with
  | statement node => exact hstatement node
  | text sql =>
    rw [planner]
    cases s.library.first sql with
    | ok node => exact hstatement node
    | error cause => exact Planner.renumbers_fail _

/-- A planner does not remember earlier requests, whether they had a plan or failed. Every request
leaves the stacks as they were, so that nothing stands on them after the requests; and a later
request leaves the log that it leaves with a new planner, and fails with the same error or has the
same plan with one constant added to the identities of columns and another to the numbers of named
queries. -/
theorem run_after (requests : List (Surroundings × PlanRequest)) :
    (∀ (s : Surroundings) (request : PlanRequest) (memory : Memory),
      (request.run s memory).memory.stack = memory.stack) ∧
    (memoryAfter requests).stack = .empty ∧
    ∃ columns queries : Int, ∀ (s : Surroundings) (request : PlanRequest),
      (request.run s (memoryAfter requests)).log = (request.run s .new).log ∧
      (request.run s (memoryAfter requests)).result =
        (request.run s .new).result.map (Plan.renumber (.shift columns queries)) := by
  refine ⟨stack_run, stack_memoryAfter requests, ?_⟩
  have hnumbers := (memoryAfter requests).numbers.renumberedBy_shift
  refine ⟨(memoryAfter requests).numbers.column - 1, (memoryAfter requests).numbers.cte - 1,
    fun s request => ?_⟩
  have hrun := renumbers_planner s request (Memory.new.stack.context s) _ _ hnumbers
  rw [run_eq_leaving, run_eq_leaving, stack_memoryAfter]
  exact ⟨hrun.log, hrun.result⟩

end PlanRequest

end ColumnTrace
