import ColumnTrace.Proofs.Planner.FreshQueries
import ColumnTrace.Proofs.Planner.PlanRequests

/-!
# What statements introduce

Merges, inserts and creations introduce what the queries and expressions in them introduce, and the
numbers that are handed out for renamed columns (`Planner.introduces_statement`). Since a planner
never takes a number back, whatever it makes of a request, no identity is introduced twice in all
the plans that it returns (`PlanRequest.nodup_introduced_plansOf`).
-/

set_option autoImplicit false

namespace ColumnTrace

namespace Planner

/-! ## Merges -/

/-- A column that is assigned introduces nothing. -/
theorem advances_targetColumn (target : Source) (node : Sql.Node) :
    Advances (targetColumn target node) := by
  rw [targetColumn]
  split
  · exact introduces_pure_of_eq rfl
  · exact introduces_fail _

/-- A star assigns columns of the source as they are. -/
theorem introduces_starAssignments (target source : Source) :
    Introduces [] (List.flatMap Assignment.introduced) (starAssignments target source) := by
  rw [starAssignments]
  dsimp only
  split
  · refine introduces_pure_of_eq (List.flatMap_eq_nil_iff.2 fun assignment hassignment => ?_)
    obtain ⟨a, _, hfound⟩ := List.mem_filterMap.1 hassignment
    obtain ⟨s, _, rfl⟩ := Option.map_eq_some_iff.1 hfound
    rw [Assignment.introduced, Expr.introduced_column]
  · rw [failMissing]
    split <;> exact introduces_fail _

/-- The columns that an insertion names introduce nothing. -/
theorem advances_insertKeys (target : Source) (action : Sql.Node) :
    Advances (insertKeys target action) := by
  rw [insertKeys]
  split
  · refine introduces_ofExcept_bind fun nodes => ?_
    exact advances_mapM fun node _ => advances_targetColumn target node
  · exact introduces_pure_of_eq rfl

section
variable {resolve : Resolver} (h : resolve.Introduces)
include h

/-- An assignment of an update introduces only what is handed out for it. -/
theorem introduces_updateAssignment (target source : Source) (entry : Sql.Value) :
    Introduces [] (List.flatMap Assignment.introduced)
      (updateAssignment resolve target source entry) := by
  refine introduces_ofExcept_bind fun node => ?_
  split
  · exact introduces_starAssignments target source
  split
  · exact (advances_write node).bind fun text => introduces_fail _
  · refine introduces_ofExcept_bind fun named => ?_
    refine (advances_targetColumn target named).bind fun key => ?_
    refine (h.plain _ _).bind fun value => introduces_pure_of_eq ?_
    rw [List.flatMap_singleton, Assignment.introduced, List.append_nil]

/-- The assignments of an update introduce only what is handed out for them. -/
theorem introduces_updateAssignments (target source : Source) (action : Sql.Node) :
    Introduces [] (List.flatMap Assignment.introduced)
      (updateAssignments resolve target source action) := by
  refine introduces_ofExcept_bind fun entries => ?_
  refine (introduces_mapM_of_nil fun entry _ =>
    introduces_updateAssignment h target source entry).bind fun lists => introduces_pure_of_eq ?_
  rw [List.append_nil, List.flatten_eq_flatMap, List.flatMap_assoc]
  rfl

/-- The assignments of an insertion introduce only what is handed out for them. -/
theorem introduces_insertAssignments (target source : Source) (action : Sql.Node) :
    Introduces [] (List.flatMap Assignment.introduced)
      (insertAssignments resolve target source action) := by
  rw [insertAssignments]
  split
  · exact introduces_starAssignments target source
  refine (advances_insertKeys target action).bind fun keys => ?_
  refine introduces_ofExcept_bind fun values => ?_
  split
  · exact introduces_fail_bind _ _
  · refine introduces_mapM_of_nil fun pair _ => ?_
    refine (h.plain _ _).bind fun value => introduces_pure_of_eq ?_
    rw [Assignment.introduced, List.append_nil]

/-- An action of a merge introduces only what is handed out for it. -/
theorem introduces_mergeAction (target source : Source) (clause : Sql.Node) :
    Introduces [] MergeAction.introduced (mergeAction resolve target source clause) := by
  have hdelete : Introduces [] MergeAction.introduced (pure (.delete none)) :=
    introduces_pure_of_eq (by rw [MergeAction.introduced, Expr.introducedIfThere])
  rw [mergeAction]
  split
  · exact hdelete
  split
  · refine (introduces_updateAssignments h target source _).bind fun assignments =>
      introduces_pure_of_eq ?_
    rw [MergeAction.introduced, Expr.introducedIfThere]
  split
  · refine (introduces_insertAssignments h target source _).bind fun assignments =>
      introduces_pure_of_eq ?_
    rw [MergeAction.introduced, Expr.introducedIfThere]
  · exact hdelete

end

variable {stored : String → Planner Plan} (hstored : IntroducesStored stored)
variable {tier : Tier} (htier : tier.Introduces)

section
include hstored htier

/-- A side of a merge introduces only what is handed out for it. -/
theorem introduces_mergeTerm (hints : List Label) (node : Sql.Node) :
    Introduces [] Planned.introduced (mergeTerm stored tier.query hints node) := by
  refine (advances_isUnknownTable node).bind fun unknown => ?_
  split
  · exact advances_context.bind fun _ => introduces_inferred _ _
  · exact introduces_source hstored htier.query [] node

/-- Every clause of a merge goes either with the rows that match or with those that do not. -/
theorem introduces_merge (node : Sql.Node) :
    Introduces [] Plan.introduced (merge stored tier node) := by
  refine introduces_ofExcept_bind fun clauses => ?_
  split
  · rw [pure_bind]
    refine introduces_ofExcept_bind fun sourceValue => introduces_ofExcept_bind fun hints => ?_
    refine (introduces_mergeTerm hstored htier _ _).bind fun target => ?_
    refine introduces_ofExcept_bind fun sourceNode => ?_
    refine (introduces_mergeTerm hstored htier _ _).bind fun source => ?_
    refine (introduces_mapM_of_nil (g := fun action => action.2.introduced)
      fun clause _ => ?_).bind fun actions => introduces_pure fun identity => ?_
    · exact (introduces_mergeAction htier.resolve target.source source.source clause).bind
        fun action => introduces_pure_of_eq (List.append_nil _).symm
    · have hactions := ((List.filter_append_perm (·.1) actions).flatMap_right
        fun action => action.2.introduced).count_eq identity
      simp only [Plan.introduced, Planned.introduced, List.flatMap_map, List.flatMap_append,
        List.count_append] at hactions ⊢
      omega
  · exact introduces_fail_bind _ _

end

/-! ## Inserts and creations -/

/-- Renaming columns introduces only what is handed out for it, beside what the query does. -/
theorem introduces_align (target : String) (names : List Label) (query : Plan) :
    Introduces query.introduced Plan.introduced (align target names query) := by
  rw [align]
  dsimp only
  split
  · exact introduces_fail_bind _ _
  split
  · exact introduces_pure_of_eq rfl
  · refine (introduces_mapM_of_nil (g := SelectItem.introduced) fun pair _ => ?_).bind
      fun items => introduces_pure fun identity => ?_
    · split
      · exact introduces_pure_of_eq (by rw [SelectItem.introduced])
      · refine introduces_freshId.bind fun id => introduces_pure_of_eq ?_
        rw [SelectItem.introduced, Alias.introduced, Expr.introduced]
        rfl
    · rw [Plan.introduced]
      simp only [List.count_append]
      omega

section
include htier

/-- The rows of an insert introduce only what is handed out for them. -/
theorem introduces_insertRows (rows : Sql.Value) :
    Introduces [] Plan.introduced (insertRows tier rows) := by
  refine introduces_ofExcept_bind fun node => ?_
  split
  · exact (introduces_values node node).bind fun planned =>
      introduces_pure_of_eq (List.append_nil _).symm
  · exact htier.query [] node

/-- An insert introduces only what is handed out for it. -/
theorem introduces_insert (node : Sql.Node) :
    Introduces [] Plan.introduced (insert tier node) := by
  rw [insert]
  dsimp only
  split
  · exact introduces_fail_bind _ _
  refine (introduces_withClause htier.query (introduces_insertRows htier _) node).bind
    fun query => ?_
  rw [List.append_nil]
  split
  · exact introduces_pure_of_eq (by rw [Plan.introduced])
  · refine introduces_ofExcept_bind fun target => ?_
    obtain ⟨target, columns⟩ := target
    cases target with
    | none => exact introduces_pure_of_eq (by rw [Plan.introduced])
    | some table =>
      refine advances_catalog.bind fun catalog => introduces_ofExcept_bind fun mode => ?_
      rw [← List.append_nil query.introduced]
      refine (introduces_align _ _ query).bindWith fun aligned => introduces_pure_of_eq ?_
      rw [Plan.introduced, List.append_nil]

/-- A creation introduces only what is handed out for it. -/
theorem introduces_create (node : Sql.Node) :
    Introduces [] Plan.introduced (create tier node) := by
  have hplain : ∀ name : String,
      Introduces [] Plan.introduced (pure (.operator name [] [])) := fun name =>
    introduces_pure_of_eq (by rw [Plan.introduced, List.flatMap_nil])
  have hquery : ∀ query : Sql.Node,
      Introduces [] Plan.introduced (withClause tier.query node (tier.query [] query)) :=
    fun query => introduces_withClause htier.query (htier.query [] query) node
  refine introduces_ofExcept_bind fun kind => ?_
  split
  · split
    · refine introduces_ofExcept_bind fun target => (hquery _).bind fun plan => ?_
      refine introduces_ofExcept_bind fun type => introduces_pure_of_eq ?_
      rw [Plan.introduced, List.append_nil]
    split
    · refine introduces_ofExcept_bind fun target => (hquery _).bind fun plan => ?_
      exact introduces_pure_of_eq (by rw [Plan.introduced, List.append_nil])
    · exact hplain _
  · exact hplain _

end

/-! ## Statements -/

include hstored htier in
/-- A statement introduces only what is handed out for it. -/
theorem introduces_statement (node : Sql.Node) :
    Introduces [] Plan.introduced (statement stored tier node) := by
  have hplain : ∀ name : String,
      Introduces [] Plan.introduced (pure (.operator name [] [])) := fun name =>
    introduces_pure_of_eq (by rw [Plan.introduced, List.flatMap_nil])
  refine advances_context.bind fun context => introduces_ofExcept_bind fun change => ?_
  cases change with
  | some change =>
    refine (hstored change.2).bind fun plan => introduces_pure_of_eq ?_
    rw [Plan.introduced, List.append_nil]
  | none =>
    dsimp only
    split
    · exact htier.query [] node
    split
    · exact introduces_insert htier node
    split
    · exact introduces_create htier node
    split
    · exact introduces_merge hstored htier node
    split
    · exact hplain _
    · exact (advances_note _).bind fun _ => hplain _

end Planner

/-! ## Requests -/

namespace PlanRequest

/-- The plan that a request asks for introduces each of its identities once. -/
theorem introduces_planner (s : Surroundings) (request : PlanRequest) :
    Planner.Introduces [] Plan.introduced (request.planner s) := by
  have hstatement : ∀ node,
      Planner.Introduces [] Plan.introduced (.within (.root node) (s.planner node)) := fun node =>
    have hstored := Planner.introducesStored_storedQuery (openLimit s.library node)
    have htier := Tier.introduces_upTo hstored node.height
    Planner.introduces_within (Planner.introduces_statement hstored htier node)
  cases request with
  | statement node => exact hstatement node
  | text sql =>
    rw [planner]
    cases s.library.first sql with
    | ok node => exact hstatement node
    | error cause => exact Planner.introduces_fail _

/-- In all the plans that a planner makes of requests no identity is introduced more often than it
is handed out. -/
theorem count_introduced_plansFrom (requests : List (Surroundings × PlanRequest))
    (memory : Memory) : ∃ last, memory.numbers.MovesTo last ∧ ∀ identity,
      ((plansFrom memory requests).flatMap Plan.introduced).count identity ≤
        memory.numbers.handedOut last identity := by
  induction requests generalizing memory with
  | nil => exact ⟨memory.numbers, .refl _, fun _ => Nat.zero_le _⟩
  | cons request rest ih =>
    obtain ⟨s, request⟩ := request
    have hrun := introduces_planner s request (memory.stack.context s) memory.numbers
    obtain ⟨last, hrest, hcount⟩ := ih (request.run s memory).memory
    rw [run_eq_leaving] at hrest hcount
    refine ⟨last, hrun.moves.trans hrest, fun identity => ?_⟩
    have hadd := Numbers.handedOut_add hrun.moves hrest identity
    have hlater := hcount identity
    rw [plansFrom, run_eq_leaving]
    dsimp only [Outcome.leaving] at hadd hlater ⊢
    cases hresult : (request.planner s (memory.stack.context s) memory.numbers).result with
    | error e =>
      show ((plansFrom _ rest).flatMap Plan.introduced).count identity ≤ _
      omega
    | ok plan =>
      have hfirst := hrun.count_le plan hresult identity
      rw [List.count_nil] at hfirst
      show ((plan :: plansFrom _ rest).flatMap Plan.introduced).count identity ≤ _
      rw [List.flatMap_cons, List.count_append]
      omega

/-- Whatever is asked of a planner, no two places in all the plans that it returns introduce one
identity: neither two columns of one plan, nor columns of different plans, nor two named queries. -/
theorem nodup_introduced_plansOf (requests : List (Surroundings × PlanRequest)) :
    ((plansOf requests).flatMap Plan.introduced).Nodup := by
  obtain ⟨last, -, hcount⟩ := count_introduced_plansFrom requests .new
  exact List.nodup_iff_count.2 fun identity =>
    Nat.le_trans (hcount identity) (Numbers.handedOut_le_one identity)

end PlanRequest

end ColumnTrace
