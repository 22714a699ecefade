import ColumnTrace.Proofs.Planner.AnsweredQueries
import ColumnTrace.Proofs.Planner.ClosedStatements

/-!
# Planned queries can be traced

A planned query has a lineage, at every depth from some limit on, if and only if no query that a
view or a stored result is opened to repeats a column in its select list
(`exists_lineage_iff_of_planStatement`). The planner counts the columns of such a query as they
stand in its list; tracing counts those of the answer, in which a column stands once.
-/

set_option autoImplicit false

namespace ColumnTrace

namespace Plan

variable {settings : Settings} {plan body : Plan}

/-- The query that a view is opened to, or whose result is stored. -/
def opened? (settings : Settings) : Plan → Option Plan
  | .view _ _ body temporary =>
    if !temporary && settings.skipPersistedViews then none else some body
  | .cached _ physical _ => PhysicalNode.findLink [physical]
  | _ => none

/-- No query that is opened on the way down repeats a column. -/
def OpensNoRepetition (settings : Settings) (plan : Plan) : Prop :=
  ∀ below, plan.Reaches settings below →
    ∀ body, below.opened? settings = some body → body.repeatsColumn = false

/-- What is opened is a query with as many columns. -/
theorem Arranged.standsFor_of_opened (h : plan.Arranged)
    (hbody : plan.opened? settings = some body) : StandsFor plan.output body := by
  cases h with
  | view name temporary hstands =>
    rw [opened?] at hbody
    split at hbody
    · cases hbody
    · exact Option.some.inj hbody ▸ hstands
  | cached table hlink hstands =>
    rw [opened?, hlink] at hbody
    exact Option.some.inj hbody ▸ hstands
  | _ => cases hbody

/-- A plan that is opened has a single branch. -/
theorem branches?_of_opened (hbody : plan.opened? settings = some body) :
    plan.branches? settings = some (plan.output, [body]) := by
  cases plan with
  | view name output query temporary =>
    rw [opened?] at hbody
    split at hbody
    · cases hbody
    · next hskip =>
      cases hbody
      exact branches?_eq_some_iff.2 (.view (Bool.not_eq_true _ ▸ hskip))
  | cached output physical table => exact branches?_eq_some_iff.2 (.cached hbody)
  | _ => cases hbody

/-- A query that is opened is traced. -/
theorem mem_tracedBelow_of_opened (hbody : plan.opened? settings = some body) :
    body ∈ plan.tracedBelow settings := by
  rw [tracedBelow_of_branches (branches?_of_opened hbody)]
  exact List.mem_cons_self

/-- A plan with a single branch is opened to it. -/
theorem Arranged.opened_of_branches {output : List Attribute} (h : plan.Arranged)
    (hbranches : plan.branches? settings = some (output, [body])) :
    plan.opened? settings = some body := by
  cases h with
  | union hnodup hstands => simp [branches?] at hbranches
  | view name temporary hstands =>
    cases branches?_eq_some_iff.1 hbranches with
    | view hopened => rw [opened?, hopened, if_neg Bool.false_ne_true]
  | cached table hlink hstands =>
    cases branches?_eq_some_iff.1 hbranches with
    | cached hlink => exact hlink
  | _ => cases hbranches

/-! ## Levels -/

/-- A plan that fits some levels fits more. -/
theorem fits_mono {n : Nat} : ∀ {plan : Plan} {k : Nat}, plan.fits settings n → n ≤ k →
    plan.fits settings k := by
  induction n with
  | zero => exact fun h _ => h.elim
  | succ n ih =>
    intro plan k h hle
    obtain ⟨k, rfl⟩ : ∃ j, k = j + 1 := ⟨k - 1, by omega⟩
    exact fun below hbelow => ih (h below hbelow) (by omega)

/-- Tracing a traceable plan comes to an end. -/
theorem Traceable.exists_fits (h : plan.Traceable settings) : ∃ n, plan.fits settings n := by
  induction h with
  | @mk plan _ _ _ _ _ ih =>
    have hall : ∀ plans : List Plan, (∀ b ∈ plans, ∃ n, b.fits settings n) →
        ∃ n, ∀ b ∈ plans, b.fits settings n := by
      intro plans
      induction plans with
      | nil => exact fun _ => ⟨0, by simp⟩
      | cons first rest hrest =>
        intro h
        obtain ⟨n, hn⟩ := h first List.mem_cons_self
        obtain ⟨k, hk⟩ := hrest fun b hb => h b (List.mem_cons_of_mem first hb)
        refine ⟨max n k, List.forall_mem_cons.2 ⟨fits_mono hn (le_max_left n k), fun b hb => ?_⟩⟩
        exact fits_mono (hk b hb) (le_max_right n k)
    obtain ⟨n, hn⟩ := hall _ ih
    exact ⟨n + 1, hn⟩

/-- What is traced depends on one setting only. -/
theorem tracedBelow_congr {other : Settings}
    (h : settings.skipPersistedViews = other.skipPersistedViews) (plan : Plan) :
    plan.tracedBelow settings = plan.tracedBelow other := by
  cases plan <;> simp only [tracedBelow, h]

/-- What is opened depends on the settings for views only. -/
theorem opened?_congr {other : Settings}
    (h : settings.skipPersistedViews = other.skipPersistedViews) (plan : Plan) :
    plan.opened? settings = plan.opened? other := by
  cases plan <;> simp only [opened?, h]

/-- Whether a plan fits depends on the settings for views only. -/
theorem fits_congr {other : Settings}
    (h : settings.skipPersistedViews = other.skipPersistedViews) :
    ∀ {n : Nat} {plan : Plan}, plan.fits settings n → plan.fits other n
  | 0, _, hfits => hfits.elim
  | _ + 1, plan, hfits => fun below hbelow =>
    fits_congr h (hfits below (tracedBelow_congr h plan ▸ hbelow))

/-- What is traced on the way down depends on the settings for views only. -/
theorem Reaches.congr {other : Settings} {below : Plan}
    (h : settings.skipPersistedViews = other.skipPersistedViews)
    (hreaches : plan.Reaches settings below) : plan.Reaches other below := by
  simpa only [Reaches, tracedBelow_congr h] using hreaches

/-- What is listed within some levels is traced on the way down. -/
theorem reaches_of_mem_reachedWithin {levels : Nat} : ∀ {plan below : Plan},
    below ∈ plan.reachedWithin settings levels → plan.Reaches settings below := by
  induction levels with
  | zero => exact fun h => absurd h List.not_mem_nil
  | succ levels ih =>
    intro plan below h
    rcases List.mem_cons.1 h with rfl | h
    · exact .refl _
    · obtain ⟨child, hchild, h⟩ := List.mem_flatMap.1 h
      exact (ih h).of_mem hchild

/-- A plan that is traceable whatever the settings fits into one number of levels for all. -/
theorem exists_limit (h : ∀ settings, plan.Traceable settings) : ∃ limit,
    ∀ settings : Settings, limit ≤ settings.maxPlanDepth →
      plan.fits settings (settings.maxPlanDepth + 1) := by
  obtain ⟨n, hn⟩ := (h ⟨true, 1, Nat.one_pos⟩).exists_fits
  obtain ⟨k, hk⟩ := (h ⟨false, 1, Nat.one_pos⟩).exists_fits
  refine ⟨max n k, fun settings hlimit => ?_⟩
  cases hskip : settings.skipPersistedViews with
  | true =>
    have hfits : plan.fits settings n := fits_congr hskip.symm hn
    exact fits_mono hfits (by omega)
  | false =>
    have hfits : plan.fits settings k := fits_congr hskip.symm hk
    exact fits_mono hfits (by omega)

end Plan

namespace Lineage

open Traced

variable {settings : Settings} {plan body : Plan} {n : Nat} {request m : LineageMap}

/-! ## Failures -/

/-- A traceable plan has no reason of its own to fail where what it opens repeats no column. -/
theorem not_ownError (hplan : plan.Traceable settings)
    (hopened : ∀ body, plan.opened? settings = some body → body.repeatsColumn = false)
    (n : Nat) (e : ExtractionError) : ¬ OwnError settings (extractWithin settings n) plan e := by
  intro hown
  cases hown with
  | reference herror =>
    obtain ⟨-, -, -, hinlines, -⟩ := hplan
    obtain ⟨inlined, hinline, -⟩ := hinlines _ _ rfl
    rw [hinline] at herror
    cases herror
  | @columns _ body output lineage hbranches hlineage hshort =>
    have hbody := hplan.arranged.opened_of_branches hbranches
    have hstands := hplan.arranged.standsFor_of_opened hbody
    have htraced : body ∈ plan.tracedBelow settings := by
      rw [Plan.tracedBelow_of_branches hbranches]
      exact List.mem_cons_self
    have hsize := (length_le_size_iff n (hplan.of_mem htraced) hstands.isResult hlineage).2
      (hopened body hbody)
    rw [← hstands.length, Plan.output_of_branches hbranches] at hsize
    omega
  | insert => cases hplan.arranged
  | directory hlocation => cases hplan.arranged
  | view hlineage hshort => cases hplan.arranged

/-- The answer of a plan that is opened to a query takes an answer of the query with as many
columns. -/
theorem exists_lineage_of_opened {below : Below}
    (hm : (step settings below plan request).result = .ok m)
    (hbody : plan.opened? settings = some body) :
    ∃ lineage, (below body ∅).result = .ok lineage ∧ plan.output.length ≤ lineage.size := by
  cases plan with
  | view name output query temporary =>
    cases Plan.branches?_eq_some_iff.1 (Plan.branches?_of_opened hbody) with
    | view hopened =>
      obtain ⟨lineage, hlineage, hm⟩ := (step_view_opened hopened).1 hm
      exact ⟨lineage, hlineage, (result_ofRelationPlan.1 hm).1⟩
  | cached output physical table =>
    obtain ⟨lineage, hlineage, hm⟩ := (step_cached_linked hbody).1 hm
    exact ⟨lineage, hlineage, (result_ofRelationPlan.1 hm).1⟩
  | _ => cases hbody

/-- A traceable plan has an answer only where what it opens repeats no column. -/
theorem repeatsColumn_of_answer (hplan : plan.Traceable settings)
    (hm : (extractWithin settings n plan request).result = .ok m)
    (hbody : plan.opened? settings = some body) : body.repeatsColumn = false := by
  cases n with
  | zero => cases hm
  | succ n =>
    obtain ⟨lineage, hlineage, hsize⟩ := exists_lineage_of_opened hm hbody
    have hstands := hplan.arranged.standsFor_of_opened hbody
    refine (length_le_size_iff n (hplan.of_mem ?_) hstands.isResult hlineage).1 ?_
    · exact Plan.mem_tracedBelow_of_opened hbody
    · exact hstands.length ▸ hsize

/-- A traceable plan has an answer only where nothing that is opened on the way down repeats a
column. -/
theorem opensNoRepetition_of_answer (hplan : plan.Traceable settings)
    (hm : (extractWithin settings n plan request).result = .ok m) :
    plan.OpensNoRepetition settings := by
  intro below hreaches body hbody
  obtain ⟨k, inner, answer, hanswer⟩ := exists_answer_of_reaches n hplan hm hreaches
  exact repeatsColumn_of_answer (hplan.of_reaches hreaches) hanswer hbody

/-- A traceable plan that fits into so many levels has a lineage if and only if no query that is
opened on the way down repeats a column. -/
theorem exists_lineage_iff (hplan : plan.Traceable settings) (hfits : plan.fits settings n) :
    (∃ m, (extractWithin settings n plan ∅).result = .ok m) ↔ plan.OpensNoRepetition settings := by
  refine ⟨fun ⟨m, hm⟩ => opensNoRepetition_of_answer hplan hm, fun hopens => ?_⟩
  have hends : (extractWithin settings n plan ∅).Ends (·.isNamed = true) fun _ => False := by
    refine ends_extractWithin n (fun below hreaches => (hplan.of_reaches hreaches).named) rfl
      (Or.inr hfits) fun below hreaches k e hown => ?_
    exact not_ownError (hplan.of_reaches hreaches) (hopens below hreaches) k e hown
  cases hresult : (extractWithin settings n plan ∅).result with
  | ok m => exact ⟨m, rfl⟩
  | error e => exact (hends.of_error hresult).elim

end Lineage

/-! ## Planned queries -/

/-- A query changes no view. -/
theorem Sql.Node.alterView?_of_query {statement : Sql.Node} (engine : String)
    (hquery : statement.isQueryOrSubquery = true) : statement.alterView? engine = .ok none := by
  simp only [isQueryOrSubquery, isQuery, is, Bool.or_eq_true, beq_iff_eq] at hquery
  rcases hquery with (((h | h) | h) | h) | h <;>
    exact alterView?_eq_none (beq_iff_eq.2 h) (by decide) (by decide) engine

/-- The plan of a query is sound on its own. -/
theorem Planner.ensures_statement_of_query {stored : String → Planner Plan} {tier : Tier}
    {context : Context} (htier : tier.IsSound) (hctes : context.ctes = []) {node : Sql.Node}
    (hquery : node.isQueryOrSubquery = true) :
    (statement stored tier node).Ensures context 0 (Plan.QueryIn [] []) := by
  refine ensures_context.bind fun _ _ => ensures_ofExcept_bind fun change hchange => ?_
  rw [Sql.Node.alterView?_of_query _ hquery] at hchange
  obtain rfl := Except.ok.inj hchange
  dsimp only
  rw [if_pos hquery]
  exact htier.query_alone hctes node

/-- The plan of a query is sound on its own, and its rows come from select lists. -/
theorem queryIn_of_planStatement {s : Surroundings} {statement : Sql.Node} {numbers : Numbers}
    {plan : Plan} (h : (planStatement s statement numbers).result = .ok plan)
    (hquery : statement.isQueryOrSubquery = true) : plan.QueryIn [] [] := by
  have hstored := Planner.plansStored_storedQuery (openLimit s.library statement)
  have htier := Tier.isSound_upTo hstored statement.height
  rw [planStatement_eq] at h
  exact (Planner.ensures_statement_of_query htier rfl hquery numbers (Nat.zero_le _) plan h).1

/-- Whatever the settings, a sound query whose columns have names is traceable. -/
theorem Plan.QueryIn.traceable {plan : Plan} (h : plan.QueryIn [] [])
    (hnamed : Site.All Site.IsNamed ⟨[], [], plan⟩) (settings : Settings) :
    plan.Traceable settings :=
  (Site.All.inlines h.sound hnamed).traceable rfl

/-- A planned query whose columns have names has a lineage, at every depth from some limit on, if
and only if no query that a view or a stored result is opened to repeats a column. -/
theorem exists_lineage_iff_of_planStatement {s : Surroundings} {statement : Sql.Node}
    {numbers : Numbers} {plan : Plan}
    (h : (planStatement s statement numbers).result = .ok plan)
    (hquery : statement.isQueryOrSubquery = true)
    (hnamed : Site.All Site.IsNamed ⟨[], [], plan⟩) :
    ∃ limit, ∀ settings : Settings, limit ≤ settings.maxPlanDepth →
      ((∃ m, (plan.extract settings ∅).result = .ok m) ↔ plan.OpensNoRepetition settings) := by
  have htraceable := (queryIn_of_planStatement h hquery).traceable hnamed
  obtain ⟨limit, hlimit⟩ := Plan.exists_limit htraceable
  refine ⟨limit, fun settings hdepth => ?_⟩
  rw [Lineage.extract_eq]
  exact Lineage.exists_lineage_iff (htraceable settings) (hlimit settings hdepth)

/-! ## A view over two columns -/

/-- A table `t(a, b)` and a view `v(x, y)` over two columns of the table. -/
def Surroundings.ofView (first second : String) : Surroundings :=
  let tables := Catalog.empty.registerTable (some "t") [some "a", some "b"]
  let query := Sql.Node.ofSelect [] [.ofColumn "t" first, .ofColumn "t" second] "t"
  { catalog := tables.registerView (some "v") "query" [some "x", some "y"] false
    library := [("query", .ok [some query])]
    engine := "spark" }

/-- `SELECT v.x, v.y FROM v` -/
def Sql.Node.overView : Sql.Node := ofSelect [] [ofColumn "v" "x", ofColumn "v" "y"] "v"

/-- A view over two columns has a lineage if it opens no repetition. -/
theorem exists_lineage_iff_overView : ∃ plan,
    (planStatement (.ofView "a" "b") .overView .start).result = .ok plan ∧
      ∃ limit, ∀ settings : Settings, limit ≤ settings.maxPlanDepth →
        ((∃ m, (plan.extract settings ∅).result = .ok m) ↔ plan.OpensNoRepetition settings) := by
  have hnamed : (match (planStatement (.ofView "a" "b") .overView .start).result with
      | .ok plan => decide (Site.AllWithin Site.IsNamed 5 ⟨[], [], plan⟩)
      | .error _ => false) = true := by decide +kernel
  cases h : (planStatement (.ofView "a" "b") .overView .start).result with
  | error e =>
    rw [h] at hnamed
    cases hnamed
  | ok plan =>
    rw [h] at hnamed
    exact ⟨plan, rfl, exists_lineage_iff_of_planStatement h rfl
      (Site.all_of_allWithin (of_decide_eq_true hnamed))⟩

/-- `SELECT v.x, v.y FROM v` is planned where the view reads `t.a` twice, but it has no lineage. -/
theorem no_lineage_overView_of_repetition : ∃ plan,
    (planStatement (.ofView "a" "a") .overView .start).result = .ok plan ∧
      ∀ settings : Settings, settings.skipPersistedViews = false →
        ¬ ∃ m, (plan.extract settings ∅).result = .ok m := by
  have hplanned : (match (planStatement (.ofView "a" "a") .overView .start).result with
      | .ok plan => decide (Site.AllWithin Site.IsNamed 5 ⟨[], [], plan⟩) &&
          (plan.reachedWithin ⟨false, 1, Nat.one_pos⟩ 5).any fun below =>
            (below.opened? ⟨false, 1, Nat.one_pos⟩).any Plan.repeatsColumn
      | .error _ => false) = true := by decide +kernel
  cases h : (planStatement (.ofView "a" "a") .overView .start).result with
  | error e =>
    rw [h] at hplanned
    cases hplanned
  | ok plan =>
    refine ⟨plan, rfl, fun settings hskip ⟨m, hm⟩ => ?_⟩
    simp only [h, Bool.and_eq_true, decide_eq_true_eq, List.any_eq_true, Option.any_eq_true]
      at hplanned
    obtain ⟨hnamed, below, hbelow, body, hbody, hrepeats⟩ := hplanned
    have htraceable := (queryIn_of_planStatement h rfl).traceable (Site.all_of_allWithin hnamed)
    have hreaches : plan.Reaches settings below :=
      (Plan.reaches_of_mem_reachedWithin hbelow).congr hskip.symm
    rw [Plan.opened?_congr hskip.symm] at hbody
    rw [Lineage.extract_eq] at hm
    rw [Lineage.opensNoRepetition_of_answer (htraceable settings) hm below hreaches body hbody]
      at hrepeats
    cases hrepeats

end ColumnTrace
