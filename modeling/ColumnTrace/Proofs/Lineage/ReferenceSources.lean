import ColumnTrace.Proofs.Lineage.AnsweredBranches
import ColumnTrace.Proofs.Lineage.AnsweredJoins
import ColumnTrace.Proofs.Lineage.JoinIsolation

/-!
# The lineage of a query is where its columns come from

A resolved query that fits into the levels allowed has a lineage, and its columns are those of the
query. A column's sources are exactly the table columns that it comes from if and only if every
column that strays on the way down to it has the identity of one of these
(`extract_eq_draws_iff`).
-/

set_option autoImplicit false

namespace ColumnTrace

namespace Plan

variable {settings : Settings} {source : Int → Attribute}

/-- A resolved query that fits into so many levels answers what it is asked, and for all its
columns. -/
theorem answers_of_resolved (n : Nat) : ∀ {plan : Plan}, plan.Resolved settings source →
    plan.fits settings n →
    plan.AnswersRequests settings n ∧ plan.AnswersInFull settings n := by
  induction n with
  | zero => exact fun _ hfits => hfits.elim
  | succ n ih =>
    intro plan hplan hfits
    have hbelow : ∀ below ∈ plan.tracedBelow settings,
        below.AnswersRequests settings n ∧ below.AnswersInFull settings n :=
      fun below hmem => ih (hplan.of_traced hmem) (hfits below hmem)
    -- an opened view and a linked result are answered like a union of one branch
    have hbranches : ∀ {output branches}, plan.branches? settings = some (output, branches) →
        ∀ branch ∈ branches, branch.AnswersInFull settings n := by
      intro output branches h branch hbranch
      exact (hbelow branch (tracedBelow_of_branches h ▸ hbranch)).2
    have hquery := hplan.wellFormed.isQuery
    cases plan with
    | project items child =>
      exact answers_of_selectList hplan rfl (hbelow child List.mem_cons_self).1
    | aggregate grouping items child =>
      exact answers_of_selectList hplan rfl (hbelow child List.mem_cons_self).1
    | window functions child partition order =>
      exact answers_of_window hplan (hbelow child List.mem_cons_self).1
    | expand projections output child =>
      exact answers_of_expand hplan (hbelow child List.mem_cons_self).1
    | join left right type condition =>
      have hleft := hbelow left left_mem_tracedBelow
      cases hexposes : type.exposesRight with
      | true =>
        exact answers_of_exposing hplan hexposes hleft
          (hbelow right (right_mem_tracedBelow hexposes))
      | false => exact answers_of_semijoin hexposes hleft
    | union branches output => exact answers_of_branches hplan rfl (hbranches rfl)
    | relation output table => exact answers_of_table hplan rfl
    | localRelation output rows => exact answers_of_table hplan rfl
    | oneRow => exact answers_of_oneRow
    | view name output body temporary =>
      cases hskip : (!temporary && settings.skipPersistedViews) with
      | true => exact answers_of_table hplan (table?_eq_some_iff.2 (.view hskip))
      | false =>
        have hbody : (Plan.view name output body temporary).branches? settings =
            some (output, [body]) := branches?_eq_some_iff.2 (.view hskip)
        exact answers_of_branches hplan hbody (hbranches hbody)
    | cached output physical table =>
      cases hlink : PhysicalNode.findLink [physical] with
      | none => exact answers_of_table hplan (table?_eq_some_iff.2 (.cached hlink))
      | some logical =>
        have hlogical : (Plan.cached output physical table).branches? settings =
            some (output, [logical]) := branches?_eq_some_iff.2 (.cached hlink)
        exact answers_of_branches hplan hlogical (hbranches hlogical)
    | operator name children output =>
      obtain ⟨child, rfl, -⟩ := exists_child_of_isQuery hquery
      exact answers_of_operator hplan (hbelow child List.mem_cons_self)
    | _ => cases hquery

/-- A resolved query has a lineage of all its columns. A column's sources are the table columns that
it comes from if and only if whatever strays has the identity of one of them. -/
theorem extract_eq_draws_iff {plan : Plan} (hplan : plan.Resolved settings source)
    (hfits : plan.fits settings (settings.maxPlanDepth + 1)) :
    ∃ m, (plan.extract settings ∅).result = .ok m ∧ m.keys = plan.output ∧
      ∀ a ∈ plan.output,
        ((∀ s, s ∈ (m.sourcesOf a).attrs ↔ plan.Draws settings a s) ↔
          ∀ e, plan.Strays settings false a e → ∃ s, plan.Draws settings a s ∧ s.id = e.id) := by
  obtain ⟨-, m, hm, hkeys, haccounts⟩ := answers_of_resolved _ hplan hfits
  refine ⟨m, by rw [Lineage.extract_eq, hm], hkeys,
    fun a ha => ⟨fun hexact e hstrays => ?_, fun hcovered s => ?_⟩⟩
  · obtain ⟨y, hy, hid⟩ := (haccounts a ha).represented e (Or.inr hstrays)
    exact ⟨y, (hexact y).1 hy, hid⟩
  · constructor
    · intro hs
      rcases (haccounts a ha).sound s hs with hdraws | hstrays
      · exact hdraws
      · -- the table column of that identity is kept, so it is the one that stands there
        obtain ⟨t, ht, hid⟩ := hcovered s hstrays
        have hkept := (haccounts a ha).kept t (Or.inl ht) (ht.eq_source hplan).2
        rw [AttributeSet.eq_of_id_eq hs hkept hid.symm]
        exact ht
    · exact fun hdraws => (haccounts a ha).kept s (Or.inl hdraws) (hdraws.eq_source hplan).2

/-! ## A derived table beside a view -/

open Lineage (derivedTable viewOfTable derivedColumn)

/-- Both columns of the derived table beside the view. -/
def selectBoth : Plan :=
  .project [.column derivedColumn, .column ⟨3, some "x", []⟩]
    (.join derivedTable viewOfTable .inner none)

/-- The table columns of `selectBoth`. -/
def sourceOfBoth (id : Int) : Attribute :=
  if id = 1 then ⟨1, some "a", ["t"]⟩ else ⟨2, some "x", ["u"]⟩

/-- A table with one plain column is a resolved query. -/
theorem resolved_of_relation {a : Attribute} {table : TableName} (hplain : a.isPlain = true)
    (hsource : sourceOfBoth a.id = a.withQualifier [table.qualifiedName]) :
    (Plan.relation [a] (some table)).Resolved .standard sourceOfBoth := by
  refine .mk ⟨rfl, List.nodup_singleton a.id, ?_, ?_, nofun, nofun, nofun, nofun, nofun, nofun⟩
    nofun
  · intro b hb
    rwa [List.mem_singleton.1 hb]
  · rintro _ _ ⟨⟩
    refine ⟨nofun, fun b hb => ?_⟩
    rwa [List.mem_singleton.1 hb]

/-- The derived table is a resolved query. -/
theorem resolved_derivedTable : derivedTable.Resolved .standard sourceOfBoth := by
  refine .mk ⟨rfl, by decide, by decide, nofun, ?_, nofun, nofun, nofun, nofun, nofun⟩ ?_
  · rintro _ _ ⟨⟩
    refine ⟨nofun, by decide, ?_⟩
    intro f hf
    cases List.mem_singleton.1 hf
    decide
  · intro below hbelow
    cases List.mem_singleton.1 hbelow
    exact resolved_of_relation rfl rfl

/-- The view is a resolved query. -/
theorem resolved_viewOfTable : viewOfTable.Resolved .standard sourceOfBoth := by
  refine .mk ⟨rfl, by decide, by decide, nofun, nofun, nofun, nofun, nofun, ?_, nofun⟩ ?_
  · rintro _ _ ⟨⟩
    exact ⟨nofun, nofun, by decide⟩
  · intro below hbelow
    cases List.mem_singleton.1 hbelow
    exact resolved_of_relation rfl rfl

/-- The two side by side are a resolved query. -/
theorem resolved_selectBoth : selectBoth.Resolved .standard sourceOfBoth := by
  have hjoin :
      (Plan.join derivedTable viewOfTable .inner none).Resolved .standard sourceOfBoth := by
    refine .mk ⟨rfl, by decide, by decide, nofun, nofun, nofun, nofun, ?_, nofun, nofun⟩ ?_
    · rintro _ _ _ _ ⟨⟩ -
      decide
    · intro below hbelow
      rcases List.mem_cons.1 hbelow with rfl | hright
      · exact resolved_derivedTable
      · exact List.mem_singleton.1 hright ▸ resolved_viewOfTable
  refine .mk ⟨rfl, by decide, by decide, nofun, ?_, nofun, nofun, nofun, nofun, nofun⟩ ?_
  · rintro _ _ ⟨⟩
    refine ⟨nofun, by decide, ?_⟩
    intro f hf
    simp at hf
  · intro below hbelow
    exact List.mem_singleton.1 hbelow ▸ hjoin

/-- The derived table fits the limit. -/
theorem fits_derivedTable : derivedTable.fits .standard (Settings.standard.maxPlanDepth + 1) := by
  decide

/-- The query of both fits the limit. -/
theorem fits_selectBoth : selectBoth.fits .standard (Settings.standard.maxPlanDepth + 1) := by
  decide

/-- Alone, the derived table traces its column to that of `t`. -/
theorem extract_eq_draws_derivedTable :
    ∃ m, (derivedTable.extract .standard ∅).result = .ok m ∧
      ∀ s, s ∈ (m.sourcesOf derivedColumn).attrs ↔
        derivedTable.Draws .standard derivedColumn s := by
  obtain ⟨m, hm, -, hexact⟩ := extract_eq_draws_iff resolved_derivedTable fits_derivedTable
  refine ⟨m, hm, (hexact derivedColumn List.mem_cons_self).2 fun e hstrays => ?_⟩
  -- there is no join that anything could stray across
  cases hstrays with
  | step hfeeds hbelow =>
    cases List.mem_singleton.1 hfeeds.mem_tracedBelow
    cases hbelow with
    | here hacross => cases hacross
    | step hfeeds => cases hfeeds.mem_tracedBelow

/-- Beside the view, its column is traced to itself too, which is no table's column. -/
theorem extract_selectBoth_ne_draws :
    selectBoth.Resolved .standard sourceOfBoth ∧
      selectBoth.fits .standard (Settings.standard.maxPlanDepth + 1) ∧
      (selectBoth.extract .standard ∅).result =
        .ok (.ofList [(derivedColumn, .ofList [derivedColumn, ⟨1, some "a", ["t"]⟩]),
          (⟨3, some "x", []⟩, .ofList [⟨2, some "x", ["u"]⟩])]) ∧
      ¬ selectBoth.Draws .standard derivedColumn derivedColumn :=
  ⟨resolved_selectBoth, fits_selectBoth, by decide +kernel,
    fun hdraws => (hdraws.eq_source resolved_selectBoth).2 rfl⟩

end Plan

end ColumnTrace
