import ColumnTrace.Proofs.Lineage.NamedColumns
import ColumnTrace.Proofs.Plans.Parts

/-!
# Traces that are related part by part

Much that is said of tracing relates two computations: they are the same, or the second ends as the
first does, or the first does not run out of levels. Such a relation is kept by one level of
tracing, if it is kept where computations are run one after the other (`Sequential`): two plans of
one outline are traced as the relation says where their parts are (`related_step`). A `WITH` clause
is written out first and is left out here.
-/

set_option autoImplicit false

namespace ColumnTrace

namespace Lineage

open Traced

/-! ## What is read off an outline

Each fact is stated for one plan and its outline, and then for two plans of one outline. -/

section
variable (f : Plan → Plan)

/-- Other subqueries leave an expansion as it is. -/
theorem ofProjections_mapSubqueries (projections : List (List Expr)) (output : List Attribute) :
    ofProjections (projections.map (List.map (Expr.mapSubqueries f))) output =
      ofProjections projections output := by
  rw [ofProjections, columnsOf_map, List.zip_map_right, List.map_map, ofProjections]
  refine congrArg OrderedMap.ofList (List.map_congr_left fun pair _ => ?_)
  simp only [Function.comp_apply, Prod.map_fst, Prod.map_snd, id, List.flatMap_map,
    Expr.references_mapSubqueries]

/-- Expansions that differ in their subqueries only are the same. -/
theorem ofProjections_congr {projections projections' : List (List Expr)}
    (h : projections.map (List.map (Expr.mapSubqueries f)) =
      projections'.map (List.map (Expr.mapSubqueries f))) (output : List Attribute) :
    ofProjections projections output = ofProjections projections' output := by
  rw [← ofProjections_mapSubqueries f projections, h, ofProjections_mapSubqueries]

/-- Other subqueries leave the request of a window as it is. -/
theorem windowRequest_mapSubqueries (functions : List Alias) (input : List Attribute)
    (parent : LineageMap) : windowRequest (functions.map (Alias.mapSubqueries f)) input parent =
      windowRequest functions input parent := by
  have hcomputed : ofWindowFunctions (functions.map (Alias.mapSubqueries f)) =
      ofWindowFunctions functions := by
    rw [ofWindowFunctions, List.map_map, ofWindowFunctions]
    refine congrArg OrderedMap.ofList (List.map_congr_left fun a _ => ?_)
    exact congrArg (Prod.mk a.toAttribute) (a.child.references_mapSubqueries f)
  rw [windowRequest, hcomputed, windowRequest]

/-- Windows that differ in their subqueries only make the same request. -/
theorem windowRequest_congr {functions functions' : List Alias}
    (h : functions.map (Alias.mapSubqueries f) = functions'.map (Alias.mapSubqueries f))
    (input : List Attribute) (parent : LineageMap) :
    windowRequest functions input parent = windowRequest functions' input parent := by
  rw [← windowRequest_mapSubqueries f functions, h, windowRequest_mapSubqueries]

/-- Other subqueries leave what is assigned as it is. -/
theorem ofAssignments_mapSubqueries (actions : List MergeAction) :
    ofAssignments ((actions.map (MergeAction.mapSubqueries f)).flatMap MergeAction.assignments) =
      ofAssignments (actions.flatMap MergeAction.assignments) := by
  have hassignments : (actions.map (MergeAction.mapSubqueries f)).flatMap MergeAction.assignments =
      (actions.flatMap MergeAction.assignments).map (Assignment.mapSubqueries f) := by
    rw [List.flatMap_map, List.map_flatMap]
    refine List.flatMap_congr fun action _ => ?_
    cases action <;> rfl
  rw [hassignments, ofAssignments, List.foldl_map, ofAssignments]
  refine congrArg (fun add => List.foldl add ∅ _) (funext fun request => funext fun a => ?_)
  exact congrArg (fun sources => request.insert a.key (request.sourcesOf a.key ∪ sources))
    (a.value.references_mapSubqueries f)

/-- Actions that differ in their subqueries only assign the same. -/
theorem ofAssignments_congr {actions actions' : List MergeAction}
    (h : actions.map (MergeAction.mapSubqueries f) = actions'.map (MergeAction.mapSubqueries f)) :
    ofAssignments (actions.flatMap MergeAction.assignments) =
      ofAssignments (actions'.flatMap MergeAction.assignments) := by
  rw [← ofAssignments_mapSubqueries f actions, h, ofAssignments_mapSubqueries]

end

/-- Lists whose members are related are empty, or their first members are related. -/
theorem head?_of_forall₂ {α β : Type} {R : α → β → Prop} {xs : List α} {ys : List β}
    (h : List.Forall₂ R xs ys) : (xs.head? = none ∧ ys.head? = none) ∨
      ∃ x y, xs.head? = some x ∧ ys.head? = some y ∧ R x y := by
  cases h with
  | nil => exact Or.inl ⟨rfl, rfl⟩
  | cons hfirst _ => exact Or.inr ⟨_, _, rfl, rfl, hfirst⟩

/-! ## What does not run out of levels -/

section
variable {α : Type}

/-- Running out of levels is the only failure of its kind. -/
theorem ranOut_iff {x : Traced ExtractionError α} :
    RanOut x ↔ ∃ e, x.result = .error e ∧ e.kind = .depth := by
  constructor
  · rintro ⟨depth, limit, hlimit⟩
    exact ⟨_, hlimit, rfl⟩
  · rintro ⟨e, he, hkind⟩
    cases e with
    | tooDeep depth limit => exact ⟨depth, limit, he⟩
    | _ => cases hkind

/-- What ends in no error of depth did not run out of levels. -/
theorem not_ranOut_of_ends {x : Traced ExtractionError α} {P : α → Prop}
    (h : x.Ends P (·.kind ≠ .depth)) : ¬ RanOut x := by
  rw [ranOut_iff]
  rintro ⟨e, he, hkind⟩
  exact h.of_error he hkind

theorem not_ranOut_pure (a : α) : ¬ RanOut (pure a : Traced ExtractionError α) :=
  not_ranOut_of_ok rfl

theorem not_ranOut_note (entry : LogEntry) : ¬ RanOut (.note entry) := not_ranOut_of_ok rfl

/-- An error that is none of depth is none of running out. -/
theorem not_ranOut_fail {e : ExtractionError} (h : e.kind ≠ .depth) :
    ¬ RanOut (.fail e : Traced ExtractionError α) :=
  not_ranOut_of_ends (P := fun _ => True) (ends_fail h)

end

/-- Writing out does not run out of levels. -/
theorem not_ranOut_inline (scope : CteScope) (plan : Plan) : ¬ RanOut (plan.inline scope) := by
  rw [ranOut_iff]
  rintro ⟨e, he, hkind⟩
  have hmismatch := (plan.ends_inline scope).of_error he
  rw [hkind] at hmismatch
  cases hmismatch

/-- Joining maps does not run out of levels. -/
theorem not_ranOut_join (parent child : LineageMap) : ¬ RanOut (parent.join child) := by
  rintro ⟨depth, limit, hlimit⟩
  simp only [LineageMap.join] at hlimit
  split at hlimit <;> cases hlimit

/-- A table does not run out of levels. -/
theorem not_ranOut_ofRelation (parent : LineageMap) (output : List Attribute)
    (qualifier : List String) : ¬ RanOut (parent.ofRelation output qualifier) := by
  rw [LineageMap.ofRelation]
  split
  · exact not_ranOut_fail (by decide)
  · exact not_ranOut_pure _

/-- Joining to the lineage of a view does not run out of levels. -/
theorem not_ranOut_ofRelationPlan (parent : LineageMap) (output : List Attribute)
    (lineage : LineageMap) : ¬ RanOut (parent.ofRelationPlan output lineage) := by
  rw [LineageMap.ofRelationPlan]
  split
  · exact not_ranOut_fail (by simp [ExtractionError.kind])
  · exact not_ranOut_join _ _

/-- Showing a new view does not run out of levels. -/
theorem not_ranOut_ofNewView (view : String) (columns : List Label) (lineage : LineageMap) :
    ¬ RanOut (ofNewView view columns lineage) := by
  rw [ofNewView]
  split
  · exact not_ranOut_pure _
  · split
    · exact not_ranOut_fail (by simp [ExtractionError.kind])
    · exact not_ranOut_pure _

/-- Pairing the sides of a merge does not run out of levels. -/
theorem not_ranOut_ofMerge (target source : LineageMap) : ¬ RanOut (ofMerge target source) := by
  simp only [ofMerge]
  split
  · exact not_ranOut_pure _
  · exact not_ranOut_fail (by decide)

/-! ## Relations between computations -/

/-- A relation between computations of one kind of value. -/
abbrev TraceRelation := ∀ ⦃α : Type⦄, Traced ExtractionError α → Traced ExtractionError α → Prop

/-- The relation is kept where computations are run one after the other, and a computation that
does not run out of levels is related to itself. -/
structure Sequential (T : TraceRelation) : Prop where
  self : ∀ {α : Type} {x : Traced ExtractionError α}, ¬ RanOut x → T x x
  bind : ∀ {α β : Type} {x y : Traced ExtractionError α} {f g : α → Traced ExtractionError β},
    T x y → (∀ a, T (f a) (g a)) → T (x >>= f) (y >>= g)

/-- The same computation is run. -/
theorem sequential_eq : Sequential fun _ x y => x = y where
  self := fun _ => rfl
  bind := fun {_ _ x _ _ _} hxy hfg => hxy ▸ congrArg (x >>= ·) (funext hfg)

namespace Sequential

variable {T : TraceRelation} {α β : Type}

theorem pure (hT : Sequential T) (a : α) : T (pure a) (pure a) := hT.self (not_ranOut_pure a)

/-- Related computations that are followed alike stay related. -/
theorem bind_left (hT : Sequential T) {x y : Traced ExtractionError α} (hxy : T x y)
    {f : α → Traced ExtractionError β} (hf : ∀ a, ¬ RanOut (f a)) : T (x >>= f) (y >>= f) :=
  hT.bind hxy fun a => hT.self (hf a)

/-- One computation may be followed by related ones. -/
theorem bind_right (hT : Sequential T) {x : Traced ExtractionError α} (hx : ¬ RanOut x)
    {f g : α → Traced ExtractionError β} (hfg : ∀ a, T (f a) (g a)) : T (x >>= f) (x >>= g) :=
  hT.bind (hT.self hx) hfg

/-- Both computations are followed by the same function of their values. -/
theorem map (hT : Sequential T) {x y : Traced ExtractionError α} (hxy : T x y) (f : α → β) :
    T (x >>= fun a => Pure.pure (f a)) (y >>= fun a => Pure.pure (f a)) :=
  hT.bind_left hxy fun a => not_ranOut_pure (f a)

/-- What is run on two lists is related if it is member by member. -/
theorem mapM {γ δ : Type} (hT : Sequential T) {f : γ → Traced ExtractionError α}
    {g : δ → Traced ExtractionError α} {xs : List γ} {ys : List δ}
    (h : List.Forall₂ (fun x y => T (f x) (g y)) xs ys) : T (xs.mapM f) (ys.mapM g) := by
  induction h with
  | nil => exact hT.pure _
  | cons hxy _ ih =>
    rw [List.mapM_cons, List.mapM_cons]
    exact hT.bind hxy fun a => hT.map ih fun as => a :: as

/-- Computations that do alike are followed by related ones. -/
theorem bind_of_matches {γ δ : Type} (hT : Sequential T) {R : γ → δ → Prop}
    {x : Traced ExtractionError γ} {y : Traced ExtractionError δ} (h : Matches R x y)
    (hx : ¬ RanOut x) {f : γ → Traced ExtractionError α} {g : δ → Traced ExtractionError α}
    (hfg : ∀ a b, R a b → T (f a) (g b)) : T (x >>= f) (y >>= g) := by
  cases h with
  | @ok log a b hab =>
    have hlogged : ¬ RanOut (⟨log, .ok ⟨⟩⟩ : Traced ExtractionError PUnit) := not_ranOut_of_ok rfl
    exact hT.bind_right hlogged fun _ => hfg a b hab
  | @error log e =>
    have hfailed : ¬ RanOut (⟨log, .error e⟩ : Traced ExtractionError α) :=
      fun ⟨depth, limit, hlimit⟩ =>
        hx ⟨depth, limit, congrArg Except.error (Except.error.inj hlimit)⟩
    exact hT.self hfailed

end Sequential

/-! ## One level -/

/-- The plans have the same columns and are traced as the relation says. -/
structure Related (T : TraceRelation) (below below' : Below) (p q : Plan) : Prop where
  output : p.output = q.output
  answer : ∀ request, T (below p request) (below' q request)

section
variable {T : TraceRelation} {below below' : Below}

/-- Children are traced as the relation says where each of them is. -/
theorem related_ofChildren (hT : Sequential T) {children children' : List Plan}
    (h : List.Forall₂ (Related T below below') children children') (request : LineageMap) :
    T (ofChildren below children request) (ofChildren below' children' request) :=
  hT.map (hT.mapM (h.imp fun _ _ h => h.answer request)) _

/-- Entries that differ in their subqueries are traced as the relation says where these are. -/
theorem related_itemSources (hT : Sequential T) {f : Plan → Plan} {item item' : SelectItem}
    (houtline : item.mapSubqueries f = item'.mapSubqueries f)
    (h : List.Forall₂ (Related T below below') item.toExpr.subqueries item'.toExpr.subqueries) :
    T (itemSources below item) (itemSources below' item') := by
  rcases item with a | ⟨child, name, id⟩ <;> rcases item' with a' | ⟨child', name', id'⟩
  · rw [SelectItem.column.inj houtline]
    exact hT.pure _
  · cases houtline
  · cases houtline
  · obtain ⟨hchild, rfl, rfl⟩ := Alias.mk.inj (SelectItem.aliased.inj houtline)
    have hreferences : child.references = child'.references := by
      rw [← child.references_mapSubqueries f, ← child'.references_mapSubqueries f]
      exact congrArg Expr.references hchild
    have hcounts : child.countsRows = child'.countsRows := by
      rw [← child.countsRows_mapSubqueries f, ← child'.countsRows_mapSubqueries f]
      exact congrArg Expr.countsRows hchild
    refine hT.map ?_ _
    simp only [aliasSources, Alias.child, hreferences, hcounts, pure_bind]
    split
    · exact hT.map (hT.mapM (h.imp fun _ _ h => h.answer ∅)) _
    · exact hT.pure _

/-- Select lists that differ in their subqueries are related entry by entry. -/
theorem forall₂_itemSources (hT : Sequential T) {f : Plan → Plan} :
    ∀ {items items' : List SelectItem},
    items.map (SelectItem.mapSubqueries f) = items'.map (SelectItem.mapSubqueries f) →
    List.Forall₂ (Related T below below') (Expr.subqueriesOfAll (items.map SelectItem.toExpr))
      (Expr.subqueriesOfAll (items'.map SelectItem.toExpr)) →
    List.Forall₂ (fun item item' => T (itemSources below item) (itemSources below' item'))
      items items' := by
  intro items
  induction items with
  | nil =>
    intro items' houtline _
    rw [List.map_nil, eq_comm, List.map_eq_nil_iff] at houtline
    subst houtline
    exact .nil
  | cons item rest ih =>
    intro items' houtline h
    cases items' with
    | nil => cases houtline
    | cons item' rest' =>
      obtain ⟨hitem, hrest⟩ := List.cons.inj houtline
      have hlength : item.toExpr.subqueries.length = item'.toExpr.subqueries.length := by
        have hmapped := congrArg (fun item => item.toExpr.subqueries.length) hitem
        simpa only [SelectItem.toExpr_mapSubqueries, Expr.subqueries_mapSubqueries,
          List.length_map] using hmapped
      obtain ⟨hhead, htail⟩ := forall₂_of_append hlength h
      exact .cons (related_itemSources hT hitem hhead) (ih hrest htail)

/-- Select lists that differ in their subqueries are traced as the relation says where these are. -/
theorem related_ofSelectList (hT : Sequential T) {f : Plan → Plan}
    {items items' : List SelectItem}
    (houtline : items.map (SelectItem.mapSubqueries f) = items'.map (SelectItem.mapSubqueries f))
    (h : List.Forall₂ (Related T below below')
      (Expr.subqueriesOfAll (items.map SelectItem.toExpr))
      (Expr.subqueriesOfAll (items'.map SelectItem.toExpr))) :
    T (ofSelectList below items) (ofSelectList below' items') :=
  hT.map (hT.mapM (forall₂_itemSources hT houtline h)) _

end

end Lineage

/-- The plan writes or defines something, or shows the result of what does. -/
def Plan.isCommand : Plan → Bool
  | .commandResult .. | .alterView .. | .createView .. | .createTable .. | .insertTable ..
  | .insertDirectory .. | .saveSource .. | .merge .. => true
  | _ => false

/-- The settings tell a view not to be opened. -/
def Settings.skips (settings : Settings) : Plan → Bool
  | .view _ _ _ temporary => !temporary && settings.skipPersistedViews
  | _ => false

namespace Lineage

open Plan

section
variable {T : TraceRelation} {settings settings' : Settings} {below below' : Below} {p q : Plan}
  {parent : LineageMap}

/-- One level of commands that agree in outline, with parts that are traced as the relation says. -/
theorem related_step_of_command (hT : Sequential T)
    (h : Corresponds (Related T below below') p q) (hcommand : p.isCommand = true) :
    T (step settings below p parent) (step settings' below' q parent) := by
  obtain ⟨houtline, hentered, hbypassed, -, -, -⟩ := h
  cases p with
  | commandResult output command =>
    cases q with
    | commandResult output' command' =>
      exact (List.forall₂_cons.1 hbypassed).1.answer parent
    | _ => cases houtline
  | alterView name query =>
    cases q with
    | alterView name' query' =>
      obtain ⟨rfl, -⟩ := Plan.alterView.inj houtline
      exact hT.map ((List.forall₂_cons.1 hbypassed).1.answer parent) _
    | _ => cases houtline
  | createView name query type columns =>
    cases q with
    | createView name' query' type' columns' =>
      obtain ⟨rfl, -, rfl, rfl⟩ := Plan.createView.inj houtline
      simp only [step, stepAt]
      split
      · exact hT.self (not_ranOut_of_ok rfl)
      · exact hT.bind_left ((List.forall₂_cons.1 hbypassed).1.answer parent)
          (not_ranOut_ofNewView _ _)
    | _ => cases houtline
  | createTable name query replace =>
    cases q with
    | createTable name' query' replace' =>
      obtain ⟨rfl, -⟩ := Plan.createTable.inj houtline
      exact hT.map ((List.forall₂_cons.1 hentered).1.answer parent) _
    | _ => cases houtline
  | insertTable table query mode =>
    cases q with
    | insertTable table' query' mode' =>
      obtain ⟨rfl, -, rfl⟩ := Plan.insertTable.inj houtline
      cases table with
      | none => exact hT.self (not_ranOut_fail (by simp [ExtractionError.kind]))
      | some table => exact hT.map ((List.forall₂_cons.1 hentered).1.answer parent) _
    | _ => cases houtline
  | insertDirectory location query overwrite =>
    cases q with
    | insertDirectory location' query' overwrite' =>
      obtain ⟨rfl, -⟩ := Plan.insertDirectory.inj houtline
      simp only [step, stepAt]
      split
      · exact hT.self (not_ranOut_fail (by decide))
      · exact hT.self (not_ranOut_fail (by decide))
      · exact hT.map ((List.forall₂_cons.1 hentered).1.answer parent) _
    | _ => cases houtline
  | saveSource query provider =>
    cases q with
    | saveSource query' provider' => exact (List.forall₂_cons.1 hbypassed).1.answer parent
    | _ => cases houtline
  | merge target source matched notMatched =>
    cases q with
    | merge target' source' matched' notMatched' =>
      obtain ⟨-, -, hmatched, hnotMatched⟩ := Plan.merge.inj houtline
      -- an outline shows the references of the values that are assigned: one request serves both
      have hassignments := ofAssignments_congr (fun _ => .oneRow)
        (List.map_append.trans ((congrArg₂ _ hmatched hnotMatched).trans List.map_append.symm))
      obtain ⟨htarget, hsource⟩ := List.forall₂_cons.1 hbypassed
      simp only [step, stepAt, hassignments]
      refine hT.bind (htarget.answer _) fun targetLineage => ?_
      exact hT.bind_left ((List.forall₂_cons.1 hsource).1.answer _) (not_ranOut_ofMerge _)
    | _ => cases houtline
  | _ => cases hcommand

/-- One level of plans that agree in outline, with parts that are traced as the relation says. -/
theorem related_step (hT : Sequential T) (h : Corresponds (Related T below below') p q)
    (hclause : ∀ definitions body, p ≠ .withCte definitions body)
    (hskips : settings.skips p = settings'.skips q) :
    T (step settings below p parent) (step settings' below' q parent) := by
  have hrelated := h
  obtain ⟨houtline, hentered, -, -, hstored, -⟩ := h
  -- plans of one outline have one constructor: no other case of `q` remains
  cases p with
  | withCte definitions body => exact absurd rfl (hclause definitions body)
  | commandResult | alterView | createView | createTable | insertTable | insertDirectory
  | saveSource | merge => exact related_step_of_command hT hrelated rfl
  | project items child =>
    cases q with
    | project items' child' =>
      obtain ⟨hchild, hsubqueries⟩ := List.forall₂_cons.1 hentered
      refine hT.bind (related_ofSelectList hT (Plan.project.inj houtline).1 hsubqueries) ?_
      exact fun selected => hT.bind_right (not_ranOut_join parent selected) fun request =>
        related_ofChildren hT (.cons hchild .nil) request
    | _ => cases houtline
  | aggregate grouping items child =>
    cases q with
    | aggregate grouping' items' child' =>
      obtain ⟨hchild, hsubqueries⟩ := List.forall₂_cons.1 hentered
      refine hT.bind (related_ofSelectList hT (Plan.aggregate.inj houtline).2.1 hsubqueries) ?_
      exact fun selected => hT.bind_right (not_ranOut_join parent selected) fun request =>
        related_ofChildren hT (.cons hchild .nil) request
    | _ => cases houtline
  | window functions child partition order =>
    cases q with
    | window functions' child' partition' order' =>
      have hchild := (List.forall₂_cons.1 hentered).1
      have hfunctions := (Plan.window.inj houtline).1
      have hrequest := windowRequest_congr (fun _ => .oneRow) hfunctions
      simp only [step, stepAt, hchild.output, hrequest]
      exact related_ofChildren hT (.cons hchild .nil) _
    | _ => cases houtline
  | expand projections output child =>
    cases q with
    | expand projections' output' child' =>
      obtain ⟨hprojections, rfl, -⟩ := Plan.expand.inj houtline
      have hcolumns := ofProjections_congr (fun _ => .oneRow) hprojections output
      have hchild := (List.forall₂_cons.1 hentered).1
      simp only [step, stepAt, hcolumns]
      exact hT.bind_right (not_ranOut_join _ _) fun request =>
        related_ofChildren hT (.cons hchild .nil) request
    | _ => cases houtline
  | join left right type condition =>
    cases q with
    | join left' right' type' condition' =>
      obtain ⟨-, -, rfl, -⟩ := Plan.join.inj houtline
      simp only [step, stepAt]
      split
      · exact related_ofChildren hT hentered parent
      · exact (List.forall₂_cons.1 hentered).1.answer parent
    | _ => cases houtline
  | union branches output =>
    cases q with
    | union branches' output' =>
      obtain ⟨-, rfl⟩ := Plan.union.inj houtline
      exact hT.bind_left (hT.mapM (hentered.imp fun _ _ h => h.answer ∅))
        fun answers => not_ranOut_join _ _
    | _ => cases houtline
  | relation output table =>
    cases q with
    | relation output' table' =>
      obtain ⟨rfl, rfl⟩ := Plan.relation.inj houtline
      rw [step_relation, step_relation]
      exact hT.self (not_ranOut_ofRelation _ _ _)
    | _ => cases houtline
  | localRelation output rows =>
    cases q with
    | localRelation output' rows' =>
      obtain ⟨rfl, -⟩ := Plan.localRelation.inj houtline
      exact hT.self (not_ranOut_ofRelation _ _ _)
    | _ => cases houtline
  | oneRow =>
    cases q with
    | oneRow => exact hT.pure _
    | _ => cases houtline
  | view name output body temporary =>
    cases q with
    | view name' output' body' temporary' =>
      obtain ⟨rfl, rfl, -, rfl⟩ := Plan.view.inj houtline
      simp only [Settings.skips] at hskips
      simp only [step, stepAt, hskips]
      split
      · exact hT.self (not_ranOut_ofRelation _ _ _)
      · exact hT.bind_left ((List.forall₂_cons.1 hentered).1.answer ∅)
          (not_ranOut_ofRelationPlan _ _)
    | _ => cases houtline
  | cached output physical table =>
    cases q with
    | cached output' physical' table' =>
      obtain ⟨rfl, -, rfl⟩ := Plan.cached.inj houtline
      replace hstored : List.Forall₂ (Related T below below') physical.linkLevels.flatten
          physical'.linkLevels.flatten := hstored
      simp only [step, stepAt, PhysicalNode.findLink_singleton]
      -- the link that is found is the first of all, and the links correspond one by one
      rcases head?_of_forall₂ hstored with ⟨hnone, hnone'⟩ | ⟨link, link', hsome, hsome', hlink⟩
      · rw [hnone, hnone']
        exact hT.self (not_ranOut_ofRelation _ _ _)
      · rw [hsome, hsome']
        exact hT.bind_left (hlink.answer ∅) (not_ranOut_ofRelationPlan _ _)
    | _ => cases houtline
  | cteReference id output =>
    cases q with
    | cteReference id' output' => exact hT.pure _
    | _ => cases houtline
  | cteDefinition definition =>
    cases q with
    | cteDefinition definition' =>
      exact hT.bind_right (not_ranOut_note _) fun _ => related_ofChildren hT hentered parent
    | _ => cases houtline
  | operator name children output =>
    cases q with
    | operator name' children' output' =>
      obtain ⟨rfl, -, rfl⟩ := Plan.operator.inj houtline
      replace hentered : List.Forall₂ (Related T below below') children children' := hentered
      have hempty : children.isEmpty = children'.isEmpty := by cases hentered <;> rfl
      simp only [step, stepAt, hempty]
      split
      · exact hT.pure _
      · exact hT.bind_right (not_ranOut_note _) fun _ => related_ofChildren hT hentered parent
    | _ => cases houtline

end

end Lineage

end ColumnTrace
