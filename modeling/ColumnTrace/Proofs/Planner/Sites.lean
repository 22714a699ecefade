import ColumnTrace.Proofs.Lineage.NamedColumns

/-!
# Closed plans

What a plan may refer to depends on where it stands: on the `WITH` clauses around it, and for a
scalar subquery on the rows of the queries around it. A `Site` is a plan together with both. A site
is closed (`Site.IsClosed`) where every column that its operator reads comes from below or from a
query around, and every named query that it refers to is in scope with as many columns.
-/

set_option autoImplicit false

namespace ColumnTrace

namespace Plan

/-- The expressions of an operator. -/
def exprs : Plan → List Expr
  | .project items _ => items.map SelectItem.toExpr
  | .aggregate grouping items _ => grouping ++ items.map SelectItem.toExpr
  | .window functions _ partition order => functions.map Alias.child ++ (partition ++ order)
  | .expand projections _ _ => projections.flatten
  | .join _ _ _ condition => condition.toList
  | .merge _ _ matched notMatched => (matched ++ notMatched).flatMap MergeAction.exprs
  | _ => []

/-- The columns of the plans below. -/
def input (plan : Plan) : List Attribute := plan.children.flatMap output

/-- The columns of the rows that a query works on. Windows and expansions belong to the query: what
they add to its rows is not there for the subqueries in it. -/
def blockInput : Plan → List Attribute
  | .project _ (.window _ child _ _) => child.output
  | .aggregate _ _ (.expand _ _ child) => child.output
  | plan => plan.input

/-- The columns that a merge may assign. -/
def assignable : Plan → List Attribute
  | .merge target _ _ _ => target.output
  | _ => []

/-- The number of the named query that a plan refers to, with the number of columns. -/
def reference? : Plan → Option (Int × Nat)
  | .cteReference id output => some (id, output.length)
  | _ => none

end Plan

/-- A plan where it stands: the named queries in scope by number, the latest first, each with the
number of its columns, and the columns of the rows of the queries around. -/
structure Site where
  ctes : List (Int × Nat)
  outer : List Attribute
  plan : Plan

namespace Site

/-- The named queries of a `WITH` clause, each in the scope of those before it, and the plan under
the clause. A named query sees no rows around it. -/
def ofDefinitions (ctes : List (Int × Nat)) (outer : List Attribute) :
    List CteDefinition → Plan → List Site
  | [], body => [⟨ctes, outer, body⟩]
  | .mk id child :: rest, body =>
    ⟨ctes, [], child⟩ :: ofDefinitions ((id, child.output.length) :: ctes) outer rest body

/-- The sites directly below. The queries of views, stored results and commands stand by themselves;
subqueries see the rows of the query that they stand in. -/
def below (s : Site) : List Site :=
  match s.plan with
  | .withCte definitions body => ofDefinitions s.ctes s.outer definitions body
  | .cteDefinition definition => [⟨s.ctes, [], definition.child⟩]
  | .view _ _ body _ => [⟨[], [], body⟩]
  | .cached _ physical _ => physical.linkLevels.flatten.map fun query => ⟨[], [], query⟩
  | .commandResult _ query => [⟨[], [], query⟩]
  | .alterView _ query => [⟨[], [], query⟩]
  | .createView _ query _ _ => [⟨[], [], query⟩]
  | .saveSource query _ => [⟨[], [], query⟩]
  | plan =>
    plan.children.map (fun child => ⟨s.ctes, s.outer, child⟩) ++
      (Expr.subqueriesOfAll plan.exprs).map fun query =>
        ⟨s.ctes, plan.blockInput ++ s.outer, query⟩

/-- The site and all sites below it have a property. -/
inductive All (P : Site → Prop) : Site → Prop
  | mk {s : Site} (here : P s) (below : ∀ b ∈ s.below, All P b) : All P s

/-- The operator at a site reads only what is there: columns from below or of the rows around, named
queries that are in scope. -/
structure IsClosed (s : Site) : Prop where
  columns : ∀ a ∈ Expr.attributesOfAll s.plan.exprs, a ∈ s.plan.input ++ s.outer
  assigned : ∀ a ∈ s.plan.columnsAssigned, a ∈ s.plan.assignable
  references : ∀ id width, s.plan.reference? = some (id, width) → s.ctes.lookup id = some width

variable {P Q : Site → Prop} {s : Site}

/-- What holds of all sites holds here. -/
theorem All.here (h : All P s) : P s := by
  cases h with
  | mk here _ => exact here

/-- What holds of all sites holds of all below a site. -/
theorem All.of_mem (h : All P s) {b : Site} (hb : b ∈ s.below) : All P b := by
  cases h with
  | mk _ below => exact below b hb

/-- The site and the sites below it, not more than so many levels down, have a property. -/
def AllWithin (P : Site → Prop) : Nat → Site → Prop
  | 0, _ => False
  | levels + 1, s => P s ∧ ∀ b ∈ s.below, AllWithin P levels b

instance decidableAllWithin (P : Site → Prop) [DecidablePred P] :
    ∀ (levels : Nat) (s : Site), Decidable (AllWithin P levels s)
  | 0, _ => instDecidableFalse
  | levels + 1, s =>
    have := decidableAllWithin P levels
    inferInstanceAs (Decidable (P s ∧ ∀ b ∈ s.below, AllWithin P levels b))

/-- What holds of all sites that are found within some levels, with none below, holds of all. -/
theorem all_of_allWithin {levels : Nat} : ∀ {s : Site}, AllWithin P levels s → All P s := by
  induction levels with
  | zero => exact fun h => h.elim
  | succ levels ih => exact fun h => .mk h.1 fun b hb => ih (h.2 b hb)

/-- Less may be said of all sites. -/
theorem All.imp (hPQ : ∀ s, P s → Q s) (h : All P s) : All Q s := by
  induction h with
  | mk here _ ih => exact .mk (hPQ _ here) ih

/-! ## More rows around -/

/-- The second site is the first with more rows around. -/
structure Widens (s t : Site) : Prop where
  ctes : s.ctes = t.ctes
  outer : s.outer ⊆ t.outer
  plan : s.plan = t.plan

theorem Widens.refl (s : Site) : s.Widens s := ⟨rfl, List.Subset.refl _, rfl⟩

/-- Under more rows around the sites of a clause are the same with more rows around. -/
theorem exists_widens_ofDefinitions {outer wider : List Attribute} (houter : outer ⊆ wider)
    (body : Plan) {b : Site} : ∀ (definitions : List CteDefinition) (ctes : List (Int × Nat)),
    b ∈ ofDefinitions ctes wider definitions body →
    ∃ c ∈ ofDefinitions ctes outer definitions body, c.Widens b
  | [], ctes, hb => by
    obtain rfl := List.mem_singleton.1 hb
    exact ⟨_, List.mem_singleton_self _, rfl, houter, rfl⟩
  | .mk id child :: rest, ctes, hb => by
    rcases List.mem_cons.1 hb with rfl | hrest
    · exact ⟨_, List.mem_cons_self, .refl _⟩
    · obtain ⟨c, hc, hwidens⟩ := exists_widens_ofDefinitions houter body rest _ hrest
      exact ⟨c, List.mem_cons_of_mem _ hc, hwidens⟩

/-- What stands below the wider site stands below the other one with fewer rows around. -/
theorem Widens.exists_of_mem {t b : Site} (h : s.Widens t) (hb : b ∈ t.below) :
    ∃ c ∈ s.below, c.Widens b := by
  obtain ⟨ctes, outer, plan⟩ := s
  obtain ⟨_, wider, _⟩ := t
  obtain ⟨rfl, houter, rfl⟩ := h
  have hplain : ∀ {children queries : List Plan} {input : List Attribute},
      b ∈ children.map (fun child => (⟨ctes, wider, child⟩ : Site)) ++
        queries.map (fun query => ⟨ctes, input ++ wider, query⟩) →
      ∃ c ∈ children.map (fun child => (⟨ctes, outer, child⟩ : Site)) ++
        queries.map (fun query => ⟨ctes, input ++ outer, query⟩), c.Widens b := by
    intro children queries input hb
    rcases List.mem_append.1 hb with hmem | hmem
    · obtain ⟨child, hchild, rfl⟩ := List.mem_map.1 hmem
      have hc := List.mem_map_of_mem (f := fun child => (⟨ctes, outer, child⟩ : Site)) hchild
      exact ⟨_, List.mem_append_left _ hc, rfl, houter, rfl⟩
    · obtain ⟨query, hquery, rfl⟩ := List.mem_map.1 hmem
      have hc := List.mem_map_of_mem (f := fun q => (⟨ctes, input ++ outer, q⟩ : Site)) hquery
      refine ⟨_, List.mem_append_right _ hc, rfl, ?_, rfl⟩
      exact List.append_subset.2 ⟨List.subset_append_left _ _,
        List.Subset.trans houter (List.subset_append_right _ _)⟩
  cases plan with
  | withCte definitions body => exact exists_widens_ofDefinitions houter body definitions ctes hb
  | cteDefinition _ => exact ⟨b, hb, .refl b⟩
  | view _ _ _ _ => exact ⟨b, hb, .refl b⟩
  | cached _ _ _ => exact ⟨b, hb, .refl b⟩
  | commandResult _ _ => exact ⟨b, hb, .refl b⟩
  | alterView _ _ => exact ⟨b, hb, .refl b⟩
  | createView _ _ _ _ => exact ⟨b, hb, .refl b⟩
  | saveSource _ _ => exact ⟨b, hb, .refl b⟩
  | _ => exact hplain hb

/-- A property that more rows around do not take away stays with all sites below. -/
theorem All.widen (hP : ∀ s t, s.Widens t → P s → P t) (h : All P s) :
    ∀ {t : Site}, s.Widens t → All P t := by
  induction h with
  | mk here _ ih =>
    intro t hwidens
    refine .mk (hP _ t hwidens here) fun b hb => ?_
    obtain ⟨c, hc, hcb⟩ := hwidens.exists_of_mem hb
    exact ih c hc hcb

/-- A closed site stays closed among more rows. -/
theorem IsClosed.widen {t : Site} (hwidens : s.Widens t) (h : s.IsClosed) : t.IsClosed := by
  obtain ⟨ctes, outer, plan⟩ := s
  obtain ⟨_, wider, _⟩ := t
  obtain ⟨rfl, houter, rfl⟩ := hwidens
  refine ⟨fun a ha => ?_, h.assigned, h.references⟩
  exact List.append_subset.2 ⟨List.subset_append_left _ _,
    List.Subset.trans houter (List.subset_append_right _ _)⟩ (h.columns a ha)

end Site

end ColumnTrace
