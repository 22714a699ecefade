import ColumnTrace.Proofs.Planner.AgreeingQueries
import Mathlib.Data.Finset.Card

/-!
# How deep the expansion of stored texts goes

Planning a query asks for the plans of the queries in it and, through the catalog, for the plans of
stored texts, which may read each other and themselves. No bound is needed for that: where every way
to plan is put together from the one before it (`Planning.Unfolds`), as many of them as `depthLimit`
says give the plan of a statement, whatever the first of them does
(`Planning.plan_eq_planStatement`). Nothing is asked of a text that is planned while a name is
expanded inside its own expansion. The measure is the number of named tables that are not being
expanded, then the height of the tree.
-/

set_option autoImplicit false

namespace ColumnTrace

/-! ## Ways to plan -/

namespace Planner

/-- The first statement of a stored text is planned on its own tree, outside the named queries of
the statement. -/
def onText (sql : String) (x : Sql.Node → Planner Plan) : Planner Plan := do
  let node ← ofExcept (((← context).library.first sql).mapError PlanningError.unreadable)
  within (.detached node) (x node)

/-- A stored query is planned on its own tree, with one fewer left to be open. -/
theorem storedQuery_succ (open_ : Nat) (sql : String) : storedQuery (open_ + 1) sql =
    onText sql fun node => (Tier.upTo (storedQuery open_) node.height).query [] node := rfl

/-- A text is planned alike if its first statement is. -/
theorem agrees_onText {base : Context} {sql : String} {x y : Sql.Node → Planner Plan}
    (h : ∀ node, base.library.first sql = .ok node → Agrees base (x node) (y node)) :
    Agrees base (onText sql x) (onText sql y) := by
  intro root ctes
  rw [onText, onText, context_bind_apply, context_bind_apply]
  dsimp only
  cases hfirst : base.library.first sql with
  | error cause => rfl
  | ok node =>
    rw [Except.mapError, ofExcept, pure_bind, pure_bind]
    exact h node hfirst node []

end Planner

/-- A way to plan stored texts, queries and expressions. -/
structure Planning where
  stored : String → Planner Plan
  tier : Tier

namespace Planning

/-- The plan of a stored text. -/
def text (p : Planning) (sql : String) : Planner Plan :=
  Planner.onText sql fun node => p.tier.query [] node

/-- The plan of a statement. -/
def plan (p : Planning) (s : Surroundings) (statement : Sql.Node) : Numbers → Outcome Plan :=
  Planner.statement p.stored p.tier statement (s.context statement)

/-- One level of the recursion: queries, expressions and stored texts are planned through the way
below. Of a text that is planned while a name is expanded inside its own expansion nothing is
asked. -/
structure Unfolds (below above : Planning) : Prop where
  tier : above.tier = Tier.through below.stored below.tier
  stored : ∀ sql context, context.expanding.Nodup →
    above.stored sql context = below.text sql context

/-- One level of the recursion, wherever a text is planned. -/
def unfold (p : Planning) : Planning := ⟨p.text, Tier.through p.stored p.tier⟩

/-- So many levels of the recursion. -/
def levels (p : Planning) : Nat → Planning
  | 0 => p
  | k + 1 => (p.levels k).unfold

theorem unfolds_levels (p : Planning) (k : Nat) : (p.levels k).Unfolds (p.levels (k + 1)) :=
  ⟨rfl, fun _ _ _ => rfl⟩

end Planning

/-- How many levels of the recursion are enough for a statement: for each stored text that may be
open one more than the height of the trees, and the height of the statement. -/
def depthLimit (library : Sql.Library) (statement : Sql.Node) : Nat :=
  openLimit library statement * (library.treeHeight + 1) + statement.height

/-! ## Names that are not being expanded -/

/-- How many names of a list are not being expanded. -/
def Context.remaining (names : List String) (context : Context) : Nat :=
  (names.toFinset \ context.expanding.toFinset).card

/-- With a name more that is being expanded, fewer remain. -/
theorem Context.remaining_lt {names : List String} {context : Context} {name : String}
    (hmem : name ∈ names) (hnew : name ∉ context.expanding) :
    remaining names { context with expanding := name :: context.expanding } <
      context.remaining names := by
  unfold remaining
  rw [List.toFinset_cons, Finset.sdiff_insert]
  apply Finset.card_erase_lt_of_mem
  rw [Finset.mem_sdiff, List.mem_toFinset, List.mem_toFinset]
  exact ⟨hmem, hnew⟩

/-- No more names remain than there are. -/
theorem Context.remaining_le (names : List String) (context : Context) :
    context.remaining names ≤ names.length :=
  Nat.le_trans (Finset.card_le_card Finset.sdiff_subset) (List.toFinset_card_le names)

namespace Planning

variable {P : Nat → Planning} {names : List String} {limit : Nat} {base : Context}

/-- The trees of all stored texts fit a list of names and a height. -/
def Covers (names : List String) (limit : Nat) (base : Context) : Prop :=
  ∀ sql node, base.library.first sql = .ok node → node.Fits names limit

section
variable (hP : ∀ k, (P k).Unfolds (P (k + 1)))
include hP

/-- From some level on, every way to plan agrees with the tiers up to a height, where it agrees on
the stored texts that they may ask for. -/
theorem tier_agree {stored : String → Planner Plan} {start : Nat}
    (hstored : ∀ k, start ≤ k → AgreeOnStored base names (P k).stored stored) (height : Nat) :
    ∀ k tall, start + height ≤ k → height ≤ tall →
      Tier.Agree base names height (P k).tier (Tier.upTo stored tall) := by
  induction height with
  | zero => exact fun k tall _ _ => Tier.agree_zero _ _
  | succ height ih =>
    intro k tall hk htall
    obtain ⟨k, rfl⟩ := Nat.exists_eq_add_one_of_ne_zero (show k ≠ 0 by omega)
    obtain ⟨tall, rfl⟩ := Nat.exists_eq_add_one_of_ne_zero (show tall ≠ 0 by omega)
    rw [(hP k).tier]
    exact Tier.agree_through (hstored k (by omega)) (ih k tall (by omega) (by omega))

/-- A stored text is planned alike where the stored texts in it are. -/
theorem stored_agree (base : Context) (hnodup : base.expanding.Nodup)
    (hcovers : Covers names limit base) (start open_ : Nat) (hstored : ∀ k, start ≤ k →
      AgreeOnStored base names (P k).stored (Planner.storedQuery open_))
    {k : Nat} (hk : start + limit < k) (sql : String) :
    Planner.Agrees base ((P k).stored sql) (Planner.storedQuery (open_ + 1) sql) := by
  obtain ⟨k, rfl⟩ := Nat.exists_eq_add_one_of_ne_zero (show k ≠ 0 by omega)
  have htext : Planner.Agrees base ((P k).text sql) (Planner.storedQuery (open_ + 1) sql) := by
    apply Planner.agrees_onText
    intro node hfirst
    have hnode : node.Fits names limit := hcovers sql node hfirst
    have hheight : node.height ≤ limit := hnode.height_le
    have htier := tier_agree hP hstored node.height k node.height (by omega) (Nat.le_refl _)
    exact htier.query [] node ⟨Nat.le_refl _, hnode.tables⟩
  exact fun root ctes => ((hP k).stored sql { base with root, ctes } hnodup).trans (htext root ctes)

/-- By induction on the number of names that remain: what may be asked for is planned alike. -/
theorem agreeOnStored (remaining : Nat) : ∀ base : Context, base.expanding.Nodup →
    Covers names limit base → base.remaining names ≤ remaining →
    ∀ k open_, remaining * (limit + 1) ≤ k → remaining ≤ open_ →
      AgreeOnStored base names (P k).stored (Planner.storedQuery open_) := by
  induction remaining with
  | zero =>
    intro base _ _ hremaining k open_ _ _ name hmem hnew
    have hlt := Context.remaining_lt hmem hnew
    omega
  | succ remaining ih =>
    intro base hnodup hcovers hremaining k open_ hk hopen name hmem hnew
    have hlt := Context.remaining_lt hmem hnew
    obtain ⟨open_, rfl⟩ := Nat.exists_eq_add_one_of_ne_zero (show open_ ≠ 0 by omega)
    rw [Nat.add_one_mul] at hk
    have hnodup : (name :: base.expanding).Nodup := List.nodup_cons.2 ⟨hnew, hnodup⟩
    intro sql
    apply stored_agree hP { base with expanding := name :: base.expanding } hnodup hcovers
      (remaining * (limit + 1)) open_
    · intro k hk
      apply ih { base with expanding := name :: base.expanding } hnodup hcovers <;> omega
    · omega

/-- Enough levels of the recursion give the plan of a statement, whatever the first of them does. -/
theorem plan_eq_planStatement (s : Surroundings) (statement : Sql.Node) {k : Nat}
    (hk : depthLimit s.library statement ≤ k) :
    (P k).plan s statement = planStatement s statement := by
  let names := statement.tableNames ++ s.library.tableNames
  let limit := s.library.treeHeight
  let base : Context := s.context statement
  have hnodup : base.expanding.Nodup := List.nodup_nil
  have hcovers : Covers names limit base := fun sql node hfirst =>
    (Sql.Library.fits_of_first hfirst).names_mono (List.subset_append_right _ _)
  have hnode : statement.Fits names statement.height :=
    statement.fits_tableNames.names_mono (List.subset_append_left _ _)
  have hopen : openLimit s.library statement = names.length + 1 := by
    rw [openLimit, List.length_append, Sql.Node.length_tableNames,
      Sql.Library.length_tableNames]
  have hk : names.length * (limit + 1) + (limit + 1) + statement.height ≤ k := by
    rwa [depthLimit, hopen, Nat.add_one_mul] at hk
  -- each expansion takes one more name from the finite stock of names
  have hstored : ∀ open_, names.length ≤ open_ → ∀ k, names.length * (limit + 1) ≤ k →
      AgreeOnStored base names (P k).stored (Planner.storedQuery open_) :=
    fun open_ hopen k hk => agreeOnStored hP names.length base hnodup hcovers
      (base.remaining_le names) k open_ hk hopen
  have hchanged : ∀ sql, Planner.Agrees base ((P k).stored sql)
      (Planner.storedQuery (names.length + 1) sql) :=
    stored_agree hP base hnodup hcovers (names.length * (limit + 1)) names.length
      (hstored names.length (Nat.le_refl _)) (by omega)
  have htier := tier_agree hP (hstored (names.length + 1) (Nat.le_succ _)) statement.height k
    statement.height (by omega) (Nat.le_refl _)
  have hstatement := Planner.agrees_statement (hstored (names.length + 1) (Nat.le_succ _) k
    (by omega)) hchanged htier hnode
  rw [planStatement_eq, Surroundings.planner, hopen]
  exact hstatement statement []

end

end Planning

end ColumnTrace
