import ColumnTrace.Proofs.Planner.AgreeingExpressions

/-!
# Planning in two places

A query may stand in two statements. Planning looks at the statement around it only to infer the
columns of unknown tables, so where both statements refer to these alike (`Places.ReferAlike`) it
does the same in both. There is one rule for each way to build a computation that does so
(`Planner.Alike`, `Projecting.Alike`), and expressions, select lists and groups do where their
parts and the queries in them do (`Resolver.alike_step`, `Resolver.Alike.selectList`,
`Resolver.Alike.aggregate`).
-/

set_option autoImplicit false

namespace ColumnTrace

/-- Two statements that a query may stand in, under one catalog. -/
structure Places where
  catalog : Catalog
  first : Sql.Node
  second : Sql.Node

/-- Both statements refer alike to the tables below the node that the catalog does not know. -/
def Places.ReferAlike (places : Places) (n : Sql.Node) : Prop :=
  ∀ table ∈ n.preorder, table.is "Table" = true →
    places.catalog.knows table.qualifiedName = false →
    places.first.qualifiedReferences table.sourceNames =
      places.second.qualifiedReferences table.sourceNames

variable {places : Places}

/-- What holds of the references below a node holds of those below its parts. -/
theorem Places.ReferAlike.passes (n : Sql.Node) (h : places.ReferAlike n) :
    n.Passes places.ReferAlike :=
  fun _ hm table htable => h table (Sql.Node.preorder_subset_of_mem_children hm htable)

variable {α β γ : Type}

namespace Planner

/-- The computation does the same in both places. -/
def Alike (places : Places) (x : Planner α) : Prop :=
  ∀ context : Context, context.catalog = places.catalog →
    x { context with root := places.first } = x { context with root := places.second }

theorem alike_pure (a : α) : Alike places (pure a) := fun _ _ => rfl

theorem alike_fail (e : PlanningError) : Alike places (fail e : Planner α) := fun _ _ => rfl

/-- What follows a computation may count on its result and on the catalog. -/
theorem Alike.bind_of {x : Planner α} {k : α → Planner β} (hx : Alike places x)
    (hk : ∀ context numbers a, context.catalog = places.catalog →
      (x context numbers).result = .ok a → Alike places (k a)) : Alike places (x >>= k) := by
  intro context hcatalog
  funext numbers
  rw [bind_apply, bind_apply, hx context hcatalog]
  cases ha : (x { context with root := places.second } numbers).result with
  | error e => rfl
  | ok a =>
    dsimp only
    rw [hk { context with root := places.second } numbers a hcatalog ha context hcatalog]

/-- Computations do the same step by step. -/
theorem Alike.bind {x : Planner α} {k : α → Planner β} (hx : Alike places x)
    (hk : ∀ a, Alike places (k a)) : Alike places (x >>= k) :=
  hx.bind_of fun _ _ a _ _ => hk a

/-- A computation that fails does not come to what follows. -/
theorem alike_fail_bind (e : PlanningError) (k : α → Planner β) :
    Alike places (fail e >>= k) := fun _ _ => rfl

/-- A result that needs no context is the same in both places. -/
theorem alike_ofExcept (x : Except PlanningError α) : Alike places (ofExcept x) := by
  cases x with
  | ok a => exact alike_pure a
  | error e => exact alike_fail e

/-- What is read off a tree is the same in both places. -/
theorem alike_ofExcept_bind {x : Except PlanningError α} {k : α → Planner β}
    (hk : ∀ a, x = .ok a → Alike places (k a)) : Alike places (ofExcept x >>= k) := by
  cases x with
  | error e => exact alike_fail_bind e k
  | ok a =>
    rw [ofExcept, pure_bind]
    exact hk a rfl

/-- A part that is required is the same in both places. -/
theorem alike_require (found : Option α) : Alike places (require found) := by
  cases found with
  | some a => exact alike_pure a
  | none => exact alike_fail _

/-- What is run on a list does the same if it does on each member. -/
theorem alike_mapM {k : γ → Planner β} {xs : List γ} (hk : ∀ x ∈ xs, Alike places (k x)) :
    Alike places (xs.mapM k) := by
  induction xs with
  | nil => exact alike_pure []
  | cons x rest ih =>
    rw [List.mapM_cons]
    refine (hk x List.mem_cons_self).bind fun b => ?_
    exact (ih fun y hy => hk y (List.mem_cons_of_mem x hy)).bind fun bs => alike_pure _

theorem alike_note (entry : LogEntry) : Alike places (note entry) := fun _ _ => rfl

theorem alike_freshId : Alike places freshId := fun _ _ => rfl

theorem alike_freshColumn (name : Label) : Alike places (freshColumn name) := fun _ _ => rfl

theorem alike_freshColumns (names : List Label) : Alike places (freshColumns names) :=
  alike_mapM fun name _ => alike_freshColumn name

theorem alike_write (n : Sql.Node) : Alike places (write n) :=
  fun context hcatalog => alike_ofExcept (n.write context.engine) context hcatalog

theorem alike_findCte? (name : String) : Alike places (findCte? name) := fun _ _ => rfl

theorem alike_catalog : Alike places catalog := fun _ _ => rfl

end Planner

namespace Projecting

/-- The computation does the same in both places, whatever window functions were taken out. -/
def Alike (places : Places) (x : Projecting α) : Prop :=
  ∀ windows : Windows, Planner.Alike places (x.run windows)

theorem alike_pure (a : α) : Alike places (pure a) := fun _ => Planner.alike_pure _

/-- Planning without window functions does the same where they are allowed. -/
theorem alike_lift {x : Planner α} (h : Planner.Alike places x) :
    Alike places (liftM x : Projecting α) :=
  fun _ => h.bind fun _ => Planner.alike_pure _

/-- Computations do the same step by step. -/
theorem Alike.bind {x : Projecting α} {k : α → Projecting β} (hx : Alike places x)
    (hk : ∀ a, Alike places (k a)) : Alike places (x >>= k) :=
  fun windows => (hx windows).bind fun first => hk first.1 first.2

/-- What follows a result may count on it. -/
theorem alike_ofExcept_bind {x : Except PlanningError α} {k : α → Projecting β}
    (hk : ∀ a, x = .ok a → Alike places (k a)) :
    Alike places ((liftM (Planner.ofExcept x) : Projecting α) >>= k) := by
  cases x with
  | error e => exact fun _ _ _ => rfl
  | ok a =>
    rw [Planner.ofExcept, liftM_pure, pure_bind]
    exact hk a rfl

/-- What is run on a list does the same if it does on each member. -/
theorem alike_mapM {k : γ → Projecting β} {xs : List γ} (hk : ∀ x ∈ xs, Alike places (k x)) :
    Alike places (xs.mapM k) := by
  induction xs with
  | nil => exact alike_pure []
  | cons x rest ih =>
    rw [List.mapM_cons]
    refine (hk x List.mem_cons_self).bind fun b => ?_
    exact (ih fun y hy => hk y (List.mem_cons_of_mem x hy)).bind fun bs => alike_pure _

/-- Without window functions there is only the value. -/
theorem Alike.value {x : Projecting α} (h : Alike places x) :
    Planner.Alike places (do return (← x.run none).1) :=
  (h none).bind fun _ => Planner.alike_pure _

end Projecting

/-- The queries that both statements refer to alike are planned to the same in both places. -/
def QueriesAlike (places : Places) (query : Scope → Sql.Node → Planner Plan) : Prop :=
  ∀ scope node, places.ReferAlike node → Planner.Alike places (query scope node)

namespace Resolver

open Planner

/-- The expressions that both statements refer to alike are planned to the same in both places. -/
def Alike (places : Places) (resolve : Resolver) : Prop :=
  ∀ scope node, places.ReferAlike node → Projecting.Alike places (resolve scope node)

variable {resolve : Resolver}

section
variable (h : Alike places resolve) (scope : Scope)
include h

theorem Alike.value {v : Sql.Value} (hv : v.All places.ReferAlike) :
    Projecting.Alike places (resolve.value scope v) :=
  Projecting.alike_ofExcept_bind fun node hnode => h scope node (hv.toNode hnode)

theorem Alike.plain {v : Sql.Value} (hv : v.All places.ReferAlike) :
    Planner.Alike places (resolve.plain scope v) :=
  (h.value scope hv).value

/-! ## Expressions -/

variable {node : Sql.Node} (hnode : node.Passes places.ReferAlike)
include hnode

/-- A window function is planned to the same in both places. -/
theorem Alike.windowAlias (before : Nat) :
    Planner.Alike places (resolve.windowAlias scope node before) := by
  refine (h.plain scope (hnode.arg "this")).bind fun function => ?_
  refine alike_ofExcept_bind fun partition hpartition => ?_
  refine (alike_mapM fun term hterm =>
    h.plain scope (hnode.items hpartition term hterm)).bind fun partition => ?_
  refine alike_ofExcept_bind fun order horder => ?_
  refine (alike_mapM fun term hterm => h.plain scope
    (all_orderTerms Places.ReferAlike.passes hnode horder term hterm)).bind fun order => ?_
  exact alike_freshId.bind fun id => alike_pure _

/-- A window is planned to the same in both places. -/
theorem Alike.window : Projecting.Alike places (resolve.window scope node) := by
  intro windows
  cases windows with
  | none => exact alike_fail _
  | some taken =>
    exact (h.windowAlias scope hnode taken.length).bind fun function => alike_pure _

/-- A count of rows is planned to the same in both places. -/
theorem Alike.count : Projecting.Alike places (resolve.count scope node) := by
  refine Projecting.alike_ofExcept_bind fun counted hcounted => ?_
  cases counted with
  | none => exact Projecting.alike_pure _
  | some arg =>
    have harg : places.ReferAlike arg := (hnode.arg "this").nodeIfThere hcounted
    dsimp only
    split
    · refine Projecting.alike_ofExcept_bind fun items hitems => ?_
      exact (Projecting.alike_mapM fun item hitem =>
        h.value scope ((harg.passes arg).items hitems item hitem)).bind fun args =>
          Projecting.alike_pure _
    split
    · exact Projecting.alike_pure _
    · exact (h scope arg harg).bind fun e => Projecting.alike_pure _

end

/-- One level of an expression is planned to the same where its parts and the queries in it are. -/
theorem alike_step {query : Scope → Sql.Node → Planner Plan} (hquery : QueriesAlike places query)
    (h : Alike places resolve) : Alike places (Resolver.step query resolve) := by
  intro scope node hnode
  have hpasses := hnode.passes node
  have hwritten : Projecting.Alike places (do
      return Expr.literal (← (Planner.write node : Planner String))) :=
    (Projecting.alike_lift (alike_write node)).bind fun text => Projecting.alike_pure _
  rw [Resolver.step]
  split
  · split
    · exact Projecting.alike_lift ((alike_write node).bind fun text => alike_fail _)
    · exact Projecting.alike_ofExcept_bind fun a _ => Projecting.alike_pure _
  split
  · exact hwritten
  split
  · exact (Projecting.alike_lift (hquery scope node hnode)).bind fun _ => Projecting.alike_pure _
  split
  · exact (h.window scope hpasses).bind fun _ => Projecting.alike_pure _
  split
  · exact h.count scope hpasses
  split
  · exact h.value scope (hpasses.arg "this")
  split
  · exact hwritten
  · exact (Projecting.alike_mapM fun child hchild => h scope child (hpasses child hchild)).bind
      fun args => Projecting.alike_pure _

/-! ## Select lists -/

section
variable (h : Alike places resolve) (scope : Scope)
include h

/-- An entry of a select list is planned to the same in both places. -/
theorem Alike.selectItems {entry : Sql.Value} (hentry : entry.All places.ReferAlike) :
    Projecting.Alike places (resolve.selectItems scope entry) := by
  refine Projecting.alike_ofExcept_bind fun node hread => ?_
  have hnode : places.ReferAlike node := hentry.toNode hread
  have hnumbered : ∀ item : Int → List SelectItem, Projecting.Alike places (do
      return item (← (Planner.freshId : Planner Int))) := fun item =>
    (Projecting.alike_lift alike_freshId).bind fun id => Projecting.alike_pure _
  split
  · exact Projecting.alike_ofExcept_bind fun columns _ => Projecting.alike_pure _
  split
  · refine (h.value scope ((hnode.passes node).arg "this")).bind fun e => ?_
    exact hnumbered fun id => [.aliased (.mk e (some (normalize node.aliasName)) id)]
  · refine (h scope node hnode).bind fun e => ?_
    have hnamed : Projecting.Alike places (do
        let name ← (Planner.write node : Planner String)
        return [SelectItem.aliased (.mk e (some name) (← (Planner.freshId : Planner Int)))]) :=
      (Projecting.alike_lift (alike_write node)).bind fun name =>
        hnumbered fun id => [.aliased (.mk e (some name) id)]
    cases e with
    | column a => exact Projecting.alike_pure _
    | _ => exact hnamed

variable {select : Sql.Node} (hselect : select.Passes places.ReferAlike)
include hselect

/-- A select list is planned to the same in both places. -/
theorem Alike.selectList : Projecting.Alike places (resolve.selectList scope select) := by
  refine Projecting.alike_ofExcept_bind fun entries hentries => ?_
  exact (Projecting.alike_mapM fun entry hentry =>
    h.selectItems scope (hselect.items hentries entry hentry)).bind fun lists =>
      Projecting.alike_pure _

theorem Alike.plainSelectList : Planner.Alike places (resolve.plainSelectList scope select) :=
  (h.selectList scope hselect).value

/-! ## Groups -/

/-- The entry at a position is planned to the same in both places. -/
theorem Alike.entryAt (position : Int) :
    Planner.Alike places (resolve.entryAt select scope position) := by
  refine alike_ofExcept_bind fun entries hentries => ?_
  dsimp only
  split
  · exact alike_fail _
  · next entry hentry =>
    have hmem : entry ∈ entries := by
      split at hentry
      · exact List.mem_of_getElem? hentry
      · cases hentry
    exact h.plain scope (all_computed Places.ReferAlike.passes (hselect.items hentries entry hmem))

/-- A term of a `GROUP BY` clause is planned to the same in both places. -/
theorem Alike.groupingTerm {term : Sql.Value} (hterm : term.All places.ReferAlike) :
    Planner.Alike places (resolve.groupingTerm select scope term) := by
  have hplain := h.plain scope hterm
  rw [Resolver.groupingTerm]
  split
  · exact hplain
  split
  · exact (alike_require _).bind fun position => h.entryAt scope hselect position
  split
  · refine alike_ofExcept_bind fun found hfound => ?_
    cases found with
    | some a => exact hplain
    | none =>
      refine alike_ofExcept_bind fun named hnamed => ?_
      split
      · next projection hprojection =>
        have hrefer : places.ReferAlike projection :=
          hselect.listed hnamed projection (List.mem_of_find?_eq_some hprojection)
        exact h.plain scope ((hrefer.passes projection).arg "this")
      · exact hplain
  · exact hplain

/-- The members of a grouping set are planned to the same in both places. -/
theorem Alike.groupingMembers {terms : List Sql.Value}
    (hterms : ∀ term ∈ terms, term.All places.ReferAlike) :
    Planner.Alike places (resolve.groupingMembers select scope terms) := by
  refine (alike_mapM fun term hterm =>
    h.groupingTerm scope hselect (hterms term hterm)).bind fun members => ?_
  split
  · exact alike_pure _
  · exact alike_fail _

/-- An expansion by grouping sets is planned to the same in both places. -/
theorem Alike.groupingSets (child : Plan) {sets : List (List Sql.Value)}
    (hsets : ∀ set ∈ sets, ∀ term ∈ set, term.All places.ReferAlike) :
    Planner.Alike places (resolve.groupingSets select scope child sets) := by
  refine (alike_mapM fun set hset =>
    h.groupingMembers scope hselect (hsets set hset)).bind fun members => ?_
  refine (alike_freshColumns _).bind fun copies => (alike_freshColumn _).bind fun number => ?_
  exact (h.plainSelectList scope hselect).bind fun items => alike_pure _

/-- A grouped query is planned to the same. -/
theorem Alike.aggregate (child : Plan) :
    Planner.Alike places (resolve.aggregate select scope child) := by
  refine alike_ofExcept_bind fun windows hwindows => ?_
  split
  · exact alike_fail_bind _ _
  refine alike_ofExcept_bind fun sets hsets => ?_
  cases sets with
  | some sets =>
    have hterms := hselect.groupingSets Places.ReferAlike.passes hsets
    exact h.groupingSets scope hselect child hterms
  | none =>
    refine alike_ofExcept_bind fun terms hterms => ?_
    have hterms := hselect.groupExpressions Places.ReferAlike.passes hterms
    refine (alike_mapM fun term hterm =>
      h.groupingTerm scope hselect (hterms term hterm)).bind fun grouping => ?_
    exact (h.plainSelectList scope hselect).bind fun items => alike_pure _

end

end Resolver

end ColumnTrace
