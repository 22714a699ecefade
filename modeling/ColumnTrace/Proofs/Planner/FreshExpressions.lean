import ColumnTrace.Planner.Grouping
import ColumnTrace.Proofs.Planner.FreshRuns

/-!
# What expressions introduce

An expression, a select list or a group introduces what its parts and the queries in it introduce,
and the numbers that are handed out for its aliases and window functions
(`Resolver.introduces_step`, `Resolver.Introduces.selectList`, `Resolver.Introduces.aggregate`).
-/

set_option autoImplicit false

namespace ColumnTrace

/-- Queries introduce only what is handed out for them. -/
def IntroducesQueries (query : Scope → Sql.Node → Planner Plan) : Prop :=
  ∀ scope node, Planner.Introduces [] Plan.introduced (query scope node)

namespace Resolver

open Planner

/-- Expressions introduce only what is handed out for them. -/
def Introduces (resolve : Resolver) : Prop :=
  ∀ scope node, Projecting.Introduces [] Expr.introduced (resolve scope node)

variable {resolve : Resolver}

section
variable (h : resolve.Introduces) (scope : Scope)
include h

theorem Introduces.value (value : Sql.Value) :
    Projecting.Introduces [] Expr.introduced (resolve.value scope value) :=
  Projecting.introduces_ofExcept_bind fun node => h scope node

theorem Introduces.plain (value : Sql.Value) :
    Planner.Introduces [] Expr.introduced (resolve.plain scope value) :=
  (h.value scope value).value

/-- A window function introduces only what is handed out for it. -/
theorem Introduces.windowAlias (node : Sql.Node) (before : Nat) :
    Planner.Introduces [] Alias.introduced (resolve.windowAlias scope node before) := by
  refine (h.plain scope _).bind fun function => ?_
  refine introduces_ofExcept_bind fun terms => ?_
  refine (introduces_mapM_of_nil fun term _ => h.plain scope term).bind fun partition => ?_
  refine introduces_ofExcept_bind fun keys => ?_
  refine (introduces_mapM_of_nil fun key _ => h.plain scope key).bind fun order => ?_
  refine introduces_freshId.bind fun id => introduces_pure fun identity => ?_
  rw [Alias.introduced, Expr.introduced, ← List.singleton_append]
  simp only [List.count_append]
  omega

/-- The column of a window function introduces nothing itself: the function is taken out. -/
theorem Introduces.window (node : Sql.Node) :
    Projecting.Introduces [] (fun _ => []) (resolve.window scope node) := by
  intro windows
  cases windows with
  | none => exact introduces_fail _
  | some taken =>
    refine (h.windowAlias scope node taken.length).bind fun function => ?_
    refine introduces_pure fun identity => ?_
    simp only [Windows.introduced, Option.getD_some, List.flatMap_append, List.flatMap_singleton,
      List.count_append]
    omega

/-- A count of rows introduces only what is handed out for it. -/
theorem Introduces.count (node : Sql.Node) :
    Projecting.Introduces [] Expr.introduced (resolve.count scope node) := by
  have hcount : ∀ (args : List Expr) (distinct : Bool),
      (Expr.count args distinct).introduced = args.flatMap Expr.introduced := by
    intro args distinct
    rw [Expr.introduced]
  refine Projecting.introduces_ofExcept_bind fun arg => ?_
  cases arg with
  | none => exact Projecting.introduces_pure_of_eq (hcount _ _)
  | some arg =>
    dsimp only
    split
    · refine Projecting.introduces_ofExcept_bind fun counted => ?_
      refine (Projecting.introduces_mapM fun value _ => h.value scope value).bind fun args => ?_
      exact Projecting.introduces_pure_of_eq ((hcount _ _).trans (List.append_nil _).symm)
    split
    · exact Projecting.introduces_pure_of_eq (hcount _ _)
    · refine (h scope arg).bind fun e => Projecting.introduces_pure_of_eq ?_
      rw [hcount, List.flatMap_singleton, List.append_nil]

end

/-- One level of an expression introduces what its parts do. -/
theorem introduces_step {query : Scope → Sql.Node → Planner Plan} (hquery : IntroducesQueries query)
    (h : resolve.Introduces) : (Resolver.step query resolve).Introduces := by
  intro scope node
  have hcolumn : ∀ a : Attribute,
      Projecting.Introduces [] Expr.introduced (pure (.column a)) := fun a =>
    Projecting.introduces_pure_of_eq (Expr.introduced_column a)
  have hliteral : Projecting.Introduces [] Expr.introduced
      ((liftM (Planner.write node) : Projecting String) >>= fun text => pure (.literal text)) :=
    (Projecting.introduces_lift (advances_write node)).bind fun text =>
      Projecting.introduces_pure_of_eq (by rw [Expr.introduced]; rfl)
  rw [Resolver.step]
  split
  · split
    · exact Projecting.introduces_lift ((advances_write node).bind fun text => introduces_fail _)
    · exact Projecting.introduces_ofExcept_bind hcolumn
  split
  · exact hliteral
  split
  · refine (Projecting.introduces_lift (hquery scope node)).bind fun plan => ?_
    exact Projecting.introduces_pure_of_eq (by rw [Expr.introduced, List.append_nil])
  split
  · exact (h.window scope node).bind hcolumn
  split
  · exact h.count scope node
  split
  · exact h.value scope _
  split
  · exact hliteral
  · refine (Projecting.introduces_mapM fun child _ => h scope child).bind fun args => ?_
    exact Projecting.introduces_pure_of_eq (by rw [Expr.introduced, List.append_nil])

/-! ## Select lists -/

section
variable (h : resolve.Introduces) (scope : Scope)
include h

/-- An entry of a select list introduces only what is handed out for it. -/
theorem Introduces.selectItems (entry : Sql.Value) :
    Projecting.Introduces [] (List.flatMap SelectItem.introduced)
      (resolve.selectItems scope entry) := by
  have hnamed : ∀ (e : Expr) (name : Label), Projecting.Introduces (e.introduced ++ [])
      (List.flatMap SelectItem.introduced)
      ((liftM (Planner.freshId) : Projecting Int) >>= fun id =>
        pure [SelectItem.aliased (.mk e name id)]) := by
    intro e name
    refine (Projecting.introduces_lift introduces_freshId).bind fun id => ?_
    refine Projecting.introduces_pure_of_eq ?_
    rw [List.flatMap_singleton, SelectItem.introduced, Alias.introduced, List.append_nil]
    rfl
  refine Projecting.introduces_ofExcept_bind fun node => ?_
  split
  · refine Projecting.introduces_ofExcept_bind fun columns => ?_
    exact Projecting.introduces_pure_of_eq (SelectItem.flatMap_introduced_column columns)
  split
  · exact (h.value scope _).bind fun e => hnamed e _
  · refine (h scope node).bind fun e => ?_
    split
    · refine Projecting.introduces_pure fun _ => ?_
      rw [List.flatMap_singleton, SelectItem.introduced]
      exact Nat.zero_le _
    · exact (Projecting.introduces_lift (advances_write node)).bind fun name => hnamed e _

/-- A select list introduces only what is handed out for it. -/
theorem Introduces.selectList (select : Sql.Node) :
    Projecting.Introduces [] (List.flatMap SelectItem.introduced)
      (resolve.selectList scope select) := by
  refine Projecting.introduces_ofExcept_bind fun entries => ?_
  refine (Projecting.introduces_mapM fun entry _ => h.selectItems scope entry).bind
    fun lists => Projecting.introduces_pure_of_eq ?_
  rw [List.append_nil, List.flatten_eq_flatMap, List.flatMap_assoc]
  rfl

/-- A select list without window functions introduces only what is handed out for it. -/
theorem Introduces.plainSelectList (select : Sql.Node) :
    Planner.Introduces [] (List.flatMap SelectItem.introduced)
      (resolve.plainSelectList scope select) :=
  (h.selectList scope select).value

/-! ## Groups -/

/-- The entry at a position introduces only what is handed out for it. -/
theorem Introduces.entryAt (select : Sql.Node) (position : Int) :
    Planner.Introduces [] Expr.introduced (resolve.entryAt select scope position) := by
  refine introduces_ofExcept_bind fun entries => ?_
  dsimp only
  cases (if 1 ≤ position then entries[(position - 1).toNat]? else none) with
  | none => exact introduces_fail _
  | some entry => exact h.plain scope _

/-- A term of a `GROUP BY` clause introduces only what is handed out for it. -/
theorem Introduces.groupingTerm (select : Sql.Node) (term : Sql.Value) :
    Planner.Introduces [] Expr.introduced (resolve.groupingTerm select scope term) := by
  rw [Resolver.groupingTerm]
  split
  · exact h.plain scope term
  split
  · exact (advances_require _).bind fun position => h.entryAt scope select position
  split
  · refine introduces_ofExcept_bind fun found => ?_
    split
    · exact h.plain scope term
    · refine introduces_ofExcept_bind fun named => ?_
      split <;> exact h.plain scope _
  · exact h.plain scope term

/-- The members of a grouping set are columns: whatever else their terms introduce is dropped. -/
theorem Introduces.groupingMembers (select : Sql.Node) (terms : List Sql.Value) :
    Planner.Advances (resolve.groupingMembers select scope terms) := by
  refine (introduces_mapM_of_nil fun term _ => h.groupingTerm scope select term).bind
    fun members => ?_
  split
  · exact introduces_pure fun _ => Nat.zero_le _
  · exact introduces_fail _

end

end Resolver

/-- The row of an expansion introduces nothing: it consists of columns and literals. -/
theorem introducedByRow_groupingRow (input columns : List Attribute) (members : AttributeSet) :
    Expr.introducedByRow (groupingRow input columns members) = [] := by
  rw [Expr.introducedByRow, List.flatMap_eq_nil_iff]
  intro e he
  simp only [groupingRow, List.mem_append, List.mem_map, List.mem_singleton] at he
  obtain (⟨a, _, rfl⟩ | ⟨c, _, rfl⟩) | rfl := he
  · exact Expr.introduced_column a
  · split
    · exact Expr.introduced_column c
    · rw [Expr.introduced]
  · rw [Expr.introduced]

/-- A grouped query introduces the copies of its columns and the number of the set, beside what its
source and its select list introduce. -/
theorem Plan.introduced_groupedBySets (child : Plan) (sets : List AttributeSet)
    (copies : List Attribute) (number : Attribute) (items : List SelectItem) :
    (child.groupedBySets sets copies number items).introduced =
      child.introduced ++ (Identity.ofColumns (copies ++ [number]) ++
        items.flatMap SelectItem.introduced) := by
  have hgrouping : ((copies ++ [number]).map Expr.column).flatMap Expr.introduced = [] := by
    rw [List.flatMap_map, List.flatMap_eq_nil_iff]
    exact fun a _ => Expr.introduced_column a
  have hrows : (sets.map (groupingRow child.output (groupingColumns sets))).flatMap
      Expr.introducedByRow = [] := by
    rw [List.flatMap_map, List.flatMap_eq_nil_iff]
    exact fun members _ => introducedByRow_groupingRow _ _ members
  have hitems : (items.map (·.substitute (copyOf? (groupingColumns sets) copies))).flatMap
      SelectItem.introduced = items.flatMap SelectItem.introduced := by
    simp only [List.flatMap_map, SelectItem.introduced_substitute]
  rw [groupedBySets, introduced, expandedBy, introduced, hgrouping, hrows, hitems,
    List.append_assoc child.output, List.drop_left, List.nil_append, List.append_nil,
    List.append_assoc]

namespace Resolver

open Planner

variable {resolve : Resolver} (h : resolve.Introduces) (select : Sql.Node) (scope : Scope)
  (child : Plan)
include h

/-- An expansion by grouping sets introduces only what is handed out for it, beside what its input
does. -/
theorem Introduces.groupingSets (sets : List (List Sql.Value)) :
    Planner.Introduces child.introduced Plan.introduced
      (resolve.groupingSets select scope child sets) := by
  refine (advances_mapM fun terms _ => h.groupingMembers scope select terms).bind fun members => ?_
  refine (introduces_freshLike _).bind fun copies => ?_
  refine (introduces_freshColumn _).bind fun number => ?_
  refine (h.plainSelectList scope select).bind fun items => introduces_pure fun identity => ?_
  rw [Plan.introduced_groupedBySets, Identity.ofColumns, List.map_append, List.map_singleton]
  simp only [List.count_append, Identity.ofColumns]
  omega

/-- A grouped query introduces what its source does, and what is handed out for its groups and its
select list. -/
theorem Introduces.aggregate :
    Planner.Introduces child.introduced Plan.introduced
      (resolve.aggregate select scope child) := by
  refine introduces_ofExcept_bind fun windows => ?_
  split
  · exact introduces_fail_bind _ _
  refine introduces_ofExcept_bind fun sets => ?_
  split
  · exact h.groupingSets select scope child _
  · refine introduces_ofExcept_bind fun terms => ?_
    refine (introduces_mapM_of_nil fun term _ => h.groupingTerm scope select term).bind
      fun grouping => ?_
    refine (h.plainSelectList scope select).bind fun items => introduces_pure fun identity => ?_
    rw [Plan.introduced]
    simp only [List.count_append]
    omega

end Resolver

end ColumnTrace
