import ColumnTrace.Planner.Grouping
import ColumnTrace.Proofs.Lineage.RenumberedMaps
import ColumnTrace.Proofs.Planner.RenumberedRuns

/-!
# Expressions under other numbers

A name is resolved to the same column, since names and not numbers are compared
(`Scope.column_renumber`). What an expression, a select list or a group is planned to differs in its
numbers only, where its parts and the queries in it do (`Resolver.renumbers_step`,
`Resolver.Renumbers.selectList`, `Resolver.Renumbers.aggregate`).
-/

set_option autoImplicit false

namespace ColumnTrace

/-! ## Names in scope -/

/-- The source with its columns under the new numbers. -/
def Source.renumber (r : Renumbering) (source : Source) : Source :=
  { source with output := source.output.map (Attribute.renumber r) }

/-- The frame with the columns of its sources under the new numbers. -/
def Frame.renumber (r : Renumbering) (frame : Frame) : Frame :=
  { frame with sources := frame.sources.map (Source.renumber r) }

/-- The frames that a query sees, under the new numbers. -/
def Scope.renumber (r : Renumbering) (scope : Scope) : Scope := scope.map (Frame.renumber r)

variable {r : Renumbering}

/-- A source is found by its name under new numbers. -/
theorem Frame.source?_renumber (frame : Frame) (name : String) :
    (frame.renumber r).source? name = (frame.source? name).map (Source.renumber r) := by
  simp only [source?, Frame.renumber, List.find?_map]
  rfl

/-- A frame finds the same column under its new number. -/
theorem Frame.find_renumber (frame : Frame) (qualifier : Option String) (name : Label) :
    (frame.renumber r).find qualifier name =
      (frame.find qualifier name).map (Option.map (Attribute.renumber r)) := by
  cases qualifier with
  | some qualifier =>
    simp only [find, source?_renumber]
    cases frame.source? qualifier with
    | none => rfl
    | some source => exact congrArg Except.ok List.find?_map
  | none =>
    have hfound : ((frame.renumber r).sources.flatMap Source.output).filter (·.name == name) =
        ((frame.sources.flatMap Source.output).filter (·.name == name)).map
          (Attribute.renumber r) := by
      simp only [Frame.renumber, List.flatMap_map, Source.renumber, ← List.map_flatMap,
        List.filter_map]
      rfl
    have hshared : (frame.renumber r).shared = frame.shared := rfl
    simp only [find, hfound, hshared, List.length_map, List.head?_map]
    split <;> rfl

/-- A query sees the same column under its new number. -/
theorem Scope.find_renumber (scope : Scope) (qualifier : Option String) (name : Label) :
    (scope.renumber r).find qualifier name =
      (scope.find qualifier name).map (Option.map (Attribute.renumber r)) := by
  induction scope with
  | nil => rfl
  | cons frame outer ih =>
    rw [renumber] at ih
    simp only [renumber, List.map_cons, find, Frame.find_renumber, ih]
    cases frame.find qualifier name with
    | error e => rfl
    | ok found => cases found <;> rfl

/-- A column of a statement stands for the same column under its new number. -/
theorem Scope.column_renumber (scope : Scope) (node : Sql.Node) :
    (scope.renumber r).column node = (scope.column node).map (Attribute.renumber r) := by
  simp only [column, find_renumber]
  cases scope.find node.qualifier? node.normalName with
  | error e => rfl
  | ok direct =>
    cases direct with
    | some a => rfl
    | none =>
      cases node.qualifier? with
      | none => rfl
      | some qualifier =>
        simp only [Except.map, Option.map_none, bind, Except.bind]
        split
        · rfl
        · cases scope.find none qualifier with
          | error e => rfl
          | ok found => cases found <;> rfl

/-- A star stands for the same columns under their new numbers. -/
theorem Scope.expandStar_renumber (scope : Scope) (qualifier : Option String) :
    (scope.renumber r).expandStar qualifier =
      (scope.expandStar qualifier).map (List.map (Attribute.renumber r)) := by
  have hframe : (scope.renumber r).headD ⟨[], []⟩ = (scope.headD ⟨[], []⟩).renumber r := by
    cases scope <;> rfl
  have hinferred : ∀ sources : List Source, (sources.map (Source.renumber r)).find?
      Source.inferred = (sources.find? Source.inferred).map (Source.renumber r) :=
    fun sources => List.find?_map
  have houtput : ∀ sources : List Source, (sources.map (Source.renumber r)).flatMap Source.output =
      (sources.flatMap Source.output).map (Attribute.renumber r) := by
    intro sources
    rw [List.flatMap_map, List.map_flatMap]
    rfl
  cases qualifier with
  | none =>
    simp only [expandStar, hframe, Frame.renumber, pure_bind, hinferred, houtput]
    cases (scope.headD ⟨[], []⟩).sources.find? Source.inferred <;> rfl
  | some name =>
    simp only [expandStar, hframe, Frame.source?_renumber]
    cases (scope.headD ⟨[], []⟩).source? name with
    | none => rfl
    | some source =>
      have houtputOne := houtput [source]
      have hinferredOne := hinferred [source]
      simp only [List.map_cons, List.map_nil] at houtputOne hinferredOne
      simp only [Option.map_some, pure_bind, hinferredOne, houtputOne]
      cases [source].find? Source.inferred <;> rfl

/-! ## Expressions -/

/-- Queries are planned to plans that differ in their numbers only. -/
def RenumbersQueries (r : Renumbering) (query : Scope → Sql.Node → Planner Plan) : Prop :=
  ∀ scope node, Planner.Renumbers r (Plan.renumber r) (query scope node)
    (query (scope.renumber r) node)

namespace Resolver

open Planner

/-- Expressions are resolved to expressions that differ in their numbers only. -/
def Renumbers (r : Renumbering) (resolve : Resolver) : Prop :=
  ∀ scope node, Projecting.Renumbers r (Expr.renumber r) (resolve scope node)
    (resolve (scope.renumber r) node)

variable {resolve : Resolver}

section
variable (h : resolve.Renumbers r) (scope : Scope)
include h

theorem Renumbers.value (value : Sql.Value) :
    Projecting.Renumbers r (Expr.renumber r) (resolve.value scope value)
      (resolve.value (scope.renumber r) value) :=
  Projecting.renumbers_ofExcept_bind fun node => h scope node

theorem Renumbers.plain (value : Sql.Value) :
    Planner.Renumbers r (Expr.renumber r) (resolve.plain scope value)
      (resolve.plain (scope.renumber r) value) :=
  (h.value scope value).value

/-- A window function is planned under new numbers as before. -/
theorem Renumbers.windowAlias (node : Sql.Node) (before : Nat) :
    Planner.Renumbers r (Alias.renumber r) (resolve.windowAlias scope node before)
      (resolve.windowAlias (scope.renumber r) node before) := by
  refine (h.plain scope _).bind fun function => ?_
  refine renumbers_ofExcept_bind fun terms => ?_
  refine (renumbers_mapM_self fun term _ => h.plain scope term).bind fun partition => ?_
  refine renumbers_ofExcept_bind fun keys => ?_
  refine (renumbers_mapM_self fun key _ => h.plain scope key).bind fun order => ?_
  refine renumbers_freshId.bind fun id => renumbers_pure ?_
  rw [Alias.renumber, Expr.renumber]

/-- A window function gets the number of those that were taken out before it in its name. -/
theorem Renumbers.window (node : Sql.Node) :
    Projecting.Renumbers r (Attribute.renumber r) (resolve.window scope node)
      (resolve.window (scope.renumber r) node) := by
  intro windows
  cases windows with
  | none => exact renumbers_fail _
  | some taken =>
    have hrun : ∀ (scope : Scope) (taken : List Alias),
        (resolve.window scope node).run (some taken) =
          resolve.windowAlias scope node taken.length >>= fun function =>
            pure (function.toAttribute, some (taken ++ [function])) := fun _ _ => rfl
    have hlength : (taken.map (Alias.renumber r)).length = taken.length := List.length_map _
    rw [Windows.renumber, Option.map_some, hrun, hrun, hlength]
    refine (h.windowAlias scope node taken.length).bind fun function => renumbers_pure ?_
    rw [Alias.toAttribute_renumber, ← List.map_singleton, ← List.map_append]
    rfl

/-- A count of rows is planned under new numbers as before. -/
theorem Renumbers.count (node : Sql.Node) :
    Projecting.Renumbers r (Expr.renumber r) (resolve.count scope node)
      (resolve.count (scope.renumber r) node) := by
  have hstar : Projecting.Renumbers r (Expr.renumber r) (pure (.count [] false))
      (pure (.count [] false)) :=
    Projecting.renumbers_pure (by rw [Expr.renumber, List.map_nil])
  refine Projecting.renumbers_ofExcept_bind fun arg => ?_
  cases arg with
  | none => exact hstar
  | some arg =>
    dsimp only
    split
    · refine Projecting.renumbers_ofExcept_bind fun counted => ?_
      refine (Projecting.renumbers_mapM_self fun value _ => h.value scope value).bind fun args => ?_
      exact Projecting.renumbers_pure (by rw [Expr.renumber])
    split
    · exact hstar
    · refine (h scope arg).bind fun e => Projecting.renumbers_pure ?_
      rw [Expr.renumber, List.map_singleton]

end

/-- One level of an expression differs in its numbers only where its parts do. -/
theorem renumbers_step {query : Scope → Sql.Node → Planner Plan} (hquery : RenumbersQueries r query)
    (h : resolve.Renumbers r) : (Resolver.step query resolve).Renumbers r := by
  intro scope node
  have hliteral : Projecting.Renumbers r (Expr.renumber r)
      ((liftM (Planner.write node) : Projecting String) >>= fun text => pure (.literal text))
      ((liftM (Planner.write node) : Projecting String) >>= fun text => pure (.literal text)) :=
    (Projecting.renumbers_lift (renumbers_write node)).bind fun text =>
      Projecting.renumbers_pure (by rw [Expr.renumber]; rfl)
  rw [Resolver.step, Resolver.step]
  split
  · split
    · exact Projecting.renumbers_lift ((renumbers_write node).bind fun text => renumbers_fail _)
    · refine (Projecting.renumbers_lift (renumbers_ofExcept
        (scope.column_renumber node))).bind fun a => ?_
      exact Projecting.renumbers_pure (by rw [Expr.renumber])
  split
  · exact hliteral
  split
  · refine (Projecting.renumbers_lift (hquery scope node)).bind fun plan => ?_
    exact Projecting.renumbers_pure (by rw [Expr.renumber])
  split
  · refine (h.window scope node).bind fun a => ?_
    exact Projecting.renumbers_pure (by rw [Expr.renumber])
  split
  · exact h.count scope node
  split
  · exact h.value scope _
  split
  · exact hliteral
  · refine (Projecting.renumbers_mapM_self fun child _ => h scope child).bind fun args => ?_
    exact Projecting.renumbers_pure (by rw [Expr.renumber])

/-! ## Select lists -/

section
variable (h : resolve.Renumbers r) (scope : Scope)
include h

/-- An entry of a select list is planned under new numbers as before. -/
theorem Renumbers.selectItems (entry : Sql.Value) :
    Projecting.Renumbers r (List.map (SelectItem.renumber r)) (resolve.selectItems scope entry)
      (resolve.selectItems (scope.renumber r) entry) := by
  have hnamed : ∀ (e : Expr) (name : Label), Projecting.Renumbers r
      (List.map (SelectItem.renumber r))
      ((liftM (Planner.freshId) : Projecting Int) >>= fun id =>
        pure [SelectItem.aliased (.mk e name id)])
      ((liftM (Planner.freshId) : Projecting Int) >>= fun id =>
        pure [SelectItem.aliased (.mk (e.renumber r) name id)]) := by
    intro e name
    refine (Projecting.renumbers_lift renumbers_freshId).bind fun id => ?_
    refine Projecting.renumbers_pure ?_
    rw [List.map_singleton, SelectItem.renumber, Alias.renumber]
  refine Projecting.renumbers_ofExcept_bind fun node => ?_
  split
  · refine (Projecting.renumbers_lift (renumbers_ofExcept
      (scope.expandStar_renumber _))).bind fun columns => Projecting.renumbers_pure ?_
    rw [List.map_map, List.map_map]
    exact List.map_congr_left fun a _ => by rw [Function.comp_apply, SelectItem.renumber]; rfl
  split
  · exact (h.value scope _).bind fun e => hnamed e _
  · refine (h scope node).bind fun e => ?_
    have hother : ∀ e : Expr, Projecting.Renumbers r (List.map (SelectItem.renumber r))
        ((liftM (Planner.write node) : Projecting String) >>= fun name =>
          (liftM (Planner.freshId) : Projecting Int) >>= fun id =>
            pure [SelectItem.aliased (.mk e (some name) id)])
        ((liftM (Planner.write node) : Projecting String) >>= fun name =>
          (liftM (Planner.freshId) : Projecting Int) >>= fun id =>
            pure [SelectItem.aliased (.mk (e.renumber r) (some name) id)]) := fun e =>
      (Projecting.renumbers_lift (renumbers_write node)).bind fun name => hnamed e (some name)
    cases he : e with
    | column a =>
      rw [Expr.renumber]
      exact Projecting.renumbers_pure (by rw [List.map_singleton, SelectItem.renumber])
    | _ =>
      have hitem := hother e
      rw [he] at hitem
      simp only [Expr.renumber] at hitem ⊢
      exact hitem

/-- A select list is planned under new numbers as before. -/
theorem Renumbers.selectList (select : Sql.Node) :
    Projecting.Renumbers r (List.map (SelectItem.renumber r)) (resolve.selectList scope select)
      (resolve.selectList (scope.renumber r) select) := by
  refine Projecting.renumbers_ofExcept_bind fun entries => ?_
  refine (Projecting.renumbers_mapM_self fun entry _ => h.selectItems scope entry).bind
    fun lists => Projecting.renumbers_pure ?_
  rw [List.map_flatten]

/-- A select list without window functions is planned under new numbers as before. -/
theorem Renumbers.plainSelectList (select : Sql.Node) :
    Planner.Renumbers r (List.map (SelectItem.renumber r)) (resolve.plainSelectList scope select)
      (resolve.plainSelectList (scope.renumber r) select) :=
  (h.selectList scope select).value

/-! ## Groups -/

/-- The entry at a position is planned under new numbers as before. -/
theorem Renumbers.entryAt (select : Sql.Node) (position : Int) :
    Planner.Renumbers r (Expr.renumber r) (resolve.entryAt select scope position)
      (resolve.entryAt select (scope.renumber r) position) := by
  refine renumbers_ofExcept_bind fun entries => ?_
  dsimp only
  cases (if 1 ≤ position then entries[(position - 1).toNat]? else none) with
  | none => exact renumbers_fail _
  | some entry => exact h.plain scope _

/-- A term of a `GROUP BY` clause is planned under new numbers as before. -/
theorem Renumbers.groupingTerm (select : Sql.Node) (term : Sql.Value) :
    Planner.Renumbers r (Expr.renumber r) (resolve.groupingTerm select scope term)
      (resolve.groupingTerm select (scope.renumber r) term) := by
  rw [Resolver.groupingTerm, Resolver.groupingTerm]
  split
  · exact h.plain scope term
  split
  · exact (renumbers_require _).bind fun position => h.entryAt scope select position
  split
  · refine (renumbers_ofExcept (scope.find_renumber none _)).bind fun found => ?_
    cases found with
    | some a => exact h.plain scope term
    | none =>
      refine renumbers_ofExcept_bind fun named => ?_
      split
      · exact h.plain scope _
      · exact h.plain scope term
  · exact h.plain scope term

/-- The members of a grouping set are the same under new numbers. -/
theorem Renumbers.groupingMembers (select : Sql.Node) (terms : List Sql.Value) :
    Planner.Renumbers r (AttributeSet.renumber r) (resolve.groupingMembers select scope terms)
      (resolve.groupingMembers select (scope.renumber r) terms) := by
  refine (renumbers_mapM_self fun term _ => h.groupingTerm scope select term).bind fun members => ?_
  have hcolumns : (members.map (Expr.renumber r)).mapM Expr.asColumn? =
      (members.mapM Expr.asColumn?).map (List.map (Attribute.renumber r)) := by
    induction members with
    | nil => rfl
    | cons e rest ih =>
      rw [List.map_cons, List.mapM_cons, List.mapM_cons, ih]
      cases e with
      | column a =>
        rw [Expr.renumber]
        cases rest.mapM Expr.asColumn? <;> rfl
      | _ =>
        rw [Expr.renumber]
        rfl
  rw [hcolumns]
  cases members.mapM Expr.asColumn? with
  | some columns => exact renumbers_pure (AttributeSet.renumber_ofList r columns)
  | none => exact renumbers_fail _

end

end Resolver

/-! ## Grouping sets -/

theorem AttributeSet.contains_renumber (s : AttributeSet) (a : Attribute) :
    (s.renumber r).contains (a.renumber r) = s.contains a :=
  any_id_renumber r s.attrs a

/-- The row of a grouping set is the same under new numbers. -/
theorem groupingRow_renumber (input columns : List Attribute) (members : AttributeSet) :
    groupingRow (input.map (Attribute.renumber r)) (columns.map (Attribute.renumber r))
        (members.renumber r) =
      (groupingRow input columns members).map (Expr.renumber r) := by
  have hmask : groupingMask (columns.map (Attribute.renumber r)) (members.renumber r) =
      groupingMask columns members := by
    simp only [groupingMask, List.foldl_map, AttributeSet.contains_renumber]
  simp only [groupingRow, hmask, List.map_append, List.map_map, Function.comp_def, List.map_cons,
    List.map_nil, Expr.renumber, AttributeSet.contains_renumber]
  refine congrArg (_ ++ · ++ _) (List.map_congr_left fun a _ => ?_)
  split <;> rw [Expr.renumber]

/-- Grouping sets have the same columns under new numbers. -/
theorem groupingColumns_renumber (sets : List AttributeSet) :
    groupingColumns (sets.map (AttributeSet.renumber r)) =
      (groupingColumns sets).map (Attribute.renumber r) := by
  rw [groupingColumns, groupingColumns, ← AttributeSet.attrs_renumber,
    AttributeSet.renumber_ofList, List.flatMap_map, List.map_flatMap]
  rfl

/-- A grouping column has the same copy under new numbers. -/
theorem copyOf?_renumber (columns copies : List Attribute) (id : Int) :
    copyOf? (columns.map (Attribute.renumber r)) (copies.map (Attribute.renumber r))
        (r.column id) =
      (copyOf? columns copies id).map (Attribute.renumber r) := by
  have hid : (fun pair : Attribute × Attribute => pair.1.id == r.column id) ∘
      Prod.map (Attribute.renumber r) (Attribute.renumber r) = fun pair => pair.1.id == id :=
    funext fun pair => Bool.eq_iff_iff.2 (by
      simp only [Function.comp_apply, Prod.map, beq_iff_eq, Attribute.id_renumber,
        r.column.injective.eq_iff])
  simp only [copyOf?, List.zip_map, List.find?_map, hid, Option.map_map]
  rfl

section
variable {f g : Int → Option Attribute}

/-- A column is exchanged under new numbers as before. -/
theorem getD_renumber (hfg : ∀ id, g (r.column id) = (f id).map (Attribute.renumber r))
    (a : Attribute) : (g (a.renumber r).id).getD (a.renumber r) = ((f a.id).getD a).renumber r := by
  rw [Attribute.id_renumber, hfg]
  cases f a.id <;> rfl

mutual

/-- Attributes are exchanged under the new numbers where they were under the old. -/
theorem Expr.substitute_renumber
    (hfg : ∀ id, g (r.column id) = (f id).map (Attribute.renumber r)) :
    ∀ e : Expr, (e.renumber r).substitute g = (e.substitute f).renumber r
  | .column a => by simp only [Expr.renumber, Expr.substitute, getD_renumber hfg]
  | .literal _ | .subquery _ => by simp only [Expr.renumber, Expr.substitute]
  | .call _ args => by
    simp only [Expr.renumber, Expr.substitute, Expr.substituteAll_renumber hfg args]
  | .count args _ => by
    simp only [Expr.renumber, Expr.substitute, Expr.substituteAll_renumber hfg args]
  | .windowed function partition order => by
    simp only [Expr.renumber, Expr.substitute, function.substitute_renumber hfg,
      Expr.substituteAll_renumber hfg partition, Expr.substituteAll_renumber hfg order]
  | .aliased (.mk child _ _) => by
    simp only [Expr.renumber, Alias.renumber, Expr.substitute, child.substitute_renumber hfg]

/-- Columns of expressions are exchanged under new numbers as before. -/
theorem Expr.substituteAll_renumber
    (hfg : ∀ id, g (r.column id) = (f id).map (Attribute.renumber r)) :
    ∀ es : List Expr, Expr.substituteAll g (es.map (Expr.renumber r)) =
      (Expr.substituteAll f es).map (Expr.renumber r)
  | [] => rfl
  | e :: rest => by
    simp only [List.map_cons, Expr.substituteAll, e.substitute_renumber hfg,
      Expr.substituteAll_renumber hfg rest]

end

/-- Columns of an entry are exchanged under new numbers as before. -/
theorem SelectItem.substitute_renumber
    (hfg : ∀ id, g (r.column id) = (f id).map (Attribute.renumber r)) (item : SelectItem) :
    (item.renumber r).substitute g = (item.substitute f).renumber r := by
  rcases item with a | ⟨child, name, id⟩
  · simp only [SelectItem.renumber, SelectItem.substitute, getD_renumber hfg]
  · simp only [SelectItem.renumber, Alias.renumber, SelectItem.substitute,
      child.substitute_renumber hfg]

end

/-- The plan of grouping sets is the same under new numbers. -/
theorem Plan.groupedBySets_renumber (child : Plan) (sets : List AttributeSet)
    (copies : List Attribute) (number : Attribute) (items : List SelectItem) :
    (child.groupedBySets sets copies number items).renumber r =
      (child.renumber r).groupedBySets (sets.map (AttributeSet.renumber r))
        (copies.map (Attribute.renumber r)) (number.renumber r)
        (items.map (SelectItem.renumber r)) := by
  have hitems : (items.map (SelectItem.substitute (copyOf? (groupingColumns sets) copies))).map
      (SelectItem.renumber r) = (items.map (SelectItem.renumber r)).map (SelectItem.substitute
        (copyOf? ((groupingColumns sets).map (Attribute.renumber r))
          (copies.map (Attribute.renumber r)))) := by
    rw [List.map_map, List.map_map]
    exact List.map_congr_left fun item _ =>
      (item.substitute_renumber (copyOf?_renumber (groupingColumns sets) copies)).symm
  have hrows : (sets.map (groupingRow child.output (groupingColumns sets))).map
      (Expr.renumberRow r) = (sets.map (AttributeSet.renumber r)).map (groupingRow
        (child.output.map (Attribute.renumber r))
        ((groupingColumns sets).map (Attribute.renumber r))) := by
    rw [List.map_map, List.map_map]
    exact List.map_congr_left fun members _ => by
      rw [Function.comp_apply, Function.comp_apply, groupingRow_renumber, Expr.renumberRow_eq_map]
  have hgrouping : ((copies ++ [number]).map Expr.column).map (Expr.renumber r) =
      (copies.map (Attribute.renumber r) ++ [number.renumber r]).map Expr.column := by
    simp only [List.map_append, List.map_map, Function.comp_def, List.map_cons, List.map_nil,
      Expr.renumber]
  rw [groupedBySets, groupedBySets, expandedBy, expandedBy, Plan.renumber, Plan.renumber, hitems,
    hrows, hgrouping, groupingColumns_renumber, Plan.output_renumber]
  simp only [List.map_append, List.map_cons, List.map_nil]

namespace Resolver

open Planner

variable {resolve : Resolver}

/-- An expansion by grouping sets is planned under new numbers as before. -/
theorem Renumbers.groupingSets (h : resolve.Renumbers r) (select : Sql.Node) (scope : Scope)
    (child : Plan) (sets : List (List Sql.Value)) :
    Planner.Renumbers r (Plan.renumber r) (resolve.groupingSets select scope child sets)
      (resolve.groupingSets select (scope.renumber r) (child.renumber r) sets) := by
  refine (renumbers_mapM_self fun set _ => h.groupingMembers scope select set).bind
    fun members => ?_
  rw [groupingColumns_renumber]
  refine (renumbers_freshLike _).bind fun copies => ?_
  refine (renumbers_freshColumn _).bind fun number => ?_
  refine (h.plainSelectList scope select).bind fun items => renumbers_pure ?_
  exact child.groupedBySets_renumber members copies number items

/-- A grouped query differs in its numbers only. -/
theorem Renumbers.aggregate (h : resolve.Renumbers r) (select : Sql.Node) (scope : Scope)
    (child : Plan) :
    Planner.Renumbers r (Plan.renumber r) (resolve.aggregate select scope child)
      (resolve.aggregate select (scope.renumber r) (child.renumber r)) := by
  rw [Resolver.aggregate, Resolver.aggregate]
  refine renumbers_ofExcept_bind fun windows => ?_
  split
  · exact renumbers_fail_bind _ _ _
  refine renumbers_ofExcept_bind fun sets => ?_
  cases sets with
  | some sets => exact h.groupingSets select scope child sets
  | none =>
    refine renumbers_ofExcept_bind fun terms => ?_
    refine (renumbers_mapM_self fun term _ => h.groupingTerm scope select term).bind
      fun grouping => ?_
    refine (h.plainSelectList scope select).bind fun items => renumbers_pure ?_
    rw [Plan.renumber]

end Resolver

end ColumnTrace
