import ColumnTrace.Sql.Query

/-!
# Grouping sets

`ROLLUP`, `CUBE` and `GROUPING SETS` stand for lists of grouping sets. `groupingSets` writes them
out: sets first as they are listed, then those of the rollups, from all columns down to none, then
those of the cubes, the larger sets first.
-/

set_option autoImplicit false

namespace ColumnTrace.Sql

/-- The ways to take so many items of a list and keep their order, the earliest items first. -/
def choices {α : Type} : Nat → List α → List (List α)
  | 0, _ => [[]]
  | _ + 1, [] => []
  | n + 1, a :: rest => (choices n rest).map (a :: ·) ++ choices (n + 1) rest

/-- The sets of a rollup: all columns, then one less each time. -/
def rollupSets {α : Type} (columns : List α) : List (List α) :=
  (List.range (columns.length + 1)).reverse.map columns.take

/-- The sets of a cube: every choice of columns, the larger first. -/
def cubeSets {α : Type} (columns : List α) : List (List α) :=
  (List.range (columns.length + 1)).reverse.flatMap fun n => choices n columns

/-- A rollup or cube: the columns that every set has, and those that are rolled. -/
structure Rolled where
  always : List Value
  rolled : List Value

/-- The columns of an element of a list of grouping sets. -/
def Value.setMembers (element : Value) : Reading (List Value) :=
  match element with
  | .node n =>
    if n.is "Tuple" then n.expressions
    else if n.is "Paren" then .ok [n.arg "this"]
    else .ok [element]
  | _ => .ok [element]

/-- The sets that an item of a list of grouping sets stands for. -/
def Value.listedSets (item : Value) : Reading (List (List Value)) := do
  let elements ← match item with
    | .node n => if n.is "GroupingSets" then n.expressions else pure [item]
    | _ => pure [item]
  elements.mapM setMembers

/-- The value is a column. -/
def Value.isColumn (v : Value) : Bool := v.node?.any (·.is "Column")

/-- The rollup (or cube) that an item of a clause stands for: one with columns rolls these beside
the plain grouping columns, any other one the plain grouping columns themselves. -/
def rolledItem (base : List Value) : Value → Reading (List Rolled)
  | .node n => do
    let columns ← n.expressions
    return [if columns.isEmpty then ⟨[], base⟩ else ⟨base, columns⟩]
  | item => .ok (if item.isGiven then [⟨[], base⟩] else [])

/-- The rollups (or cubes) among the items of a clause. Columns that stand loose among the items are
rolled together, after the others. -/
def rolledOf (items : List Value) (base : List Value) : Reading (List Rolled) := do
  let loose := items.filter Value.isColumn
  let groups ← (items.filter (!·.isColumn)).mapM (rolledItem base)
  return groups.flatten ++ if loose.isEmpty then [] else [⟨base, loose⟩]

/-- The grouping sets of a query; none where it groups by plain expressions only. -/
def groupingSets (select : Node) : Reading (Option (List (List Value))) := do
  match ← (select.arg "group").nodeIfThere with
  | none => return none
  | some group =>
    let base ← group.expressions
    let items ← group.itemsOf "grouping_sets"
    let listed ← items.mapM Value.listedSets
    let rollups ← rolledOf (← group.itemsOf "rollup") base
    let cubes ← rolledOf (← group.itemsOf "cube") base
    if items.isEmpty && rollups.isEmpty && cubes.isEmpty then return none
    else
      let rolled := rollups.flatMap fun r => (rollupSets r.rolled).map (r.always ++ ·)
      let cubed := cubes.flatMap fun r => (cubeSets r.rolled).map (r.always ++ ·)
      return some (listed.flatten.map (base ++ ·) ++ rolled ++ cubed)

end ColumnTrace.Sql
