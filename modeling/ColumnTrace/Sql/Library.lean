import ColumnTrace.PlanningError
import ColumnTrace.Sql.Tree

/-!
# Texts and their syntax trees

A library knows the statements of SQL texts, or why a text has none. An empty statement stands as a
gap between the others.
-/

set_option autoImplicit false

namespace ColumnTrace.Sql

/-- Texts, each with its statements or the cause for which it has none. -/
abbrev Library := List (String × Except ParseFailure (List (Option Node)))

namespace Library

/-- The statements of a text; a text that the library does not know is no statement. -/
def statements (library : Library) (text : String) : Except ParseFailure (List Node) :=
  match library.lookup text with
  | some (.ok trees) => .ok (trees.filterMap id)
  | some (.error cause) => .error cause
  | none => .error .notStatement

/-- The first statement of a text. -/
def first (library : Library) (text : String) : Except ParseFailure Node :=
  match library.lookup text with
  | some (.ok (some tree :: _)) => .ok tree
  | some (.ok _) => .error .notStatement
  | some (.error cause) => .error cause
  | none => .error .notStatement

/-- All statements of all texts. -/
def trees (library : Library) : List Node :=
  library.flatMap fun entry => match entry.2 with
    | .ok trees => trees.filterMap id
    | .error _ => []

end Library

/-- The number of tables that a tree names. -/
def Node.tableCount (n : Node) : Nat := n.preorder.countP (·.is "Table")

/-- The number of tables that all statements of all texts name. -/
def Library.tableCount (library : Library) : Nat :=
  library.trees.foldr (fun tree count => tree.tableCount + count) 0

end ColumnTrace.Sql
