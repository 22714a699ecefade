import ColumnTrace.Command.Run
import ColumnTrace.Sql.Json

/-!
# Bundles

A bundle is a JSON object with the files of the working directory, a list of pairs of path and text
under `files`, and the syntax trees of SQL texts under `parsed`. What is missing is empty.
-/

set_option autoImplicit false

namespace ColumnTrace.Command

/-- The files of a list of pairs of path and text. -/
def filesOfJson? : Json → Option FileTree
  | .array entries => do
    return .ofList (← entries.mapM fun
      | .array [.string path, .string text] => some (path, text)
      | _ => none)
  | _ => none

/-- The member of a bundle, or what stands for it where it is missing. -/
def memberOr {α : Type} (bundle : Json) (name : String) (read? : Json → Option α) (standard : α) :
    Option α :=
  match bundle.member? name with
  | none => some standard
  | some json => read? json

/-- What a bundle and the environment give to a command. -/
def Workplace.ofJson? (variableText : String → Option String) (bundle : Json) :
    Option Workplace := do
  let files ← memberOr bundle "files" filesOfJson? (.ofList [])
  let library ← memberOr bundle "parsed" Sql.Library.ofJson? []
  return ⟨files, library, variableText⟩

end ColumnTrace.Command
