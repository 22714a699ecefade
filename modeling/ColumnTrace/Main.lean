import ColumnTrace.Command.Bundle

/-!
# The program

The program reads a bundle of files and syntax trees from standard input, runs the command with its
arguments, prints the log and writes the files that the command changed.
-/

set_option autoImplicit false

namespace ColumnTrace.Command

/-- The values of the environment variables that a command looks at. -/
def environmentValues : IO (List (String × String)) := do
  let names := [levelVariable, skipVariable, depthVariable]
  names.filterMapM fun name => do return (← IO.getEnv name).map (name, ·)

/-- The bundle on standard input; an empty input is an empty bundle. -/
def readWorkplace : IO Workplace := do
  let values ← environmentValues
  let text ← (← IO.getStdin).readToEnd
  let bundle := if Text.isAllBlank text then some (Json.object []) else Json.read? text
  match bundle.bind (Workplace.ofJson? (List.lookup · values)) with
  | some place => return place
  | none => throw (IO.userError "standard input holds no bundle")

/-- Runs the command, prints its log and writes the files that it changed. -/
def runProgram (arguments : List String) : IO UInt32 := do
  let place ← readWorkplace
  let done := run place arguments
  for entry in done.log do
    IO.println (Loggers.line "lineage" entry)
  match done.result with
  | .ok files =>
    for (path, text) in place.files.changes files ++ files.sent do
      IO.FS.writeFile path text
  | .error _ => pure ()
  return ((exitCode? done.result).getD 1).toUInt32

end ColumnTrace.Command

/-- Runs the command with the program's arguments. -/
def main (arguments : List String) : IO UInt32 := ColumnTrace.Command.runProgram arguments
