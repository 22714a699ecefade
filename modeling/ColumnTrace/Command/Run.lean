import ColumnTrace.Command.Results
import ColumnTrace.Command.SchemaSource
import ColumnTrace.Files.Search

/-!
# The command

The command reads its options, the schema and the settings, runs every script of a folder in a
session of its own, and writes the results into one file. Its log holds the entries that the chosen
level lets through. `run` gives the files as they are afterwards, or the cause for which it
stopped.
-/

set_option autoImplicit false

namespace ColumnTrace.Command

/-- What a command finds around it: files, syntax trees of texts, and environment variables. -/
structure Workplace where
  files : FileTree
  library : Sql.Library
  variableText : String → Option String

/-- The variable that gives the level for the log where no option does. -/
def levelVariable : String := "LOG_LEVEL"

/-- The level for the log where nothing gives one. -/
def standardLevel : String := "INFO"

/-- The settings that environment and options ask for. -/
def Options.settings (options : Options) (place : Workplace) : Traced Stop Settings :=
  match Settings.fromEnvironment place.variableText with
  | .ok settings =>
    pure { settings with
      skipPersistedViews := options.skipPersistedViews || settings.skipPersistedViews }
  | .error e => refuse 1 ("Invalid lineage configuration: " ++ e.message)

/-- The text of a script. -/
def Workplace.script (place : Workplace) (path : String) : Traced Stop String :=
  match place.files.place path with
  | .file _ text => pure (Text.unifyLineEnds text)
  | _ => .fail (.ofPath path)

/-- A script runs in a session of its own. -/
def runScript (place : Workplace) (engine : String) (settings : Settings) (schema : Schema)
    (path : String) : Traced Stop (List ScriptResult) := do
  let session := Session.start (.ofSchema schema) place.library engine settings
  let step := session.run (← place.script path)
  let statements ← ⟨step.log, step.result.mapError .planning⟩
  let lost := statements.countP (·.lineage.isNone)
  Traced.note (.info ("Processed " ++ path ++ ": " ++ Text.writeNat statements.length ++
    " statements, " ++ Text.writeNat lost ++ " without lineage"))
  return statements.map fun statement => ⟨path, statement⟩

/-- Scripts run one after the other. -/
def runScripts (place : Workplace) (engine : String) (settings : Settings) (schema : Schema) :
    List String → Traced Stop (List ScriptResult)
  | [] => pure []
  | path :: rest => do
    let results ← runScript place engine settings schema path
    return results ++ (← runScripts place engine settings schema rest)

/-- The value of an option that needs one. -/
def needed (name : OptionName) : Option String → Traced Stop String
  | some value => pure value
  | none => .fail (.noValue name)

/-- The files after the command with these options. -/
def Options.carryOut (options : Options) (place : Workplace) : Traced Stop FileTree := do
  let schema ← options.loadSchema place.files
  let settings ← options.settings place
  let folder ← needed .sqlFolder options.sqlFolder
  let paths := place.files.scripts folder
  if !canSearch folder then .fail .zeroInPath
  else if paths.isEmpty then refuse 2 ("No SQL files found in " ++ folder)
  else
    let engine ← needed .engine options.engine
    let results ← runScripts place engine settings schema paths
    let output ← needed .output options.output
    match place.files.write? output (options.format.write results) with
    | none => .fail (.ofPath output)
    | some files => do
      Traced.note (.info ("Wrote lineage for " ++ Text.writeNat results.length ++
        " statements to " ++ output))
      return files

/-- The files after the command with these arguments. -/
def run (place : Workplace) (arguments : List String) : Traced Stop FileTree :=
  let level := (place.variableText levelVariable).getD standardLevel
  match Options.ofArguments level arguments with
  | .error usage => .fail (.usage usage)
  | .ok options => match options.logLevel with
    | none => .fail (.noValue .logLevel)
    | some word => match (Threshold.word word).weight with
      | .error unknown => .fail (.level unknown)
      | .ok weight =>
        let done := options.carryOut place
        { done with log := done.log.filter (·.passes weight) }

/-- The exit code of a command that does not break off. -/
def exitCode? : Except Stop FileTree → Option Nat
  | .ok _ => some 0
  | .error (.exit code) => some code
  | .error (.usage .help) => some 0
  | .error (.usage .misuse) => some 2
  | .error _ => none

end ColumnTrace.Command
