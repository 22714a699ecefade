import ColumnTrace.Text.Blank
import ColumnTrace.Text.Case
import ColumnTrace.Text.Numeral
import ColumnTrace.Text.Quoted

/-!
# Settings of an analysis

Two settings change how plans are traced. They are given directly or read from environment
variables; a setting that makes no sense is a `SettingsError`.
-/

set_option autoImplicit false

namespace ColumnTrace

/-- How plans are traced: whether persisted views count as tables, and how deep a plan may be. -/
structure Settings where
  skipPersistedViews : Bool
  maxPlanDepth : Nat
  maxPlanDepth_pos : 0 < maxPlanDepth
deriving DecidableEq

/-- The variable that says whether persisted views count as tables. -/
def skipVariable : String := "LINEAGE_SKIP_PARSING_PERMANENT_VIEWS"

/-- The variable that says how deep a plan may be. -/
def depthVariable : String := "LINEAGE_MAX_PLAN_DEPTH"

/-- What is wrong with a setting. -/
inductive SettingsError where
  | depthNotPositive (depth : Int)
  | notBoolean (variableName : String) (text : String)
  | notInteger (variableName : String) (text : String)
deriving DecidableEq

/-- The text of the error. -/
def SettingsError.message : SettingsError → String
  | .depthNotPositive depth => "max_plan_depth must be positive, got " ++ Text.writeInt depth
  | .notBoolean name text => name ++ " must be a boolean, got " ++ Text.quoted text
  | .notInteger name text => name ++ " must be an integer, got " ++ Text.quoted text

namespace Settings

/-- The depth that is used where none is given. -/
def defaultDepth : Int := 512

/-- Settings with a depth of at least one. -/
def make (skipPersistedViews : Bool) (depth : Int) : Except SettingsError Settings :=
  if h : 0 < depth then .ok ⟨skipPersistedViews, depth.toNat, by omega⟩
  else .error (.depthNotPositive depth)

/-- Views are opened, and plans may be 512 levels deep. -/
def standard : Settings := ⟨false, 512, by decide⟩

instance : Inhabited Settings := ⟨standard⟩

/-- The truth value that a word stands for, in whatever case and with whatever blanks around it. -/
def readBool? (text : String) : Option Bool :=
  let word := Text.lower (Text.trim text)
  if ["1", "true", "yes", "on"].contains word then some true
  else if ["0", "false", "no", "off", ""].contains word then some false
  else none

/-- Settings from environment variables; a variable that is missing leaves the standard. -/
def fromEnvironment (variableText : String → Option String) : Except SettingsError Settings := do
  let skip ← match variableText skipVariable with
    | none => pure false
    | some text => match readBool? text with
      | some value => pure value
      | none => throw (.notBoolean skipVariable text)
  let depth ← match variableText depthVariable with
    | none => pure defaultDepth
    | some text => match Text.readInt? text with
      | some value => pure value
      | none => throw (.notInteger depthVariable text)
  make skip depth

end Settings

end ColumnTrace
