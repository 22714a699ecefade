import ColumnTrace.Command.Options
import ColumnTrace.Files.Tree
import ColumnTrace.Loggers
import ColumnTrace.PlanningError
import ColumnTrace.Schema.Rows
import ColumnTrace.Traced

/-!
# Why a command stops

A command that does not write its results stops for one of these causes. Where its log says why, it
stops with an exit code only.
-/

set_option autoImplicit false

namespace ColumnTrace.Command

/-- Why a command stops early. -/
inductive Stop where
  /-- Help was asked for, or the arguments cannot be used. -/
  | usage (usage : Usage)
  /-- The level for the log is unknown. -/
  | level (unknown : UnknownLevel)
  /-- The log says why. -/
  | exit (code : Nat)
  /-- The rows of the schema use one name for two things. -/
  | clash (clash : NameClash)
  /-- A whole number in the schema has too many digits. -/
  | tooLong (digits : Nat)
  /-- The file cannot be read or written. -/
  | file (path : String)
  /-- The text can be no path, because the character zero is in it. -/
  | zeroInPath
  /-- An option was left without the value that is needed. -/
  | noValue (name : OptionName)
  /-- A statement ended the run. -/
  | planning (error : PlanningError)
deriving DecidableEq

/-- The words for a whole number that has too many digits. -/
def tooLongMessage (digits : Nat) : String :=
  "Exceeds the limit (" ++ Text.writeNat Text.maxDigits ++
    " digits) for integer string conversion: value has " ++ Text.writeNat digits ++
    " digits; use sys.set_int_max_str_digits() to increase the limit"

/-- The words for a path with the character zero in it. -/
def zeroInPathMessage : String := "embedded null byte"

/-- Why a path cannot be used. -/
def Stop.ofPath (path : String) : Stop := if canBePath path then .file path else .zeroInPath

/-- The command says in its log why it stops. -/
def refuse {α : Type} (code : Nat) (message : String) : Traced Stop α :=
  ⟨[.error message], .error (.exit code)⟩

/-- The marks that stand in a log for the words of a failure outside the program. -/
def fileMark : String := "<OSError>"

/-- The mark for a text that is no JSON. -/
def jsonMark : String := "<JSONDecodeError>"

end ColumnTrace.Command
