/-!
# Log entries

A log is a list of entries in the order in which they were made.
-/

set_option autoImplicit false

namespace ColumnTrace

/-- How grave an entry is. -/
inductive LogLevel where
  | debug
  | info
  | warning
  | error
  | critical
deriving DecidableEq, Inhabited

namespace LogLevel

/-- The weight of a level: a log shows the entries that weigh at least as much as its threshold. -/
def weight : LogLevel → Int
  | .debug => 10
  | .info => 20
  | .warning => 30
  | .error => 40
  | .critical => 50

/-- The word for a level. -/
def label : LogLevel → String
  | .debug => "DEBUG"
  | .info => "INFO"
  | .warning => "WARNING"
  | .error => "ERROR"
  | .critical => "CRITICAL"

end LogLevel

/-- One entry of a log. -/
structure LogEntry where
  level : LogLevel
  message : String
deriving DecidableEq, Inhabited

/-- The entries of a log, the earliest first. -/
abbrev Log := List LogEntry

namespace LogEntry

/-- An entry for those who look for a fault. -/
def debug (message : String) : LogEntry := ⟨.debug, message⟩

/-- An entry about progress. -/
def info (message : String) : LogEntry := ⟨.info, message⟩

/-- An entry about a loss that does not stop the work. -/
def warning (message : String) : LogEntry := ⟨.warning, message⟩

/-- An entry about a failure. -/
def error (message : String) : LogEntry := ⟨.error, message⟩

end LogEntry

end ColumnTrace
