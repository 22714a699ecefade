import ColumnTrace.Label
import ColumnTrace.Log
import ColumnTrace.OrderedMap
import ColumnTrace.Text.Case

/-!
# Loggers

A logger has a name and a threshold: it writes the entries that weigh at least as much. A logger
without a threshold takes that of its nearest ancestor by name that has one. Loggers outlive a run:
a logger that has no outlet gets one into the listing of the run that asks for it, and keeps it
until a run that asks for it has ended well. What goes to the outlet of a run that failed is in no
later listing.
-/

set_option autoImplicit false

namespace ColumnTrace

namespace LogLevel

/-- The weights that words stand for; the weight zero is no threshold. -/
def words : List (String × Int) :=
  [("CRITICAL", 50), ("FATAL", 50), ("ERROR", 40), ("WARN", 30), ("WARNING", 30), ("INFO", 20),
    ("DEBUG", 10), ("NOTSET", 0)]

/-- The level has a word of its own weight. -/
theorem lookup_label (level : LogLevel) : words.lookup level.label = some level.weight := by
  cases level <;> rfl

end LogLevel

/-- A threshold that was asked for: a number, a word in whatever case, or what is neither. -/
inductive Threshold where
  | number (weight : Int)
  | word (text : String)
  | unfit
deriving DecidableEq

/-- A word that stands for no level, in upper case; none where no word was given. -/
structure UnknownLevel where
  word : Label
deriving DecidableEq

/-- The text of the error. -/
def UnknownLevel.message (e : UnknownLevel) : String := "Unknown level: " ++ Label.quoted e.word

namespace Threshold

/-- The weight of a threshold. -/
def weight : Threshold → Except UnknownLevel Int
  | .number weight => .ok weight
  | .word text => match LogLevel.words.lookup (Text.upper text) with
    | some weight => .ok weight
    | none => .error ⟨some (Text.upper text)⟩
  | .unfit => .error ⟨none⟩

end Threshold

/-- The threshold where no logger up to the root has one. -/
def rootWeight : Int := 30

/-- An entry weighs at least as much as a threshold; the weight zero stands for the root's. -/
def LogEntry.passes (weight : Int) (entry : LogEntry) : Bool :=
  (if weight = 0 then rootWeight else weight) ≤ entry.level.weight

/-- Where a logger writes: nowhere, into the listing of the present run, or into that of a run that
failed. -/
inductive Outlet where
  | closed
  | present
  | past
deriving DecidableEq

/-- The threshold of a logger, zero where it has none, and where it writes. -/
structure Logger where
  weight : Int
  outlet : Outlet
deriving DecidableEq

/-- The loggers by name. -/
abbrev Loggers := OrderedMap String Logger

/-- The part of a name before its last dot, unless that is the first character. -/
def parentName? (name : List Char) : Option (List Char) :=
  match (name.reverse.dropWhile (· != '.')) with
  | '.' :: before => if before.isEmpty then none else some before.reverse
  | _ => none

/-- The names above a name, the nearest first; each is sought before the last character of the one
below it. At most `steps` are sought. -/
def ancestorNames : (steps : Nat) → List Char → List (List Char)
  | 0, _ => []
  | steps + 1, name => match parentName? name with
    | some parent => parent :: ancestorNames steps parent.dropLast
    | none => []

namespace Loggers

/-- The nearest logger above a name. -/
def ancestor? (loggers : Loggers) (name : String) : Option String :=
  ((ancestorNames name.length name.toList).map String.ofList).find? loggers.contains

/-- The threshold that holds for a name; at most `steps` loggers above it are asked. -/
def thresholdFrom (loggers : Loggers) : (steps : Nat) → String → Int
  | 0, _ => rootWeight
  | steps + 1, name =>
    let own := ((loggers.get? name).map Logger.weight).getD 0
    if own ≠ 0 then own
    else match loggers.ancestor? name with
      | some above => loggers.thresholdFrom steps above
      | none => rootWeight

/-- The threshold that holds for a name. -/
def threshold (loggers : Loggers) (name : String) : Int :=
  loggers.thresholdFrom (name.length + 1) name

/-- The logger of a name, made where there was none, with an outlet where it had none. -/
def opened (loggers : Loggers) (name : String) : Logger :=
  match loggers.get? name with
  | some logger => if logger.outlet = .closed then { logger with outlet := .present } else logger
  | none => ⟨0, .present⟩

/-- A logger is asked for with a threshold. Its outlet is opened first, and stays open where the
threshold is unknown. -/
def request (loggers : Loggers) (name : String) (threshold : Threshold) :
    Loggers × Except UnknownLevel Unit :=
  let logger := loggers.opened name
  match threshold.weight with
  | .ok weight => (loggers.insert name { logger with weight }, .ok ())
  | .error e => (loggers.insert name logger, .error e)

/-- The line of an entry: its level in eight columns, the logger's name and the message. -/
def line (name : String) (entry : LogEntry) : String :=
  let label := entry.level.label
  label ++ String.ofList (List.replicate (8 - label.length) ' ') ++ " | " ++ name ++ " | " ++
    entry.message

/-- The lines that entries leave in the present listing. -/
def lines (loggers : Loggers) (name : String) (entries : Log) : List String :=
  if (loggers.get? name).any fun logger => logger.outlet = .present then
    (entries.filter (·.passes (loggers.threshold name))).map (line name)
  else []

/-- Entries that are logged to a logger, asked for by name with a threshold. -/
structure Request where
  name : String
  threshold : Threshold
  entries : Log

/-- The requests of a run one after the other: the loggers after them, and the listing. A threshold
that is unknown ends the run. -/
def list (loggers : Loggers) : List Request → Loggers × Except UnknownLevel (List String)
  | [] => (loggers, .ok [])
  | request :: rest =>
    match loggers.request request.name request.threshold with
    | (loggers, .error e) => (loggers, .error e)
    | (loggers, .ok _) =>
      let (after, others) := loggers.list rest
      (after, others.map (loggers.lines request.name request.entries ++ ·))

/-- A run that asked for some loggers has ended well: these have no outlet now. -/
def release (loggers : Loggers) (names : List String) : Loggers :=
  loggers.mapValues fun name logger =>
    if names.contains name then { logger with outlet := .closed } else logger

/-- A run has failed: what writes into its listing writes into a past one now. -/
def abandon (loggers : Loggers) : Loggers :=
  loggers.mapValues fun _ logger =>
    if logger.outlet = .present then { logger with outlet := .past } else logger

/-- The listing of a run, and the loggers after it. -/
def run (loggers : Loggers) (requests : List Request) :
    Loggers × Except UnknownLevel (List String) :=
  match loggers.list requests with
  | (after, .ok lines) => (after.release (requests.map Request.name), .ok lines)
  | (after, .error e) => (after.abandon, .error e)

end Loggers

end ColumnTrace
