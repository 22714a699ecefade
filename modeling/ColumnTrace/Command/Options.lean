import ColumnTrace.Text.Numeral

/-!
# Options of the command line

Options have long names, which may be cut short as long as one name only begins like that; a value
follows as the next argument or after an equals sign. Two dashes after an equals sign stand for no
value: they undo what was given before, and an option that needs a value is then left without one.
All arguments are told apart first, so a name
that is cut too short is refused before anything else is looked at; then they are read in order,
and the first that cannot be used ends the reading, as does the option for help. An argument that
belongs to no option is refused at the end.
-/

set_option autoImplicit false

namespace ColumnTrace.Command

/-- The options. -/
inductive OptionName where
  | help
  | sqlFolder
  | engine
  | output
  | format
  | logLevel
  | schema
  | schemaFile
  | schemaCsv
  | skipPersistedViews
deriving DecidableEq

namespace OptionName

/-- The options with their long names. -/
def longNames : List (String × OptionName) :=
  [("--help", .help), ("--sql-folder", .sqlFolder), ("--engine", .engine), ("--output", .output),
    ("--format", .format), ("--log-level", .logLevel), ("--schema", .schema),
    ("--schema-file", .schemaFile), ("--schema-csv", .schemaCsv),
    ("--skip-permanent-views", .skipPersistedViews)]

/-- The option needs a value. -/
def takesValue : OptionName → Bool
  | .help => false
  | .skipPersistedViews => false
  | _ => true

end OptionName

/-- An argument: a value; an option, with a value where one stands after an equals sign; the short
option for help with what stands behind it; an option that there is not; two dashes alone. -/
inductive Argument where
  | value (text : String)
  | option (name : OptionName) (attached : Option String)
  | shortHelp (tail : List Char)
  | unknown
  | separator
deriving DecidableEq

/-- What stands before the first equals sign, and what stands after it where there is one. -/
def cutAtEquals (cs : List Char) : List Char × Option String :=
  match cs.span (· != '=') with
  | (before, _ :: after) => (before, some (String.ofList after))
  | (before, []) => (before, none)

/-- Digits that are not empty. -/
def areDigits (cs : List Char) : Bool :=
  !cs.isEmpty && cs.all fun c => (Text.digit? c).isSome

/-- The argument reads like a negative number: a dash, then digits, or a point with digits after it
and maybe before it. A line end may follow. -/
def isNegativeNumber : List Char → Bool
  | '-' :: cs =>
    let cs := if cs.getLast? = some '\n' then cs.dropLast else cs
    areDigits cs ||
      match cs.span (· != '.') with
      | (whole, _ :: fraction) => (whole.isEmpty || areDigits whole) && areDigits fraction
      | (_, []) => false
  | _ => false

/-- An argument that begins with a dash and is no option: a value where it reads like a negative
number or has a blank in it. -/
def notOption (text : String) : Argument :=
  if isNegativeNumber text.toList || text.toList.contains ' ' then .value text else .unknown

/-- Tells apart an argument; none where it begins the names of several options. -/
def classify? (text : String) : Option Argument :=
  match text.toList with
  | '-' :: '-' :: _ =>
    let (cut, attached) := cutAtEquals text.toList
    match OptionName.longNames.lookup (String.ofList cut) with
    | some name => some (.option name attached)
    | none =>
      match OptionName.longNames.filter fun option => cut.isPrefixOf option.1.toList with
      | [] => some (notOption text)
      | [option] => some (.option option.2 attached)
      | _ => none
  | '-' :: 'h' :: tail => some (.shortHelp tail)
  | '-' :: _ :: _ => some (notOption text)
  | _ => some (.value text)

/-- Tells apart all arguments; after two dashes alone all are values. -/
def classifyAll? : List String → Option (List Argument)
  | [] => some []
  | "--" :: rest => some (.separator :: rest.map .value)
  | text :: rest => do return (← classify? text) :: (← classifyAll? rest)

/-- The forms in which results are written. -/
inductive OutputFormat where
  | json
  | csv
deriving DecidableEq

namespace OutputFormat

/-- The form that a word stands for. -/
def ofWord? : String → Option OutputFormat
  | "json" => some .json
  | "csv" => some .csv
  | _ => none

end OutputFormat

/-- What is to be done: where the scripts are and for which engine they are written, where the
results go and in which form, what is logged, where the schema comes from, and whether persisted
views count as tables. An option with a standard value lacks a value only where it was taken away.
-/
structure Options where
  sqlFolder : Option String
  engine : Option String
  output : Option String
  format : OutputFormat
  logLevel : Option String
  schema : Option String
  schemaFile : Option String
  schemaCsv : Option String
  skipPersistedViews : Bool
deriving DecidableEq

namespace Options

/-- The options where none is given. -/
def standard (logLevel : String) : Options :=
  ⟨some "sql", some "spark", some "lineage.json", .json, some logLevel, none, none, none, false⟩

/-- The options with a value, or without one; none where it cannot be one of this option. -/
def set? (options : Options) (value : Option String) : OptionName → Option Options
  | .help => none
  | .sqlFolder => some { options with sqlFolder := value }
  | .engine => some { options with engine := value }
  | .output => some { options with output := value }
  | .format => match value with
    | some word => do return { options with format := ← OutputFormat.ofWord? word }
    | none => some { options with format := .json }
  | .logLevel => some { options with logLevel := value }
  | .schema => some { options with schema := value }
  | .schemaFile => some { options with schemaFile := value }
  | .schemaCsv => some { options with schemaCsv := value }
  | .skipPersistedViews => none

end Options

/-- Why there are no options: help was asked for, or an argument cannot be used. -/
inductive Usage where
  | help
  | misuse
deriving DecidableEq

/-- What stands behind the short option for help: only more of it may follow, at once or after an
equals sign. -/
def readShortHelp (tail : List Char) : Usage :=
  let more := match tail with
    | '=' :: more => if more.isEmpty then tail else more
    | more => more
  if more.all (· == 'h') then .help else .misuse

/-- The value that stands after an equals sign; two dashes stand for none. -/
def attachedValue (text : String) : Option String := if text = "--" then none else some text

/-- The options with arguments, read in order; `refused` says whether one belonged to no option. -/
def readArguments (options : Options) (refused : Bool) : List Argument → Except Usage Options
  | [] => if refused then .error .misuse else .ok options
  | .option name attached :: rest =>
    if name.takesValue then
      match attached, rest with
      | some value, rest => match options.set? (attachedValue value) name with
        | some options => readArguments options refused rest
        | none => .error .misuse
      | none, .value value :: rest => match options.set? (some value) name with
        | some options => readArguments options refused rest
        | none => .error .misuse
      | none, _ => .error .misuse
    else if attached.isSome then .error .misuse
    else if name = .help then .error .help
    else readArguments { options with skipPersistedViews := true } refused rest
  | .shortHelp tail :: _ => .error (readShortHelp tail)
  | _ :: rest => readArguments options true rest

/-- The options that arguments ask for. -/
def Options.ofArguments (logLevel : String) (arguments : List String) : Except Usage Options :=
  match classifyAll? arguments with
  | some arguments => readArguments (.standard logLevel) false arguments
  | none => .error .misuse

end ColumnTrace.Command
