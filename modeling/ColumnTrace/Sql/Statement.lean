import ColumnTrace.Sql.Query

/-!
# The clauses of other statements

Readings of inserts, creations, merges, view changes and stored results.
-/

set_option autoImplicit false

namespace ColumnTrace.Sql

/-- The blanks at the start of a text, at least one, are passed over. -/
def skipBlanks? (cs : List Char) : Option (List Char) :=
  match cs with
  | c :: rest => if Text.isBlank c then some (rest.dropWhile Text.isBlank) else none
  | [] => none

/-- The character stands for a letter of a keyword, in whatever case; the dotless and the dotted `i`
and the long `s` count as forms of the letters. -/
def isLetter (letter c : Char) : Bool :=
  c == letter || c.toLower == letter ||
    (letter == 'i' && (c == 'ı' || c == 'İ')) || (letter == 's' && c == 'ſ')

/-- A keyword, given in small letters, at the start of a text is passed over. -/
def skipWord? : List Char → List Char → Option (List Char)
  | [], cs => some cs
  | letter :: word, c :: cs => if isLetter letter c then skipWord? word cs else none
  | _ :: _, [] => none

/-- The query of a view change begins after the blanks; blanks alone count as a query of one. -/
def viewQuery? (cs : List Char) : Option (List Char) := do
  let rest ← skipBlanks? cs
  if rest.isEmpty then (if cs.length < 2 then none else some (cs.drop (cs.length - 1)))
  else some rest

/-- Reads `VIEW name AS query`: the name and the query. A name has no blank and no bracket. -/
def viewChange? (text : String) : Option (String × String) := do
  let rest ← skipWord? ['v', 'i', 'e', 'w'] (text.toList.dropWhile Text.isBlank)
  let rest ← skipBlanks? rest
  let ends (c : Char) : Bool := Text.isBlank c || c == '('
  let name := rest.takeWhile fun c => !ends c
  if name.isEmpty then none
  let rest ← skipBlanks? (rest.dropWhile fun c => !ends c)
  let rest ← skipWord? ['a', 's'] rest
  let query ← viewQuery? rest
  return (normalize (String.ofList name), String.ofList query)

namespace Node

/-- A target with a list of columns behind it, taken apart. -/
def target (n : Node) : Reading (Value × List Label) :=
  match n.this? with
  | some target =>
    if target.is "Schema" then do return (target.arg "this", ← target.normalNames "expressions")
    else .ok (.node target, [])
  | none => .ok (.null, [])

/-- The table that an insert fills, where it fills one, and the columns that it names. -/
def insertTarget (insert : Node) : Reading (Option Node × List Label) := do
  let (target, columns) ← insert.target
  return (target.node?.filter (·.is "Table"), columns ++ (← insert.normalNames "columns"))

/-- The directory that an insert fills, where it fills one. -/
def insertDirectory (insert : Node) : Label :=
  match insert.this? with
  | some target =>
    if target.is "Directory" then
      match target.arg "this" with
      | .node location => location.name
      | location => some location.word
    else none
  | none => none

/-- An insert replaces the rows that are there. -/
def isOverwrite (insert : Node) : Bool := (insert.arg "overwrite").isGiven

/-- Part of the partition of an insert comes from its query. -/
def hasDynamicPartitions (insert : Node) : Reading Bool :=
  match insert.findTopmost? (·.is "Partition") with
  | some partition => do return !(← partition.listed "Column").isEmpty
  | none => .ok false

/-- What a creation creates, in capitals. -/
def createKind (create : Node) : Reading String := (create.arg "kind").capitals

/-- The table or view that a creation creates, and the columns that it names. -/
def createTarget (create : Node) : Reading (Node × List Label) := do
  let (target, columns) ← create.target
  match target.node?.filter (·.is "Table") with
  | some table => return (table, columns)
  | none => throw (.createWithoutTable (← create.createKind))

/-- The columns that a creation defines one by one. -/
def columnDefinitions (create : Node) : Reading (List Label) :=
  match create.this? with
  | some target =>
    if target.is "Schema" then do return (← target.listed "ColumnDef").map normalName
    else .ok []
  | none => .ok []

/-- How long the view of a creation lasts. -/
def viewType (create : Node) : Reading ViewType := do
  let properties ← match ← (create.arg "properties").nodeIfThere with
    | some properties => properties.expressions
    | none => pure []
  let properties := properties.filterMap Value.node?
  let temporary := properties.filter (·.is "TemporaryProperty")
  if temporary.isEmpty then return .persisted
  else if temporary.any (fun p => (p.arg "this").wordInCapitals == "GLOBAL") ||
      properties.any (·.is "GlobalProperty") then return .globalTemporary
  else return .temporary

/-- A creation replaces what is there. -/
def isReplace (create : Node) : Bool := (create.arg "replace").isGiven

/-- The `WHEN` clauses of a merge. -/
def mergeClauses (merge : Node) : Reading (List Node) := do
  match ← (merge.arg "whens").nodeIfThere with
  | some whens => whens.listed "When"
  | none => merge.listed "When"

/-- The source of a merge. -/
def mergeSource (merge : Node) : Reading Value :=
  let source := merge.arg "using"
  if source.isThere then .ok source else .error .mergeWithoutSource

/-- The first query among the actions of a view change. -/
def firstQuery? : List Value → Reading (Option Node)
  | [] => .ok none
  | action :: rest => do
    match (← action.toNode).findTopmost? isQuery with
    | some query => return some query
    | none => firstQuery? rest

/-- The view and the text of its new query, where the statement is `ALTER VIEW name AS query`. -/
def alterView? (engine : String) (statement : Node) : Reading (Option (String × String)) := do
  if statement.is "Command" && Text.upper (statement.arg "this").word == "ALTER" then
    match statement.expression? with
    | none => return none
    | some rest => match rest.name with
      | some text => return viewChange? text
      | none => throw .malformed
  else if statement.is "Alter" && (statement.arg "kind").wordInCapitals == "VIEW" then
    match ← firstQuery? (← statement.itemsOf "actions") with
    | some query =>
      let view ← (← (statement.arg "this").toNode).identifier
      return some (view.qualifiedName, ← query.write engine)
    | none => return none
  else return none

/-- The name of a stored result and its query, where it has one. -/
def cacheTarget (cache : Node) : Reading (String × Value) :=
  match cache.this?.filter (·.is "Table") with
  | some table => .ok (table.qualifiedName, cache.arg "expression")
  | none => .error .cacheWithoutTable

end Node

end ColumnTrace.Sql
