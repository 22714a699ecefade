import ColumnTrace.Json.Token
import ColumnTrace.OrderedMap

/-!
# Reading JSON

`Json.read?` reads a text that holds one JSON value. The brackets that are open stand on a stack, so
the reading goes through the tokens once. A member that comes twice keeps its first place and takes
its last value.
-/

set_option autoImplicit false

namespace ColumnTrace.Json

/-- An open bracket with what stands in it so far, the last first. -/
inductive OpenBracket where
  | array (items : List Json)
  | object (members : List (String × Json)) (key : String)

/-- What must come next: a value, or a closing bracket right after the opening one; a member's name;
a colon; a comma or a closing bracket; nothing. -/
inductive Expected where
  | value
  | valueOrClose
  | name (members : List (String × Json))
  | nameOrClose
  | colon (members : List (String × Json)) (key : String)
  | more
  | nothing (value : Json)

/-- An object of members in the order of their first appearance. -/
def ofMembers (members : List (String × Json)) : Json :=
  .object (OrderedMap.ofList members).entries

/-- A value is complete: it goes into the innermost open bracket, or it is the whole. -/
def complete (value : Json) : List OpenBracket → List OpenBracket × Expected
  | [] => ([], .nothing value)
  | .array items :: stack => (.array (value :: items) :: stack, .more)
  | .object members key :: stack => (.object ((key, value) :: members) key :: stack, .more)

/-- Reads the tokens from a point on. -/
def readTokens : List OpenBracket → Expected → List Token → Option Json
  | _, .nothing value, [] => some value
  | _, _, [] => none
  | stack, .value, token :: rest => openValue stack token rest
  | stack, .valueOrClose, token :: rest =>
    match token, stack with
    | .closeArray, .array items :: stack =>
      let (stack, expected) := complete (.array items.reverse) stack
      readTokens stack expected rest
    | token, stack => openValue stack token rest
  | stack, .nameOrClose, .closeObject :: rest =>
    let (stack, expected) := complete (.object []) stack
    readTokens stack expected rest
  | stack, .nameOrClose, .text key :: rest => readTokens stack (.colon [] key) rest
  | stack, .name members, .text key :: rest => readTokens stack (.colon members key) rest
  | stack, .colon members key, .colon :: rest =>
    readTokens (.object members key :: stack) .value rest
  | .array items :: stack, .more, .comma :: rest => readTokens (.array items :: stack) .value rest
  | .array items :: stack, .more, .closeArray :: rest =>
    let (stack, expected) := complete (.array items.reverse) stack
    readTokens stack expected rest
  | .object members _ :: stack, .more, .comma :: rest => readTokens stack (.name members) rest
  | .object members _ :: stack, .more, .closeObject :: rest =>
    let (stack, expected) := complete (ofMembers members.reverse) stack
    readTokens stack expected rest
  | _, _, _ :: _ => none
where
  /-- Reads a value that begins with a token. -/
  openValue (stack : List OpenBracket) (token : Token) (rest : List Token) : Option Json :=
    match token with
    | .scalar value =>
      let (stack, expected) := complete value stack
      readTokens stack expected rest
    | .text value =>
      let (stack, expected) := complete (.string value) stack
      readTokens stack expected rest
    | .openArray => readTokens (.array [] :: stack) .valueOrClose rest
    | .openObject => readTokens stack .nameOrClose rest
    | _ => none

/-- The value that a text holds. -/
def read? (text : String) : Option Json := do readTokens [] .value (← tokens? text)

end ColumnTrace.Json
