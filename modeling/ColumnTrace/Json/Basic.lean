/-!
# JSON values

Members of an object stand in the order in which they were written. Whole numbers are told apart
from numbers with a fraction or an exponent.
-/

set_option autoImplicit false

namespace ColumnTrace

/-- A JSON value. -/
inductive Json where
  | null
  | bool (value : Bool)
  | int (value : Int)
  | real (value : Float)
  | string (value : String)
  | array (items : List Json)
  | object (members : List (String × Json))
deriving Inhabited

namespace Json

/-- The value of an object's member. -/
def member? (name : String) : Json → Option Json
  | .object members => members.lookup name
  | _ => none

/-- An array of texts. -/
def strings (texts : List String) : Json := .array (texts.map .string)

/-- A text, or null. -/
def optional (text : Option String) : Json := match text with
  | some text => .string text
  | none => .null

end Json

end ColumnTrace
