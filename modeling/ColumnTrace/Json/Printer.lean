import ColumnTrace.Decimal.Shortest
import ColumnTrace.Json.Basic
import ColumnTrace.Text.Quoted

/-!
# Writing JSON

`Json.compact` writes a value on one line, `Json.indented` one item a line with two blanks for each
level. Strings are written in ASCII: every other character is escaped by its UTF-16 code units.
-/

set_option autoImplicit false

namespace ColumnTrace.Json

/-- How numbers with a fraction are written: with a point from `0.0001` up to sixteen digits. -/
def numberFormat : Decimal.NumberFormat := ⟨-4, 16, "NaN", "Infinity"⟩

/-- The UTF-16 code units of a character; of one that keeps a half, the half alone. -/
def codeUnits (c : Char) : List Nat :=
  match Text.half? c with
  | some unit => [unit]
  | none =>
    if c.toNat < 0x10000 then [c.toNat]
    else
      let n := c.toNat - 0x10000
      [0xd800 + n / 0x400, 0xdc00 + n % 0x400]

/-- A character in a string. -/
def escaped (c : Char) : List Char :=
  match c with
  | '"' => ['\\', '"']
  | '\\' => ['\\', '\\']
  | '\n' => ['\\', 'n']
  | '\r' => ['\\', 'r']
  | '\t' => ['\\', 't']
  | '\x08' => ['\\', 'b']
  | '\x0c' => ['\\', 'f']
  | _ =>
    if 32 ≤ c.toNat && c.toNat ≤ 126 then [c]
    else (codeUnits c).flatMap fun unit => '\\' :: 'u' :: Text.hexDigits 4 unit

/-- A text between quotes. -/
def writeString (s : String) : String :=
  String.ofList ('"' :: s.toList.flatMap escaped ++ ['"'])

/-- A value that holds no others. -/
def writeScalar : Json → String
  | .null => "null"
  | .bool true => "true"
  | .bool false => "false"
  | .int n => Text.writeInt n
  | .real x => numberFormat.write x
  | .string s => writeString s
  | .array _ => "[]"
  | .object _ => "\x7b\x7d"

/-- A line break with the blanks of a level. -/
def lineBreak (level : Nat) : String :=
  String.ofList ('\n' :: List.replicate (2 * level) ' ')

mutual

/-- The value on one line. -/
def compact : Json → String
  | .array (item :: rest) => "[" ++ compact item ++ compactItems rest ++ "]"
  | .object ((name, value) :: rest) =>
    "\x7b" ++ writeString name ++ ": " ++ compact value ++ compactMembers rest ++ "\x7d"
  | value => writeScalar value

/-- Items after the first. -/
def compactItems : List Json → String
  | [] => ""
  | item :: rest => ", " ++ compact item ++ compactItems rest

/-- Members after the first. -/
def compactMembers : List (String × Json) → String
  | [] => ""
  | (name, value) :: rest =>
    ", " ++ writeString name ++ ": " ++ compact value ++ compactMembers rest

end

mutual

/-- The value with one item a line, from a level on. -/
def indentedFrom (level : Nat) : Json → String
  | .array (item :: rest) =>
    "[" ++ lineBreak (level + 1) ++ indentedFrom (level + 1) item ++
      indentedItems (level + 1) rest ++ lineBreak level ++ "]"
  | .object ((name, value) :: rest) =>
    "\x7b" ++ lineBreak (level + 1) ++ writeString name ++ ": " ++ indentedFrom (level + 1) value ++
      indentedMembers (level + 1) rest ++ lineBreak level ++ "\x7d"
  | value => writeScalar value

/-- Items after the first, each on a line of its own. -/
def indentedItems (level : Nat) : List Json → String
  | [] => ""
  | item :: rest => "," ++ lineBreak level ++ indentedFrom level item ++ indentedItems level rest

/-- Members after the first, each on a line of its own. -/
def indentedMembers (level : Nat) : List (String × Json) → String
  | [] => ""
  | (name, value) :: rest =>
    "," ++ lineBreak level ++ writeString name ++ ": " ++ indentedFrom level value ++
      indentedMembers level rest

end

/-- The value with one item a line. -/
def indented (value : Json) : String := indentedFrom 0 value

end ColumnTrace.Json
