import ColumnTrace.Json.Basic
import ColumnTrace.Text.Half
import ColumnTrace.Text.Numeral

/-!
# Tokens of JSON text

Text is cut into brackets, commas, colons, strings and words; a word is a longest run of characters
that are none of these and no blank. A word stands for a literal or a number. Beyond the standard
the words `NaN`, `Infinity` and `-Infinity` are numbers.
-/

set_option autoImplicit false

namespace ColumnTrace.Json

/-- A token of JSON text. -/
inductive Token where
  | openArray
  | closeArray
  | openObject
  | closeObject
  | comma
  | colon
  | text (value : String)
  | scalar (value : Json)

/-- Blanks between tokens. -/
def isGap (c : Char) : Bool := c == ' ' || c == '\t' || c == '\n' || c == '\r'

/-- A token of one character. -/
def punctuation? : Char → Option Token
  | '[' => some .openArray
  | ']' => some .closeArray
  | '\x7b' => some .openObject
  | '\x7d' => some .closeObject
  | ',' => some .comma
  | ':' => some .colon
  | _ => none

/-- A digit of ASCII. -/
def isDigit (c : Char) : Bool := '0' ≤ c && c ≤ '9'

/-- The number of digits. -/
def valueOf (digits : List Char) : Nat :=
  Text.ofDigits (digits.map fun c => c.toNat - 48)

/-- A run of digits and what follows it; at least one digit is needed. -/
def digitRun? (cs : List Char) : Option (List Char × List Char) :=
  match cs.span isDigit with
  | ([], _) => none
  | run => some run

/-- The nearest double of `digits · 10 ^ exponent`; a number too large is infinite. -/
def toFloat (digits : Nat) (exponent : Int) : Float :=
  let length := ((Nat.toDigits 10 digits).length : Int)
  if digits = 0 || length + exponent < -400 then 0.0
  else if 400 < length + exponent then 1.0 / 0.0
  else Float.ofScientific digits (exponent < 0) exponent.natAbs

/-- The value of a number without sign: whole digits without a leading zero, then a fraction, then
an exponent. -/
def unsigned? (negative : Bool) (cs : List Char) : Option Json := do
  let (whole, rest) ← digitRun? cs
  if whole.head? = some '0' && whole.length ≠ 1 then failure
  let (fraction, rest) ← match rest with
    | '.' :: rest => digitRun? rest
    | _ => some ([], rest)
  let (power, rest) ← match rest with
    | c :: '-' :: rest => if c = 'e' || c = 'E' then
        (digitRun? rest).map fun run => (some (-(valueOf run.1 : Int)), run.2) else none
    | c :: '+' :: rest => if c = 'e' || c = 'E' then
        (digitRun? rest).map fun run => (some (valueOf run.1 : Int), run.2) else none
    | c :: rest => if c = 'e' || c = 'E' then
        (digitRun? rest).map fun run => (some (valueOf run.1 : Int), run.2) else none
    | [] => some (none, [])
  if ¬ rest.isEmpty then failure
  if fraction.isEmpty && power.isNone then
    let n : Int := valueOf whole
    return .int (if negative then -n else n)
  else
    let x := toFloat (valueOf (whole ++ fraction)) (power.getD 0 - fraction.length)
    return .real (if negative then -x else x)

/-- The value that a word stands for. -/
def word? (cs : List Char) : Option Json :=
  match String.ofList cs with
  | "null" => some .null
  | "true" => some (.bool true)
  | "false" => some (.bool false)
  | "NaN" => some (.real (0.0 / 0.0))
  | "Infinity" => some (.real (1.0 / 0.0))
  | "-Infinity" => some (.real (-1.0 / 0.0))
  | _ => match cs with
    | '-' :: rest => unsigned? true rest
    | _ => unsigned? false cs

/-- The value of a hexadecimal digit. -/
def hexValue? (c : Char) : Option Nat :=
  if isDigit c then some (c.toNat - 48)
  else if 'a' ≤ c && c ≤ 'f' then some (c.toNat - 87)
  else if 'A' ≤ c && c ≤ 'F' then some (c.toNat - 55)
  else none

/-- The character after a backslash stands for another one. -/
def escape? : Char → Option Char
  | '"' => some '"'
  | '\\' => some '\\'
  | '/' => some '/'
  | 'b' => some '\x08'
  | 'f' => some '\x0c'
  | 'n' => some '\n'
  | 'r' => some '\r'
  | 't' => some '\t'
  | _ => none

/-- Where the reading of text stands: between tokens; in a word; in a string, at its start or with a
first half of a pair of code units open; after a backslash in it; in the code unit of an escape. The
characters that were read stand in reverse. -/
inductive LexState where
  | between
  | word (read : List Char)
  | string (read : List Char) (half : Option Nat)
  | escape (read : List Char) (half : Option Nat)
  | unit (read : List Char) (half : Option Nat) (missing : Nat) (value : Nat)

/-- A half that found no partner stays in the string. -/
def closeHalf (read : List Char) : Option Nat → List Char
  | none => read
  | some value => Text.halfChar value :: read

/-- A code unit joins the string: the second half of a pair makes a character with the first. -/
def addUnit (read : List Char) (half : Option Nat) (value : Nat) : LexState :=
  if 0xdc00 ≤ value && value < 0xe000 then
    match half with
    | some high =>
      .string (Char.ofNat (0x10000 + (high - 0xd800) * 0x400 + (value - 0xdc00)) :: read) none
    | none => .string (Text.halfChar value :: read) none
  else if 0xd800 ≤ value && value < 0xdc00 then .string (closeHalf read half) (some value)
  else .string (Char.ofNat value :: closeHalf read half) none

/-- The tokens of the rest of a text, from a state on. -/
def lex : LexState → List Char → Option (List Token)
  | .between, [] => some []
  | .word read, [] => do return [.scalar (← word? read.reverse)]
  | _, [] => none
  | .between, c :: rest =>
    if isGap c then lex .between rest
    else if c == '"' then lex (.string [] none) rest
    else match punctuation? c with
      | some token => do return token :: (← lex .between rest)
      | none => lex (.word [c]) rest
  | .word read, c :: rest =>
    if isGap c then do return .scalar (← word? read.reverse) :: (← lex .between rest)
    else if c == '"' then none
    else match punctuation? c with
      | some token => do
        return .scalar (← word? read.reverse) :: token :: (← lex .between rest)
      | none => lex (.word (c :: read)) rest
  | .string read half, c :: rest =>
    if c == '"' then do
      return .text (String.ofList (closeHalf read half).reverse) :: (← lex .between rest)
    else if c == '\\' then lex (.escape read half) rest
    else if c.toNat < 32 then none
    else lex (.string (c :: closeHalf read half) none) rest
  | .escape read half, c :: rest =>
    if c == 'u' then lex (.unit read half 3 0) rest
    else match escape? c with
      | some d => lex (.string (d :: closeHalf read half) none) rest
      | none => none
  | .unit read half missing value, c :: rest =>
    match hexValue? c with
    | none => none
    | some digit => match missing with
      | 0 => lex (addUnit read half (value * 16 + digit)) rest
      | missing + 1 => lex (.unit read half missing (value * 16 + digit)) rest

/-- The tokens of a text. -/
def tokens? (text : String) : Option (List Token) := lex .between text.toList

/-- The digits of a token that is a whole number of too many digits. -/
def Token.excessDigits? : Token → Option Nat
  | .scalar (.int n) =>
    let digits := (Nat.toDigits 10 n.natAbs).length
    if Text.maxDigits < digits then some digits else none
  | _ => none

/-- The digits of the first whole number in a text that has too many. -/
def excessDigits? (text : String) : Option Nat := do
  (← tokens? text).findSome? Token.excessDigits?

end ColumnTrace.Json
