import ColumnTrace.Decimal.Shortest
import ColumnTrace.Json.Basic
import ColumnTrace.Label

/-!
# Plain values

A plain value has no parts: it is nothing, a truth value, a number or a text. It has a text of its
own (`word`), another one among other values, where texts stand between quotes (`shown`), and it may
serve as a name (`label`). As keys of a mapping the truth values are the same as the numbers zero
and one, and a number with a fraction of zero is the same as the whole number.
-/

set_option autoImplicit false

namespace ColumnTrace

/-- A plain value. -/
inductive Scalar where
  | null
  | bool (value : Bool)
  | int (value : Int)
  | real (value : Float)
  | text (value : String)
deriving Inhabited

/-- How numbers with a fraction or an exponent are written in texts of plain values. -/
def scalarFormat : Decimal.NumberFormat := ⟨-4, 16, "nan", "inf"⟩

namespace Scalar

/-- The value among others. -/
def shown : Scalar → String
  | .null => Label.missing
  | .bool true => "True"
  | .bool false => "False"
  | .int value => Text.writeInt value
  | .real value => scalarFormat.write value
  | .text value => Text.quoted value

/-- The text of the value. -/
def word : Scalar → String
  | .text value => value
  | value => value.shown

/-- The name that the value stands for. -/
def label : Scalar → Label
  | .null => none
  | value => some value.word

/-- The value says something: it is true, a number other than zero, or a filled text. -/
def isGiven : Scalar → Bool
  | .null => false
  | .bool value => value
  | .int value => value ≠ 0
  | .real value => value != 0.0
  | .text value => value ≠ ""

/-- The whole number that the value counts as. -/
def whole? : Scalar → Option Int
  | .bool value => some (if value then 1 else 0)
  | .int value => some value
  | .real value => match Decimal.Class.ofFloat value with
    | .finite negative mantissa exponent _ =>
      let scaled := mantissa * Nat.pow 2 exponent.toNat
      let divisor := Nat.pow 2 (-exponent).toNat
      if scaled % divisor = 0 then
        some (if negative then -((scaled / divisor : Nat) : Int) else (scaled / divisor : Nat))
      else none
    | _ => none
  | _ => none

/-- The values are the same key of a mapping. -/
def sameKey (a b : Scalar) : Bool :=
  match a.whole?, b.whole? with
  | some m, some n => m == n
  | none, none => match a, b with
    | .null, .null => true
    | .text s, .text t => s == t
    | .real x, .real y => x == y
    | _, _ => false
  | _, _ => false

/-- The plain value that a JSON value is. -/
def ofJson? : Json → Option Scalar
  | .null => some .null
  | .bool value => some (.bool value)
  | .int value => some (.int value)
  | .real value => some (.real value)
  | .string value => some (.text value)
  | _ => none

/-- The value in JSON. -/
def toJson : Scalar → Json
  | .null => .null
  | .bool value => .bool value
  | .int value => .int value
  | .real value => .real value
  | .text value => .string value

/-- A value is read back from its JSON. -/
theorem ofJson?_toJson (value : Scalar) : ofJson? value.toJson = some value := by
  cases value <;> rfl

end Scalar

end ColumnTrace
