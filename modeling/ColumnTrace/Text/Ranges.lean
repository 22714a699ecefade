/-!
# Tables of characters

A character class beyond ASCII is a list of closed ranges of code points (`Ranges`), and a simple
case map is a list of runs of code points that move by one distance (`Shift`).
-/

set_option autoImplicit false

namespace ColumnTrace.Text

/-- Closed ranges of code points. -/
abbrev Ranges := List (Nat × Nat)

/-- The character lies in one of the ranges. -/
def Ranges.has (ranges : Ranges) (c : Char) : Bool :=
  ranges.any fun range => range.1 ≤ c.toNat && c.toNat ≤ range.2

/-- Every `step`-th code point from `first` to `last` moves by `distance`. -/
structure Shift where
  first : Nat
  last : Nat
  step : Nat
  distance : Int

/-- The shift moves this character. -/
def Shift.covers (shift : Shift) (c : Char) : Bool :=
  shift.first ≤ c.toNat && c.toNat ≤ shift.last && (c.toNat - shift.first) % shift.step == 0

/-- The character after the first shift that covers it; a character that none covers stays. -/
def shifted (shifts : List Shift) (c : Char) : Char :=
  match shifts.find? (·.covers c) with
  | some shift => Char.ofNat (c.toNat + shift.distance).toNat
  | none => c

end ColumnTrace.Text
