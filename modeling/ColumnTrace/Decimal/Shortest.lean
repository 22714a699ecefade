import ColumnTrace.Text.Numeral

/-!
# The shortest decimal of a binary fraction

A finite binary fraction is a mantissa times a power of two. Of the decimals that read back as the
same fraction the shortest is the one with the fewest digits, and of two with as many digits the
nearer. `shortest` looks for it on the decimal grids from one digit on: if any decimal of a grid
reads back, one of the two neighbours of the fraction on that grid does.
-/

set_option autoImplicit false

namespace ColumnTrace.Decimal

/-- A number `digits · 10 ^ exponent`. -/
structure Scaled where
  digits : Nat
  exponent : Int
deriving DecidableEq, Inhabited

/-- A positive fraction `numerator / denominator` with the ends of the interval that reads back as
it, over the same denominator; `closed` says whether the ends read back too. -/
structure Target where
  numerator : Nat
  low : Nat
  high : Nat
  denominator : Nat
  closed : Bool

/-- The target of the fraction `mantissa · 2 ^ exponent`; below the least mantissa of its exponent
the fractions lie twice as close. -/
def Target.ofBinary (mantissa : Nat) (exponent : Int) (lowest : Bool) : Target :=
  let scale (n : Nat) := n * Nat.pow 2 (exponent - 2).toNat
  { numerator := scale (4 * mantissa)
    low := scale (4 * mantissa - if lowest then 1 else 2)
    high := scale (4 * mantissa + 2)
    denominator := Nat.pow 2 (2 - exponent).toNat
    closed := mantissa % 2 == 0 }

/-- The decimal reads back as the target. -/
def Target.admits (t : Target) (d : Scaled) : Bool :=
  let value := d.digits * Nat.pow 10 d.exponent.toNat * t.denominator
  let unit := Nat.pow 10 (-d.exponent).toNat
  if t.closed then t.low * unit ≤ value && value ≤ t.high * unit
  else t.low * unit < value && value < t.high * unit

/-- The neighbours of the target on the grid of multiples of `10 ^ exponent`, the nearer first; of
two as near, the even one first. -/
def Target.neighbours (t : Target) (exponent : Int) : List Scaled :=
  let top := t.numerator * Nat.pow 10 (-exponent).toNat
  let bottom := t.denominator * Nat.pow 10 exponent.toNat
  let below := top / bottom
  let rest := 2 * (top % bottom)
  let belowFirst := rest < bottom || (rest == bottom && below % 2 == 0)
  if belowFirst then [⟨below, exponent⟩, ⟨below + 1, exponent⟩]
  else [⟨below + 1, exponent⟩, ⟨below, exponent⟩]

/-- The exponent of the first digit of the target. -/
def Target.magnitude (t : Target) : Int :=
  if t.denominator ≤ t.numerator then
    ((Nat.toDigits 10 (t.numerator / t.denominator)).length : Int) - 1
  else
    let reaches (n : Nat) := t.denominator ≤ t.numerator * Nat.pow 10 (n + 1)
    Int.negSucc (((List.range 400).find? reaches).getD 0)

/-- Zeros at the end of the digits go into the exponent. -/
def trimZeros : Nat → Scaled → Scaled
  | 0, d => d
  | fuel + 1, d =>
    if d.digits ≠ 0 && d.digits % 10 == 0 then trimZeros fuel ⟨d.digits / 10, d.exponent + 1⟩ else d

/-- The shortest decimal that reads back as the target. -/
def shortest (t : Target) : Scaled :=
  let magnitude := t.magnitude
  let found := (List.range 17).findSome? fun n =>
    (t.neighbours (magnitude - Int.ofNat n)).find? t.admits
  trimZeros 20 (found.getD ⟨0, 0⟩)

/-- What a floating point number is. -/
inductive Class where
  | nan
  | infinite (negative : Bool)
  | finite (negative : Bool) (mantissa : Nat) (exponent : Int) (lowest : Bool)

/-- Takes a double apart. -/
def Class.ofFloat (x : Float) : Class :=
  let bits := x.toBits.toNat
  let negative := bits / Nat.pow 2 63 == 1
  let exponent : Nat := bits / Nat.pow 2 52 % Nat.pow 2 11
  let fraction : Nat := bits % Nat.pow 2 52
  if exponent == 2047 then (if fraction == 0 then .infinite negative else .nan)
  else if exponent == 0 then .finite negative fraction (-1074) false
  else
    .finite negative (Nat.pow 2 52 + fraction) ((exponent : Int) - 1075)
      (fraction == 0 && exponent != 1)

/-- How a number is written: with a point between the digits where the exponent of the first digit
lies in a range, else with an exponent of its own. -/
structure NumberFormat where
  leastPositional : Int
  leastScientific : Int
  nan : String
  infinity : String

/-- The digits with a point, at least one on each side of it. -/
def positional (digits : List Char) (magnitude : Int) : List Char :=
  if magnitude < 0 then '0' :: '.' :: List.replicate (-magnitude - 1).toNat '0' ++ digits
  else
    let whole := magnitude.toNat + 1
    let padded := digits ++ List.replicate (whole - digits.length) '0'
    let rest := padded.drop whole
    padded.take whole ++ '.' :: (if rest.isEmpty then ['0'] else rest)

/-- The digits with an exponent of at least two digits, and a sign before it. -/
def scientific (digits : List Char) (magnitude : Int) : List Char :=
  let sign := if magnitude < 0 then '-' else '+'
  let power := Nat.toDigits 10 magnitude.natAbs
  let point := match digits with
    | [] => ['0']
    | [d] => [d]
    | d :: rest => d :: '.' :: rest
  point ++ 'e' :: sign :: (List.replicate (2 - power.length) '0' ++ power)

/-- A double in the fewest digits that read back. -/
def NumberFormat.write (style : NumberFormat) (x : Float) : String :=
  match Class.ofFloat x with
  | .nan => style.nan
  | .infinite negative => if negative then "-" ++ style.infinity else style.infinity
  | .finite negative mantissa exponent lowest =>
    let d := if mantissa = 0 then ⟨0, 0⟩ else shortest (.ofBinary mantissa exponent lowest)
    let digits := Nat.toDigits 10 d.digits
    let magnitude := d.exponent + (digits.length : Int) - 1
    let body :=
      if style.leastPositional ≤ magnitude && magnitude < style.leastScientific then
        positional digits magnitude
      else scientific digits magnitude
    String.ofList (if negative then '-' :: body else body)

end ColumnTrace.Decimal
