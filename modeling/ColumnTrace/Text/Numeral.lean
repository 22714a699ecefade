import ColumnTrace.Text.Blank

/-!
# Whole numbers in text

`readInt?` reads a decimal numeral: blanks around it, one sign before it, decimal digits of any
script, and single underscores between digits. `writeInt` writes one with ASCII digits.
-/

set_option autoImplicit false

namespace ColumnTrace.Text

/-- The zeros of the decimal digits beyond ASCII; the nine code points after a zero are the digits
from one to nine (Unicode 14). -/
def zeros : List Nat :=
  [0x660, 0x6f0, 0x7c0, 0x966, 0x9e6, 0xa66, 0xae6, 0xb66, 0xbe6, 0xc66, 0xce6, 0xd66, 0xde6,
   0xe50, 0xed0, 0xf20, 0x1040, 0x1090, 0x17e0, 0x1810, 0x1946, 0x19d0, 0x1a80, 0x1a90, 0x1b50,
   0x1bb0, 0x1c40, 0x1c50, 0xa620, 0xa8d0, 0xa900, 0xa9d0, 0xa9f0, 0xaa50, 0xabf0, 0xff10,
   0x104a0, 0x10d30, 0x11066, 0x110f0, 0x11136, 0x111d0, 0x112f0, 0x11450, 0x114d0, 0x11650,
   0x116c0, 0x11730, 0x118e0, 0x11950, 0x11c50, 0x11d50, 0x11da0, 0x16a60, 0x16ac0, 0x16b50,
   0x1d7ce, 0x1d7d8, 0x1d7e2, 0x1d7ec, 0x1d7f6, 0x1e140, 0x1e2f0, 0x1e950, 0x1fbf0]

/-- The value of a decimal digit. -/
def digit? (c : Char) : Option Nat :=
  (48 :: zeros).findSome? fun start =>
    if start ≤ c.toNat && c.toNat ≤ start + 9 then some (c.toNat - start) else none

/-- Blanks that may stand around a numeral: all but the separator controls. -/
def isNumeralBlank (c : Char) : Bool :=
  isBlank c && !(28 ≤ c.toNat && c.toNat ≤ 31)

/-- The digits of a numeral without sign, read after at least one digit: an underscore needs a digit
on its other side too. -/
def moreDigits? : List Char → Option (List Nat)
  | [] => some []
  | '_' :: c :: rest => do return (← digit? c) :: (← moreDigits? rest)
  | c :: rest => do return (← digit? c) :: (← moreDigits? rest)

/-- The digits of a numeral without sign. -/
def digits? : List Char → Option (List Nat)
  | [] => none
  | c :: rest => do return (← digit? c) :: (← moreDigits? rest)

/-- The longest numeral that is read. -/
def maxDigits : Nat := 4300

/-- The number that digits stand for, the highest first. -/
def ofDigits (digits : List Nat) : Nat :=
  digits.foldl (fun n d => 10 * n + d) 0

/-- The number without sign that a numeral stands for. -/
def readNat? (cs : List Char) : Option Nat := do
  let digits ← digits? cs
  if digits.length ≤ maxDigits then some (ofDigits digits) else none

/-- The number that a text stands for. -/
def readInt? (s : String) : Option Int :=
  match trimmed isNumeralBlank s.toList with
  | '-' :: rest => (readNat? rest).map fun n => -(n : Int)
  | '+' :: rest => (readNat? rest).map fun n => (n : Int)
  | cs => (readNat? cs).map fun n => (n : Int)

/-- A number without sign in decimal digits. -/
def writeNat (n : Nat) : String :=
  String.ofList (Nat.toDigits 10 n)

/-- A number in decimal digits, with a minus before a negative one. -/
def writeInt : Int → String
  | .ofNat n => writeNat n
  | .negSucc n => "-" ++ writeNat (n + 1)

end ColumnTrace.Text
