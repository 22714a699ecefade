/-!
# Halves of characters

In UTF-16 a character beyond the first plane is written as two halves. A half without the other is
no character, but a text may have one in it all the same. `halfChar` keeps it as a code point of the
last plane that is free for private use, and `half?` finds it again.
-/

set_option autoImplicit false

namespace ColumnTrace.Text

/-- The last plane begins here. -/
def lastPlane : Nat := 0x100000

/-- The number is that of a half. -/
def isHalf (unit : Nat) : Bool := 0xd800 ≤ unit && unit < 0xe000

/-- The character that keeps a half. -/
def halfChar (unit : Nat) : Char := Char.ofNat (lastPlane + unit)

/-- The half that a character keeps. -/
def half? (c : Char) : Option Nat :=
  let unit := c.toNat - lastPlane
  if lastPlane ≤ c.toNat && isHalf unit then some unit else none

/-- The character of a half keeps it. -/
theorem half?_halfChar (unit : Nat) (h : isHalf unit = true) :
    half? (halfChar unit) = some unit := by
  have bounds : 0xd800 ≤ unit ∧ unit < 0xe000 := by simpa [isHalf] using h
  have value : (halfChar unit).toNat = lastPlane + unit := by
    have valid : (lastPlane + unit).isValidChar := Or.inr (by unfold lastPlane; omega)
    rw [halfChar, Char.ofNat, dif_pos valid]
    rfl
  simp [half?, value, h]

end ColumnTrace.Text
