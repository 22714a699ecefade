/-!
# Blank characters

`isBlank` is the Unicode white space class together with the four ASCII separator controls;
`trimmed` removes a class of characters from both ends of a text.
-/

set_option autoImplicit false

namespace ColumnTrace.Text

/-- White space: tab to carriage return, the separator controls U+001C to U+001F, the blank, and the
space, line and paragraph separators beyond ASCII. -/
def isBlank (c : Char) : Bool :=
  let n := c.toNat
  (9 ≤ n && n ≤ 13) || (28 ≤ n && n ≤ 32) || n == 0x85 || n == 0xa0 || n == 0x1680 ||
    (0x2000 ≤ n && n ≤ 0x200a) || n == 0x2028 || n == 0x2029 || n == 0x202f || n == 0x205f ||
    n == 0x3000

/-- The text without the characters of a class at either end. -/
def trimmed (strip : Char → Bool) (cs : List Char) : List Char :=
  ((cs.dropWhile strip).reverse.dropWhile strip).reverse

/-- The text without blanks at either end. -/
def trim (s : String) : String :=
  String.ofList (trimmed isBlank s.toList)

/-- Nothing is left of the text without its blanks. -/
def isAllBlank (s : String) : Bool :=
  s.toList.all isBlank

/-- Every character that core counts as white space is blank. -/
theorem isBlank_of_isWhitespace {c : Char} (h : c.isWhitespace = true) : isBlank c = true := by
  simp only [Char.isWhitespace, Bool.or_eq_true, decide_eq_true_eq] at h
  rcases h with ((rfl | rfl) | rfl) | rfl <;> rfl

end ColumnTrace.Text
