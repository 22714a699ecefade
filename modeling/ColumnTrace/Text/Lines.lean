/-!
# Line ends

`unifyLineEnds` writes every line end of a text, be it LF, CR LF or CR, as LF.
-/

set_option autoImplicit false

namespace ColumnTrace.Text

/-- The characters with every line end as LF. -/
def withPlainLineEnds : List Char → List Char
  | [] => []
  | '\r' :: '\n' :: rest => '\n' :: withPlainLineEnds rest
  | '\r' :: rest => '\n' :: withPlainLineEnds rest
  | c :: rest => c :: withPlainLineEnds rest

/-- The text with every line end as LF. -/
def unifyLineEnds (text : String) : String := String.ofList (withPlainLineEnds text.toList)

end ColumnTrace.Text
