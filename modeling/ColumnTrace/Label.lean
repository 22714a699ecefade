import ColumnTrace.Text.Quoted

/-!
# Labels

A label is a name that may be missing. A column of a catalog may lack one; it can be read, but not
be referred to. In a longer name or in a list that is shown, `None` stands where a name is missing.
-/

set_option autoImplicit false

namespace ColumnTrace

/-- A name, or none. -/
abbrev Label := Option String

namespace Label

/-- The word that stands where a name is missing. -/
def missing : String := "None"

/-- The label as a part of a longer name. -/
def text (label : Label) : String := label.getD missing

/-- The label among others: a name stands between quotes. -/
def quoted : Label → String
  | some name => Text.quoted name
  | none => missing

/-- Labels in brackets. -/
def quotedList (labels : List Label) : String :=
  "[" ++ ", ".intercalate (labels.map quoted) ++ "]"

@[simp]
theorem text_some (name : String) : text (some name) = name := rfl

end Label

end ColumnTrace
