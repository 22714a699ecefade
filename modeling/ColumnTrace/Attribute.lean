import ColumnTrace.Label
import ColumnTrace.Text.Case
import ColumnTrace.Text.Numeral
import ColumnTrace.Text.Segments

/-!
# Attributes

An attribute is a column with an identity. The identity stays while the column moves through a
plan; the name and the qualifier are what a reader is shown. A column of a catalog may lack a name:
it can be handed on, but not be shown or compared by name. Two names are reserved: a column that
counts rows asks its sources for the marker `__count__`, and a column asked of a scalar subquery
carries the segment `__subquery__` at the end of its qualifier until the relation that answers it
takes the segment off.
-/

set_option autoImplicit false

namespace ColumnTrace

/-- The last qualifier segment of columns that belong to a scalar subquery. -/
def subquerySegment : String := "__subquery__"

/-- The name of the marker that stands for the rows of a table. -/
def countName : String := "__count__"

/-- The qualifier of columns that belong to no table. -/
def localQualifier : String := "__local__"

/-- A column with an identity. -/
structure Attribute where
  id : Int
  name : Label
  qualifier : List String
deriving DecidableEq, Inhabited

namespace Attribute

/-- The column has a name. -/
def isNamed (a : Attribute) : Bool := a.name.isSome

/-- The qualifier's segments and the name, if there is one, with dots between them. -/
def qualifiedName (a : Attribute) : String := Text.dotted (a.qualifier ++ a.name.toList)

/-- The same column under another name. -/
def withName (a : Attribute) (name : Label) : Attribute := { a with name }

/-- The same column under another qualifier. -/
def withQualifier (a : Attribute) (qualifier : List String) : Attribute := { a with qualifier }

/-- The attribute is the marker for the rows of a table. -/
def isCountMarker (a : Attribute) : Bool := a.name.any fun name => Text.lower name == countName

/-- The attribute was asked of a scalar subquery and not answered yet. -/
def isSubqueryMarked (a : Attribute) : Bool :=
  a.qualifier.getLast?.any fun segment => Text.lower segment == subquerySegment

/-- The attribute as one asked of a scalar subquery. -/
def markSubquery (a : Attribute) : Attribute := a.withQualifier (a.qualifier ++ [subquerySegment])

/-- The attribute without the last segment of its qualifier. -/
def dropLastSegment (a : Attribute) : Attribute := a.withQualifier a.qualifier.dropLast

/-- The attribute as log lines show it: its qualified name and its identity. -/
def shown (a : Attribute) : String := a.qualifiedName ++ "#" ++ Text.writeInt a.id

/-- The marker of a subquery is taken off again. -/
theorem dropLastSegment_markSubquery (a : Attribute) : a.markSubquery.dropLastSegment = a := by
  simp [markSubquery, dropLastSegment, withQualifier]

end Attribute

end ColumnTrace
