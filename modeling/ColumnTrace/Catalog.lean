import ColumnTrace.Schema

/-!
# Catalogs

A catalog holds the tables, views and stored results that statements may refer to. Every name is
put in the form in which names are compared before it is looked up or registered; a later
registration of a name replaces an earlier one of the same sort. A missing name is a name of its
own.
-/

set_option autoImplicit false

namespace ColumnTrace

/-- The query of a view, the columns that it declares, if any, and whether it is temporary. -/
structure ViewDefinition where
  sql : String
  columns : List Label
  temporary : Bool
deriving DecidableEq

/-- The tables, views and stored results that are known. -/
structure Catalog where
  tables : OrderedMap Label (List Label)
  views : OrderedMap Label ViewDefinition
  cached : OrderedMap Label String
deriving DecidableEq

namespace Catalog

/-- The catalog that knows nothing. -/
def empty : Catalog := ⟨∅, ∅, ∅⟩

instance : Inhabited Catalog := ⟨empty⟩

/-- The catalog of the tables of a schema. -/
def ofSchema (schema : Schema) : Catalog :=
  { empty with tables := .ofList (schema.tables.entries.map fun table => (some table.1, table.2)) }

/-- There is a table of this name. -/
def hasTable (c : Catalog) (name : Label) : Bool := c.tables.contains name.normal

/-- The columns of a table; an unknown table has none. -/
def columns (c : Catalog) (name : Label) : List Label :=
  (c.tables.get? name.normal).getD []

/-- The table has these columns now. -/
def registerTable (c : Catalog) (name : Label) (columns : List Label) : Catalog :=
  { c with tables := c.tables.insert name.normal (columns.map Label.normal) }

/-- The view of this name. -/
def view? (c : Catalog) (name : Label) : Option ViewDefinition := c.views.get? name.normal

/-- The view is defined like this now. -/
def registerView (c : Catalog) (name : Label) (sql : String) (columns : List Label)
    (temporary : Bool) : Catalog :=
  { c with views :=
      c.views.insert name.normal ⟨sql, columns.map Label.normal, temporary⟩ }

/-- The query whose result is stored under this name. -/
def cachedQuery? (c : Catalog) (name : Label) : Option String := c.cached.get? name.normal

/-- The result of a query is stored under this name now. -/
def registerCache (c : Catalog) (name : Label) (sql : String) : Catalog :=
  { c with cached := c.cached.insert name.normal sql }

/-- No result is stored under this name now. -/
def uncache (c : Catalog) (name : Label) : Catalog :=
  { c with cached := c.cached.erase name.normal }

/-- Nothing has this name now. -/
def drop (c : Catalog) (name : Label) : Catalog :=
  let key := name.normal
  ⟨c.tables.erase key, c.views.erase key, c.cached.erase key⟩

/-- The name is one of a table, a view or a stored result. -/
def knows (c : Catalog) (name : Label) : Bool :=
  c.hasTable name || (c.view? name).isSome || (c.cachedQuery? name).isSome

end Catalog

end ColumnTrace
