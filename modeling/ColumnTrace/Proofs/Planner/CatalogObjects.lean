import ColumnTrace.Planner.Relation
import ColumnTrace.Proofs.MapEntries
import ColumnTrace.Proofs.Planner.Ensures

/-!
# Names of a catalog and what they stand for

A catalog keeps tables, views and stored results apart, and a name is looked up among the stored
results first, then among the views, then among the tables (`Catalog.found`). An object that is put
into a catalog is found, unless something else of its name is looked up before it
(`Catalog.found_put`); either way its name is known (`Catalog.knows_put`). A table name that is out
of the reach of a named query is read as what it stands for (`Planner.resolveTable_eq_read`), and
the plan shows it (`CatalogObject.shows_of_read`).
-/

set_option autoImplicit false

namespace ColumnTrace

/-- What a name of a catalog stands for: a table with its columns, a view, or the stored result of a
query. -/
inductive CatalogObject where
  | table (columns : List Label)
  | view (definition : ViewDefinition)
  | cache (sql : String)
deriving DecidableEq

/-- The text of a view or a stored result. -/
def CatalogObject.sql? : CatalogObject → Option String
  | .table _ => none
  | .view definition => some definition.sql
  | .cache sql => some sql

/-! ## Objects of a catalog -/

namespace Catalog

variable {c : Catalog} {name other : Label} {object : CatalogObject}

/-- What the name stands for where it is read; an unknown name stands for a table without columns.
-/
def found (c : Catalog) (name : Label) : CatalogObject :=
  match c.cachedQuery? name, c.view? name with
  | some sql, _ => .cache sql
  | none, some definition => .view definition
  | none, none => .table (c.columns name)

/-- The catalog with the object under the name, in the map of its sort. -/
def put (c : Catalog) (name : Label) : CatalogObject → Catalog
  | .table columns => { c with tables := c.tables.insert name.normal columns }
  | .view definition => { c with views := c.views.insert name.normal definition }
  | .cache sql => { c with cached := c.cached.insert name.normal sql }

/-- The catalog has something under the name that is looked up before the object. -/
def hides (c : Catalog) (name : Label) : CatalogObject → Bool
  | .table _ => (c.cachedQuery? name).isSome || (c.view? name).isSome
  | .view _ => (c.cachedQuery? name).isSome
  | .cache _ => false

/-- Registering a table puts it into the catalog. -/
theorem registerTable_eq_put (columns : List Label) :
    c.registerTable name columns = c.put name (.table (columns.map Label.normal)) := rfl

/-- Registering a view puts it into the catalog. -/
theorem registerView_eq_put (sql : String) (columns : List Label) (temporary : Bool) :
    c.registerView name sql columns temporary =
      c.put name (.view ⟨sql, columns.map Label.normal, temporary⟩) := rfl

/-- Registering a stored result puts it into the catalog. -/
theorem registerCache_eq_put (sql : String) : c.registerCache name sql = c.put name (.cache sql) :=
  rfl

/-- A name has a text where it is the name of a stored result or a view. -/
theorem isSome_sql?_found : (c.found name).sql?.isSome = true ↔
    (c.cachedQuery? name).isSome = true ∨ (c.view? name).isSome = true := by
  rw [found]
  cases c.cachedQuery? name with
  | some sql => simp [CatalogObject.sql?]
  | none => cases c.view? name <;> simp [CatalogObject.sql?]

/-- Names that are compared as one stand for one object. -/
theorem found_congr (h : other.normal = name.normal) : c.found other = c.found name := by
  simp only [found, cachedQuery?, view?, columns, h]

/-- A name under which an object is put is known, under whatever spelling. -/
theorem knows_put (h : other.normal = name.normal) : (c.put name object).knows other = true := by
  have hget {ν : Type} (m : OrderedMap Label ν) (value : ν) :
      (m.insert name.normal value).get? other.normal = some value := by
    rw [OrderedMap.get?_insert, if_pos h]
  cases object <;>
    simp [knows, put, hasTable, view?, cachedQuery?, OrderedMap.contains, hget]

/-- An object that is put into a catalog is found, unless the name stands for something that is
looked up before it; then that is found as before. -/
theorem found_put : (c.put name object).found name =
    if c.hides name object = true then c.found name else object := by
  cases object with
  | cache sql =>
    have hfound : (c.put name (.cache sql)).cachedQuery? name = some sql := by
      rw [cachedQuery?, put, OrderedMap.get?_insert, if_pos rfl]
    rw [Catalog.found, hfound, hides, if_neg Bool.false_ne_true]
  | view definition =>
    have hcached : (c.put name (.view definition)).cachedQuery? name = c.cachedQuery? name := rfl
    have hfound : (c.put name (.view definition)).view? name = some definition := by
      rw [view?, put, OrderedMap.get?_insert, if_pos rfl]
    rw [Catalog.found, hcached, hfound, hides]
    cases hold : c.cachedQuery? name with
    | none => rfl
    | some sql => rw [Catalog.found, hold]; rfl
  | table columns =>
    have hcached : (c.put name (.table columns)).cachedQuery? name = c.cachedQuery? name := rfl
    have hview : (c.put name (.table columns)).view? name = c.view? name := rfl
    have hfound : (c.put name (.table columns)).columns name = columns := by
      rw [Catalog.columns, put, OrderedMap.get?_insert, if_pos rfl]
      rfl
    rw [Catalog.found, hcached, hview, hfound, hides]
    cases hold : c.cachedQuery? name with
    | some sql => rw [Catalog.found, hold]; rfl
    | none =>
      cases hview : c.view? name with
      | some definition => rw [Catalog.found, hold, hview]; rfl
      | none => rfl

/-- What hides an object is of another sort. -/
theorem found_ne_of_hides (h : c.hides name object = true) : c.found name ≠ object := by
  intro heq
  rw [← heq, Catalog.found] at h
  split at h
  · cases h
  · next hcached _ =>
    rw [hides, hcached] at h
    cases h
  · next hcached hview =>
    rw [hides, hcached, hview] at h
    cases h

/-- An object that is put into a catalog is found if and only if nothing hides it. -/
theorem found_put_eq_iff : (c.put name object).found name = object ↔
    c.hides name object = false := by
  rw [found_put]
  cases hhides : c.hides name object with
  | false => simp
  | true => simpa using found_ne_of_hides hhides

end Catalog

/-! ## Reading an object -/

namespace CatalogObject

variable {stored : String → Planner Plan} {table : TableName} {context : Context}
variable {numbers : Numbers} {plan : Plan}

/-- The plan of a read that finds the object. -/
def read (stored : String → Planner Plan) (table : TableName) : CatalogObject → Planner Plan
  | .table columns => do return .relation (← Planner.freshColumns columns) (some table)
  | .view definition => Planner.view stored table definition
  | .cache sql => Planner.cached stored table.qualifiedName sql

/-- The plan shows the object: a relation with the columns of the table, a view over the plan of the
view's query, or a stored result linked to the plan of its query. The name counts as being expanded
while the query is planned. -/
inductive Shows (stored : String → Planner Plan) (table : TableName) (context : Context)
    (numbers : Numbers) : CatalogObject → Plan → Prop
  | relation {columns : List Label} {output : List Attribute}
      (hnames : output.map Attribute.name = columns) :
      Shows stored table context numbers (.table columns) (.relation output (some table))
  | view {definition : ViewDefinition} {output : List Attribute} {body : Plan}
      (hbody : (stored definition.sql
        { context with expanding := table.qualifiedName :: context.expanding } numbers).result =
          .ok body)
      (hnames : output.map Attribute.name =
        if definition.columns.isEmpty then body.output.map Attribute.name
        else definition.columns) :
      Shows stored table context numbers (.view definition)
        (.view table output body definition.temporary)
  | cache {sql : String} {output : List Attribute} {query : Plan}
      (hquery : (stored sql
        { context with expanding := table.qualifiedName :: context.expanding } numbers).result =
          .ok query)
      (hnames : output.map Attribute.name = query.output.map Attribute.name) :
      Shows stored table context numbers (.cache sql)
        (.cached output (Planner.storedScan query) (some table.qualifiedName))

/-- A query that is expanded was planned with its name among those that are being expanded. -/
theorem result_of_expandStored {recursive : String → PlanningError} {name sql : String}
    (h : (Planner.expandStored stored recursive name sql context numbers).result = .ok plan) :
    (stored sql { context with expanding := name :: context.expanding } numbers).result =
      .ok plan := by
  obtain ⟨found, hfound, h⟩ := Planner.result_bind_eq_ok.1 h
  obtain rfl := Except.ok.inj hfound
  dsimp only at h
  split at h
  · obtain ⟨_, hfail, -⟩ := Planner.result_bind_eq_ok.1 h
    cases hfail
  · exact h

/-- What a read of an object gives shows the object. -/
theorem shows_of_read {object : CatalogObject}
    (h : (object.read stored table context numbers).result = .ok plan) :
    object.Shows stored table context numbers plan := by
  cases object with
  | table columns =>
    obtain ⟨output, houtput, h⟩ := Planner.result_bind_eq_ok.1 h
    obtain rfl := Except.ok.inj h
    exact .relation (Planner.names_of_freshColumns houtput)
  | view definition =>
    obtain ⟨body, hbody, h⟩ := Planner.result_bind_eq_ok.1 h
    dsimp only at h
    generalize hnames : (if definition.columns.isEmpty = true then body.output.map Attribute.name
      else definition.columns) = names at h
    split at h
    · obtain ⟨_, hfail, -⟩ := Planner.result_bind_eq_ok.1 h
      cases hfail
    · obtain ⟨output, houtput, h⟩ := Planner.result_bind_eq_ok.1 h
      obtain rfl := Except.ok.inj h
      refine .view (result_of_expandStored hbody) ?_
      rw [hnames]
      exact Planner.names_of_freshColumns houtput
  | cache sql =>
    obtain ⟨query, hquery, h⟩ := Planner.result_bind_eq_ok.1 h
    obtain ⟨output, houtput, h⟩ := Planner.result_bind_eq_ok.1 h
    obtain rfl := Except.ok.inj h
    exact .cache (result_of_expandStored hquery) (Planner.names_of_freshColumns houtput)

end CatalogObject

/-- Out of the reach of a named query of its name a table name is read as what it stands for in the
catalog. -/
theorem Planner.resolveTable_eq_read {stored : String → Planner Plan} {table : TableName}
    {context : Context} (numbers : Numbers)
    (hctes : table.database.isSome = true ∨ context.ctes.lookup table.qualifiedName = none) :
    resolveTable stored table context numbers =
      (context.catalog.found table.qualifiedName).read stored table context numbers := by
  have hlookup : ∀ rest : Option CteDefinition → Planner Plan,
      (if table.database.isSome then pure none >>= rest
        else findCte? table.qualifiedName >>= rest) context = rest none context := by
    intro rest
    by_cases hdatabase : table.database.isSome = true
    · rw [if_pos hdatabase, pure_bind]
    · rw [if_neg hdatabase, findCte?_bind_apply, hctes.resolve_left hdatabase]
  refine congrFun ((hlookup _).trans ((catalog_bind_apply _ context).trans ?_)) numbers
  rw [Catalog.found]
  cases context.catalog.cachedQuery? table.qualifiedName with
  | some sql => rfl
  | none =>
    cases context.catalog.view? table.qualifiedName with
    | some definition => rfl
    | none => rfl

end ColumnTrace
