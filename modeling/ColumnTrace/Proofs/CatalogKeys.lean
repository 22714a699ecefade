import ColumnTrace.Catalog
import ColumnTrace.Proofs.BareNames
import ColumnTrace.Sql.Statement

/-!
# The key of a table

A name of several parts reaches the catalog in three ways. A schema puts the parts together as they
stand and takes the form in which names are compared of the whole; so does the text of a view
change. A table in a statement takes that form of each part first, and the catalog takes it once
more of the whole. `hasTable_ofNested_iff` tells for which parts all of them come to the same: no
blank or quotation mark stands where two parts meet, none is left at the ends of the whole, and no
capital sigma takes another form in the whole than in its part.
-/

set_option autoImplicit false

namespace ColumnTrace

open Text

/-! ## Parts of names -/

/-- A part of a name: in the form in which names are compared something is left of it, and no dot
stands in it. -/
structure IsNamePart (part : String) : Prop where
  ne_empty : normalize part ≠ ""
  no_dot : '.' ∉ (normalize part).toList

/-- A character that is no mark stays. -/
theorem mem_bare_of_not_mark {c : Char} {cs : List Char} (h : c ∈ cs)
    (hmark : isNameMark c = false) : c ∈ bare cs := by
  obtain ⟨xs, ys, rfl⟩ := List.append_of_mem h
  rw [bare, bareStart_append_cons hmark, bareEnd_append_cons hmark]
  exact List.mem_append_right _ List.mem_cons_self

/-- A normal name is bare and in lower case. -/
theorem toList_normalize (name : String) :
    (normalize name).toList = lowerAfter [] (bare name.toList) := by
  rw [normalize_eq, String.toList_ofList]

/-- The text of a name part is a part of a dotted text. -/
theorem IsNamePart.isPart {part : String} (h : IsNamePart part) : IsPart part.toList where
  bare_ne_nil hnil := h.ne_empty (by rw [normalize_eq, hnil]; rfl)
  no_dot hdot := h.no_dot (by
    rw [toList_normalize]
    exact mem_lowerAfter_of_isSmall (by decide) (mem_bare_of_not_mark hdot (by decide)) [])

theorem isPart_of_isNamePart {parts : List String} (h : ∀ part ∈ parts, IsNamePart part) :
    ∀ piece ∈ parts.map String.toList, IsPart piece :=
  List.forall_mem_map.2 fun part hpart => (h part hpart).isPart

/-- The name without the marks around it. -/
def bareName (name : String) : String := String.ofList (bare name.toList)

/-- It makes no difference whether the parts of a name are taken one by one or as a whole: where two
of them meet, there are no marks, and lower case does not look beyond a part. -/
structure PartsAgree (parts : List String) : Prop where
  meet : (parts.map String.toList).IsChain Meet
  lower : Text.lower (dotted (parts.map bareName)) = dotted (parts.map normalize)

section
variable {parts : List String}

theorem toList_dotted (parts : List String) :
    (dotted parts).toList = joinBy '.' (parts.map String.toList) :=
  String.toList_ofList

/-- The dotted text of normal parts has the characters of normal parts. -/
theorem toList_dotted_normalize (parts : List String) :
    (dotted (parts.map normalize)).toList = normalParts (parts.map String.toList) := by
  have hparts : (parts.map normalize).map String.toList =
      (parts.map String.toList).map fun p => lowerAfter [] (bare p) := by
    simp only [List.map_map, List.map_inj_left, Function.comp_apply, toList_normalize, implies_true]
  rw [toList_dotted, hparts, normalParts]

/-- Whether bare parts in lower case make the name of the normal parts is seen in their characters.
-/
theorem lower_dotted_bareName_iff : Text.lower (dotted (parts.map bareName)) =
      dotted (parts.map normalize) ↔
    lowerAfter [] (joinBy '.' ((parts.map String.toList).map bare)) =
      normalParts (parts.map String.toList) := by
  have hbare : (parts.map bareName).map String.toList = (parts.map String.toList).map bare := by
    simp [bareName, Function.comp_def]
  rw [← String.toList_inj, Text.lower, String.toList_ofList, toList_dotted, hbare,
    toList_dotted_normalize]

/-- The form in which names are compared of the whole is that of its parts. -/
theorem normalize_dotted_iff (h : ∀ part ∈ parts, IsNamePart part) :
    normalize (dotted parts) = dotted (parts.map normalize) ↔ PartsAgree parts := by
  rw [← String.toList_inj, toList_normalize, toList_dotted, toList_dotted_normalize,
    lower_bare_joinBy_iff (isPart_of_isNamePart h), ← lower_dotted_bareName_iff]
  exact ⟨fun h => ⟨h.1, h.2⟩, fun h => ⟨h.meet, h.lower⟩⟩

/-- The same with that form taken once more of the parts that are put together. -/
theorem normalize_dotted_again_iff (h : ∀ part ∈ parts, IsNamePart part) :
    normalize (dotted parts) = normalize (dotted (parts.map normalize)) ↔
      PartsAgree parts ∧ StartsBare (dotted (parts.map normalize)).toList ∧
        EndsBare (dotted (parts.map normalize)).toList := by
  rw [← String.toList_inj, toList_normalize, toList_normalize, toList_dotted,
    toList_dotted_normalize, lower_bare_joinBy_again_iff (isPart_of_isNamePart h),
    ← lower_dotted_bareName_iff]
  exact ⟨fun h => ⟨⟨h.1, h.2.2⟩, h.2.1⟩, fun h => ⟨h.1.meet, h.2, h.1.lower⟩⟩

/-- Two parts may be put together first. -/
theorem dotted_append (first second : String) (rest : List String) :
    dotted ((first ++ "." ++ second) :: rest) = dotted (first :: second :: rest) := by
  rw [← String.toList_inj, toList_dotted, toList_dotted]
  cases rest <;> simp [joinBy]

/-- Something is left of the whole. -/
theorem normalize_dotted_ne_empty (hne : parts ≠ []) (h : ∀ part ∈ parts, IsNamePart part) :
    normalize (dotted parts) ≠ "" := by
  have hbare : bare (joinBy '.' (parts.map String.toList)) ≠ [] := by
    obtain ⟨first, rest, rfl⟩ := List.exists_cons_of_ne_nil hne
    have hfirst := (h first List.mem_cons_self).isPart.bare_ne_nil
    have hjoin : joinBy '.' (((first :: rest).map String.toList).map bare) ≠ [] := by
      cases rest with
      | nil => exact hfirst
      | cons next rest => exact List.append_ne_nil_of_left_ne_nil hfirst _
    exact fun hnil => hjoin (List.sublist_nil.1 (hnil ▸ joinBy_bare_sublist _))
  intro hempty
  have hlength := congrArg (fun name => name.toList.length) hempty
  simp only [toList_normalize, toList_dotted, length_lowerAfter, String.toList_empty,
    List.length_nil] at hlength
  have hwidth := lowerWidth_of_sublist
    (List.nil_sublist (bare (joinBy '.' (parts.map String.toList))))
  rw [hlength] at hwidth
  exact hbare (List.length_eq_zero_iff.1 (by simpa [lowerWidth] using hwidth))

end

/-! ## Schemas of one table -/

namespace Schema

/-- The columns of a table where they stand in the schema: a list, or a filled mapping that leads to
plain values. -/
def columnNames? : Schema → Option (List Label)
  | .leaf _ => none
  | .list items => some (items.map label)
  | .mapping entries =>
    if isColumnMap entries then some (entries.map fun entry => entry.1.label) else none

/-- The schema in which the parts of a name lead to columns, one after the other. -/
def nested (parts : List String) (columns : Schema) : Schema :=
  parts.foldr (fun part inner => .mapping [(.text part, inner)]) columns

/-- The columns of one table are one entry under the path. -/
theorem flatten_levels_columns {columns : Schema} {names : List Label}
    (h : columns.columnNames? = some names) (path : String) :
    (columns.levels path).flatten = [(path, names)] := by
  cases columns with
  | leaf value => cases h
  | list items =>
    obtain rfl := Option.some.inj h
    rfl
  | mapping entries =>
    rw [columnNames?] at h
    split at h
    · next hcolumns =>
      obtain rfl := Option.some.inj h
      rw [levels, if_pos hcolumns]
      rfl
    · cases h

/-- A table below names is no column. -/
theorem isLeaf_nested {columns : Schema} {names : List Label}
    (h : columns.columnNames? = some names) (parts : List String) :
    (nested parts columns).isLeaf = false := by
  cases parts with
  | nil =>
    cases columns with
    | leaf value => cases h
    | _ => rfl
  | cons part rest => rfl

/-- A table below names is one entry, under the path that the names make. -/
theorem flatten_levels_nested {columns : Schema} {names : List Label}
    (h : columns.columnNames? = some names) (parts : List String) (path : String) :
    ((nested parts columns).levels path).flatten = [(dotted (path :: parts), names)] := by
  induction parts generalizing path with
  | nil =>
    have hpath : dotted [path] = path := String.ofList_toList
    rw [hpath]
    exact flatten_levels_columns h path
  | cons part rest ih =>
    have hmap : isColumnMap [(Scalar.text part, nested rest columns)] = false := by
      simp only [isColumnMap, List.all_cons, isLeaf_nested h, Bool.false_and, Bool.and_false]
    have hlevels : (nested (part :: rest) columns).levels path =
        [] :: (nested rest columns).levels (path ++ "." ++ part) := by
      rw [nested, List.foldr_cons, levels, ← nested, hmap, if_neg Bool.false_ne_true, entriesLevels,
        entriesLevels, overlay_nil_right]
      rfl
    rw [hlevels, List.flatten_cons, List.nil_append, ih, dotted_append]

/-- Such a schema has one table, under the form in which names are compared of the whole name. -/
theorem entries_tables_nested {columns : Schema} {names : List Label} {parts : List String}
    (h : columns.columnNames? = some names) (hne : parts ≠ [])
    (hname : normalize (dotted parts) ≠ "") :
    (nested parts columns).tables.entries =
      [(normalize (dotted parts), names.map Label.normal)] := by
  cases parts with
  | nil => exact absurd rfl hne
  | cons first rest =>
    have hflatten : (topLevels [(.text first, nested rest columns)]).flatten =
        [(dotted (first :: rest), names)] := by
      rw [topLevels, topLevels, overlay_nil_right]
      exact flatten_levels_nested h rest first
    have htables : (nested (first :: rest) columns).tables =
        .ofList (((topLevels [(.text first, nested rest columns)]).flatten.map fun table =>
          (normalize table.1, table.2.map Label.normal)).filter (·.1 != "")) := rfl
    rw [htables, hflatten, List.map_singleton, List.filter_cons_of_pos (by simpa using hname)]
    rfl

end Schema

/-! ## Tables and view changes in statements -/

namespace Sql

/-- The parts of a table's name as they are written, the widest first. -/
def Node.nameParts (table : Node) : List String :=
  [table.textOf "catalog", table.textOf "db"].filter (· != "") ++ [table.name.getD ""]

theorem Node.nameParts_ne_nil (table : Node) : table.nameParts ≠ [] := by
  simp [nameParts]

/-- A part that is given has its normal form in the table's name, and an empty one is left out. -/
theorem Node.toList_namePart {table : Node} {part : String}
    (h : table.textOf part ≠ "" → normalize (table.textOf part) ≠ "") :
    (table.namePart part).toList = ([table.textOf part].filter (· != "")).map normalize := by
  by_cases hempty : table.textOf part = ""
  · have hnormal : normalize "" = "" := by decide
    simp [namePart, hempty, hnormal]
  · simp [namePart, hempty, h hempty]

/-- The name of a table has the form in which names are compared part by part. -/
theorem Node.qualifiedName_eq {table : Node} (h : ∀ part ∈ table.nameParts, IsNamePart part) :
    table.qualifiedName = dotted (table.nameParts.map normalize) := by
  have hgiven : ∀ part ∈ ["catalog", "db"], table.textOf part ≠ "" →
      normalize (table.textOf part) ≠ "" := by
    intro part hpart hne
    refine (h _ (List.mem_append_left _ (List.mem_filter.2 ⟨?_, by simpa using hne⟩))).ne_empty
    exact List.mem_map_of_mem (f := table.textOf) hpart
  have hname : (table.normalName).getD "" = normalize (table.name.getD "") := by
    rw [normalName, Label.normal]
    cases table.name with
    | none => decide
    | some name => rfl
  have hall : (table.namePart "catalog").toList ++ (table.namePart "db").toList ++
      [(table.normalName).getD ""] = table.nameParts.map normalize := by
    rw [toList_namePart (hgiven _ (by simp)), toList_namePart (hgiven _ (by simp)), hname,
      ← List.map_append, ← List.filter_append, nameParts, List.map_append]
    rfl
  have hkept : (table.nameParts.map normalize).filter (· != "") =
      table.nameParts.map normalize := by
    refine List.filter_eq_self.2 (List.forall_mem_map.2 fun part hpart => ?_)
    simpa using (h part hpart).ne_empty
  rw [qualifiedName, TableName.qualifiedName, TableName.parts, tableName, hall, hkept]

/-- The statement is a view change that was left as text: `VIEW`, a name without blanks and
brackets, `AS` and a query. -/
structure Node.IsViewText (statement : Node) (name query : String) : Prop where
  command : statement.is "Command" = true
  alter : Text.upper (statement.arg "this").word = "ALTER"
  text : ∃ rest, statement.expression? = some rest ∧
    rest.name = some ("VIEW " ++ name ++ " AS " ++ query)
  name_ne : name ≠ ""
  name_chars : ∀ c ∈ name.toList, isBlank c = false ∧ c ≠ '('
  query_start : ∃ c rest, query.toList = c :: rest ∧ isBlank c = false

/-- One blank is skipped where none follows. -/
theorem skipBlanks?_blank {cs : List Char} (h : ∀ c ∈ cs.head?, isBlank c = false) :
    skipBlanks? (' ' :: cs) = some cs := by
  have hblank : isBlank ' ' = true := by decide
  have hkept : cs.dropWhile isBlank = cs := by
    cases cs with
    | nil => rfl
    | cons c rest => exact List.dropWhile_cons_of_neg (by simp [h c rfl])
  rw [skipBlanks?, if_pos hblank, hkept]

/-- One blank before the query is skipped. -/
theorem viewQuery?_blank {cs : List Char} (hne : cs ≠ [])
    (h : ∀ c ∈ cs.head?, isBlank c = false) : viewQuery? (' ' :: cs) = some cs := by
  simp [viewQuery?, skipBlanks?_blank h, hne]

section
variable {name : List Char} (hname : ∀ c ∈ name, isBlank c = false ∧ c ≠ '(')

include hname

/-- A name goes up to the first blank. -/
theorem takeWhile_name (rest : List Char) :
    (name ++ ' ' :: rest).takeWhile (fun c => !(isBlank c || c == '(')) = name := by
  have hall : ∀ c ∈ name, (!(isBlank c || c == '(')) = true := fun c hc => by simp [hname c hc]
  rw [List.takeWhile_append_of_pos hall, List.takeWhile_cons_of_neg (by decide), List.append_nil]

/-- The name ends at the first blank. -/
theorem dropWhile_name (rest : List Char) :
    (name ++ ' ' :: rest).dropWhile (fun c => !(isBlank c || c == '(')) = ' ' :: rest := by
  have hall : ∀ c ∈ name, (!(isBlank c || c == '(')) = true := fun c hc => by simp [hname c hc]
  rw [List.dropWhile_append_of_pos hall, List.dropWhile_cons_of_neg (by decide)]

end

/-- A view change that is left as text is read with the normal form of its name as a whole. -/
theorem viewChange?_eq {name query : String} (hne : name ≠ "")
    (hname : ∀ c ∈ name.toList, isBlank c = false ∧ c ≠ '(')
    (hquery : ∃ c rest, query.toList = c :: rest ∧ isBlank c = false) :
    viewChange? ("VIEW " ++ name ++ " AS " ++ query) = some (normalize name, query) := by
  have hchars : name.toList ≠ [] := mt String.toList_eq_nil_iff.1 hne
  have htext : ("VIEW " ++ name ++ " AS " ++ query).toList.dropWhile isBlank =
      'V' :: 'I' :: 'E' :: 'W' :: ' ' ::
        (name.toList ++ ' ' :: 'A' :: 'S' :: ' ' :: query.toList) := by
    simp only [String.toList_append, List.append_assoc]
    rfl
  have hview : ∀ cs, skipWord? ['v', 'i', 'e', 'w'] ('V' :: 'I' :: 'E' :: 'W' :: cs) = some cs :=
    fun _ => rfl
  have has : ∀ cs, skipWord? ['a', 's'] ('A' :: 'S' :: cs) = some cs := fun _ => rfl
  have hskipName : ∀ cs, skipBlanks? (' ' :: (name.toList ++ cs)) = some (name.toList ++ cs) := by
    refine fun cs => skipBlanks?_blank fun c hc => (hname c ?_).1
    rw [List.head?_append_of_ne_nil _ hchars] at hc
    exact List.mem_of_mem_head? hc
  have hskipAs : ∀ cs, skipBlanks? (' ' :: 'A' :: cs) = some ('A' :: cs) :=
    fun cs => skipBlanks?_blank fun c hc => by
      obtain rfl := Option.some.inj hc
      decide
  have hreadQuery : viewQuery? (' ' :: query.toList) = some query.toList := by
    obtain ⟨first, rest, hstart, hfirst⟩ := hquery
    rw [hstart]
    refine viewQuery?_blank (List.cons_ne_nil first rest) fun c hc => ?_
    obtain rfl := Option.some.inj hc
    exact hfirst
  simp only [viewChange?, htext, hview, hskipName, takeWhile_name hname, dropWhile_name hname,
    List.isEmpty_eq_false_iff.2 hchars, hskipAs, has, hreadQuery, Option.bind_eq_bind,
    Option.bind_some, String.ofList_toList, Bool.false_eq_true, if_false]
  rfl

/-- A statement with this text changes the view of this name. -/
theorem Node.IsViewText.alterView? {statement : Node} {name query : String}
    (h : statement.IsViewText name query) (engine : String) :
    statement.alterView? engine = .ok (some (normalize name, query)) := by
  obtain ⟨rest, hrest, htext⟩ := h.text
  have hcommand : (statement.is "Command" && Text.upper (statement.arg "this").word == "ALTER") =
      true := by
    rw [h.command, h.alter]
    rfl
  simp only [Node.alterView?, hcommand, if_true, hrest, htext,
    viewChange?_eq h.name_ne h.name_chars h.query_start]
  rfl

end Sql

/-! ## One key -/

namespace Catalog

variable {c : Catalog} {key : String} {columns : List Label}

/-- A catalog of one table has columns under the table's name only. -/
theorem get?_of_singleton (h : c.tables.entries = [(some key, columns)]) (name : String) :
    c.tables.get? (Label.normal (some name)) =
      if normalize name = key then some columns else none := by
  have hlookup := lookup_assign (some key) (some (normalize name)) columns []
  simp only [Option.some_inj] at hlookup
  rw [OrderedMap.get?, h]
  exact hlookup

/-- A catalog of one table has the table under its name only. -/
theorem hasTable_of_singleton (h : c.tables.entries = [(some key, columns)]) (name : String) :
    c.hasTable (some name) = decide (normalize name = key) := by
  rw [hasTable, OrderedMap.contains, get?_of_singleton h]
  split <;> simp [*]

/-- A catalog of one table gives the columns to its name only. -/
theorem columns_of_singleton (h : c.tables.entries = [(some key, columns)]) (name : String) :
    c.columns (some name) = if c.hasTable (some name) then columns else [] := by
  rw [hasTable_of_singleton h, Catalog.columns, get?_of_singleton h]
  by_cases hkey : normalize name = key <;> simp [hkey]

end Catalog

/-- The catalog of a schema in which a table's name, part by part, leads to columns. -/
def Catalog.ofNested (table : Sql.Node) (columns : Schema) : Catalog :=
  .ofSchema (.nested table.nameParts columns)

/-- A schema has a table under its whole name. The table of that name in a statement is found there
if and only if it makes no difference whether its parts are taken one by one, and no mark is left at
the ends of what they come to; where it is not found, it has no columns. A view change that is left
as text has the name of the table if and only if the first of these holds. -/
theorem hasTable_ofNested_iff {table : Sql.Node} {columns : Schema} {names : List Label}
    (hparts : ∀ part ∈ table.nameParts, IsNamePart part)
    (hcolumns : columns.columnNames? = some names) :
    (Catalog.ofNested table columns).tables.entries =
        [(some (normalize (dotted table.nameParts)), names.map Label.normal)] ∧
      ((Catalog.ofNested table columns).hasTable (some table.qualifiedName) = true ↔
        PartsAgree table.nameParts ∧ StartsBare table.qualifiedName.toList ∧
          EndsBare table.qualifiedName.toList) ∧
      (Catalog.ofNested table columns).columns (some table.qualifiedName) =
        (if (Catalog.ofNested table columns).hasTable (some table.qualifiedName) then
          names.map Label.normal else []) ∧
      ∀ (engine : String) (statement : Sql.Node) (query : String),
        statement.IsViewText (dotted table.nameParts) query →
        ∃ view, statement.alterView? engine = .ok (some (view, query)) ∧
          (view = table.qualifiedName ↔ PartsAgree table.nameParts) := by
  have hkey := normalize_dotted_ne_empty table.nameParts_ne_nil hparts
  have hname := Sql.Node.qualifiedName_eq hparts
  have hentries : (Catalog.ofNested table columns).tables.entries =
      [(some (normalize (dotted table.nameParts)), names.map Label.normal)] := by
    rw [Catalog.ofNested, Catalog.ofSchema,
      Schema.entries_tables_nested hcolumns table.nameParts_ne_nil hkey]
    rfl
  have hkeys : normalize table.qualifiedName = normalize (dotted table.nameParts) ↔
      PartsAgree table.nameParts ∧ StartsBare table.qualifiedName.toList ∧
        EndsBare table.qualifiedName.toList := by
    rw [eq_comm, hname]
    exact normalize_dotted_again_iff hparts
  refine ⟨hentries, ?_, Catalog.columns_of_singleton hentries _, ?_⟩
  · rw [Catalog.hasTable_of_singleton hentries, decide_eq_true_iff, hkeys]
  · intro engine statement query hview
    refine ⟨_, hview.alterView? engine, ?_⟩
    rw [hname]
    exact normalize_dotted_iff hparts

namespace Sql

/-- A name as it is written. -/
def Value.ofIdentifier (text : String) : Value :=
  .node (.mk "Identifier" [("this", .scalar (.text text))] ⟨false, false, some text, none, none⟩)

/-- A table of a database. -/
def Node.ofDatabase (database name : String) : Node :=
  .mk "Table" [("this", .ofIdentifier name), ("db", .ofIdentifier database)]
    ⟨false, false, some name, none, none⟩

/-- What follows `ALTER` in the change of a view to `SELECT 1`. -/
def viewText (name : String) : String := "VIEW " ++ name ++ " AS " ++ "SELECT 1"

/-- That change where it is left as text. -/
def Node.ofViewText (name : String) : Node :=
  .mk "Command" [("this", .scalar (.text "ALTER")), ("expression", .node (.mk "Literal"
    [("this", .scalar (.text (viewText name)))] ⟨false, false, some (viewText name), none, none⟩))]
    default

/-- The text with a name that has no blank is read back. -/
theorem Node.isViewText_ofViewText {name : String} (hne : name ≠ "")
    (hname : ∀ c ∈ name.toList, isBlank c = false ∧ c ≠ '(') :
    (ofViewText name).IsViewText name "SELECT 1" where
  command := rfl
  alter := (by decide +kernel : Text.upper "ALTER" = "ALTER")
  text := ⟨_, rfl, rfl⟩
  name_ne := hne
  name_chars := hname
  query_start := ⟨'S', _, rfl, rfl⟩

end Sql

/-- Backticks around the whole name make no difference. -/
theorem hasTable_quotedWhole :
    (Catalog.ofNested (.ofDatabase "\x60Db" "T\x60") (.list [.leaf (.text "a")])).hasTable
        (some "db.t") = true ∧
      (Sql.Node.ofViewText "\x60Db.T\x60").alterView? "spark" =
        .ok (some ("db.t", "SELECT 1")) := by
  have hnames : (Sql.Node.ofDatabase "\x60Db" "T\x60").nameParts = ["\x60Db", "T\x60"] := by
    decide +kernel
  have hname : (Sql.Node.ofDatabase "\x60Db" "T\x60").qualifiedName = "db.t" := by
    decide +kernel
  have hparts : ∀ part ∈ (Sql.Node.ofDatabase "\x60Db" "T\x60").nameParts, IsNamePart part := by
    rw [hnames]
    simp only [List.forall_mem_cons]
    exact ⟨⟨by decide +kernel, by decide +kernel⟩, ⟨by decide +kernel, by decide +kernel⟩, by simp⟩
  have hagree : PartsAgree (Sql.Node.ofDatabase "\x60Db" "T\x60").nameParts :=
    ⟨by decide +kernel, by decide +kernel⟩
  have htext : (Sql.Node.ofViewText "\x60Db.T\x60").IsViewText
      (dotted (Sql.Node.ofDatabase "\x60Db" "T\x60").nameParts) "SELECT 1" := by
    have hdotted : dotted ["\x60Db", "T\x60"] = "\x60Db.T\x60" := by decide +kernel
    have hchars : ("\x60Db.T\x60".toList.all fun c => !isBlank c && c != '(') = true := by
      decide +kernel
    rw [hnames, hdotted]
    exact Sql.Node.isViewText_ofViewText (by decide) fun c hc => by
      simpa using List.all_eq_true.1 hchars c hc
  obtain ⟨-, hhas, -, hview⟩ := hasTable_ofNested_iff hparts
    (rfl : (Schema.list [.leaf (.text "a")]).columnNames? = some [some "a"])
  obtain ⟨view, halter, hsame⟩ := hview "spark" _ "SELECT 1" htext
  rw [hname] at hhas hsame
  rw [halter, hsame.2 hagree]
  exact ⟨hhas.2 ⟨hagree, by decide +kernel, by decide +kernel⟩, rfl⟩

/-- Double quotes around each part of a name do: the key under which the schema has the table keeps
those in the middle. -/
theorem not_hasTable_quotedParts :
    (∀ part ∈ (Sql.Node.ofDatabase "\"db\"" "\"t\"").nameParts,
      normalize part ≠ "" ∧ '.' ∉ (normalize part).toList) ∧
    (Catalog.ofNested (.ofDatabase "\"db\"" "\"t\"") (.list [.leaf (.text "a")])).tables.entries =
      [(some "db\".\"t", [some "a"])] ∧
    (Sql.Node.ofDatabase "\"db\"" "\"t\"").qualifiedName = "db.t" ∧
    (Catalog.ofNested (.ofDatabase "\"db\"" "\"t\"") (.list [.leaf (.text "a")])).hasTable
      (some "db.t") = false ∧
    (Sql.Node.ofViewText "\"db\".\"t\"").alterView? "spark" =
      .ok (some ("db\".\"t", "SELECT 1")) := by
  exact ⟨by decide +kernel, by decide +kernel, by decide +kernel, by decide +kernel, by rfl⟩

end ColumnTrace
