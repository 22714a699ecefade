import Mathlib.Data.List.Basic
import ColumnTrace.Identifier
import ColumnTrace.Proofs.Namespaces

/-!
# Table names and their texts

A table's name is written with dots between its parts and read at the dots again. Writing leaves out
what is not given, and reading goes by the number of segments: the last one is the table, the first
one of three or more the catalog, and all between belong to the database. Both agree on the segments
of a name (`TableName.path`): reading a text gives a name with the segments of the text
(`TableName.path_parse`), and the text of a well-formed name has the segments of the name
(`TableName.segments_qualifiedName`). So the texts without empty segments and the well-formed names
correspond one to one: `TableName.parse_inverse_qualifiedName`.
-/

set_option autoImplicit false

namespace ColumnTrace

namespace Text

/-- No segment of the text is empty. -/
def HasFullSegments (s : String) : Prop := ∀ segment ∈ segments s, segment ≠ ""

instance (s : String) : Decidable (HasFullSegments s) :=
  inferInstanceAs (Decidable (∀ segment ∈ segments s, segment ≠ ""))

/-- A text without empty segments is not empty. -/
theorem ne_empty_of_hasFullSegments {s : String} (h : HasFullSegments s) : s ≠ "" := by
  rintro rfl
  exact h "" (List.mem_singleton_self "") rfl

/-- The segments of texts with dots between them are those of the texts. -/
theorem segments_dotted_eq_flatMap {parts : List String} (hne : parts ≠ []) :
    segments (dotted parts) = parts.flatMap segments := by
  induction parts with
  | nil => exact absurd rfl hne
  | cons part rest ih =>
    by_cases hrest : rest = []
    · rw [hrest, dotted_singleton, List.flatMap_singleton]
    · rw [← List.singleton_append, dotted_append (List.cons_ne_nil part []) hrest,
        dotted_singleton, segments_under, ih hrest, List.flatMap_append, List.flatMap_singleton]

end Text

namespace TableName

/-- A name that a text can tell: it has a table and no dots but those in the database, no part and
no segment of the database is empty, only a database has a catalog above it, and only under a
catalog has it several segments. -/
structure IsWellFormed (t : TableName) : Prop where
  name_ne : t.name ≠ ""
  name_dots : '.' ∉ t.name.toList
  database_full : ∀ database ∈ t.database, Text.HasFullSegments database
  database_dots : ∀ database ∈ t.database, '.' ∈ database.toList → t.catalog.isSome = true
  catalog_ne : ∀ catalog ∈ t.catalog, catalog ≠ ""
  catalog_dots : ∀ catalog ∈ t.catalog, '.' ∉ catalog.toList
  database_of_catalog : t.catalog.isSome = true → t.database.isSome = true

/-- The segments of a name, the widest first: a database may have several. -/
def path (t : TableName) : List String :=
  t.catalog.toList ++ (t.database.toList.flatMap Text.segments ++ [t.name])

/-! ## Reading -/

/-- Three segments or more are a catalog, a database and a name. -/
theorem parse_of_segments {s catalog name : String} {middle : List String} (hmiddle : middle ≠ [])
    (h : Text.segments s = catalog :: (middle ++ [name])) :
    parse s = ⟨name, some (Text.dotted middle), some catalog⟩ := by
  have hread : parse s = ⟨(middle ++ [name]).getLastD "",
      some (Text.dotted (middle ++ [name]).dropLast), some catalog⟩ := by
    obtain ⟨first, rest, rfl⟩ := List.exists_cons_of_ne_nil hmiddle
    unfold parse
    rw [h]
    cases rest <;> rfl
  rw [hread, List.getLastD_concat, List.dropLast_concat]

/-- A text has one segment, two, or more, and is read accordingly. -/
theorem parse_cases (s : String) :
    (∃ name, Text.segments s = [name] ∧ parse s = ⟨name, none, none⟩) ∨
    (∃ database name, Text.segments s = [database, name] ∧
      parse s = ⟨name, some database, none⟩) ∨
    ∃ catalog middle name, middle ≠ [] ∧ Text.segments s = catalog :: (middle ++ [name]) ∧
      parse s = ⟨name, some (Text.dotted middle), some catalog⟩ := by
  obtain ⟨first, rest, hs⟩ := List.exists_cons_of_ne_nil (Text.segments_ne_nil s)
  rcases List.eq_nil_or_concat' rest with rfl | ⟨middle, name, rfl⟩
  · exact Or.inl ⟨first, hs, by unfold parse; rw [hs]⟩
  · by_cases hmiddle : middle = []
    · subst hmiddle
      exact Or.inr (Or.inl ⟨first, name, hs, by unfold parse; rw [hs]; rfl⟩)
    · exact Or.inr (Or.inr ⟨first, middle, name, hmiddle, hs, parse_of_segments hmiddle hs⟩)

/-- What is read from a text has the segments of the text. -/
theorem path_parse (s : String) : (parse s).path = Text.segments s := by
  have hdots : ∀ segment ∈ Text.segments s, '.' ∉ segment.toList := fun _ =>
    Text.not_mem_of_mem_segments
  unfold path
  rcases parse_cases s with ⟨name, hs, hparse⟩ | ⟨database, name, hs, hparse⟩ |
    ⟨catalog, middle, name, hmiddle, hs, hparse⟩
  · rw [hs, hparse]
    rfl
  · have hdatabase := Text.segments_of_not_mem (hdots database (by simp [hs]))
    simp [hs, hparse, hdatabase]
  · have hinner := Text.segments_dotted hmiddle fun part hpart => hdots part (by simp [hs, hpart])
    simp [hs, hparse, hinner]

/-- What is read off a text without empty segments is well-formed. -/
theorem isWellFormed_parse {s : String} (hs : Text.HasFullSegments s) :
    (parse s).IsWellFormed := by
  have hdots : ∀ segment ∈ Text.segments s, '.' ∉ segment.toList := fun _ =>
    Text.not_mem_of_mem_segments
  unfold Text.HasFullSegments at hs
  rcases parse_cases s with ⟨name, hs', hparse⟩ | ⟨database, name, hs', hparse⟩ |
    ⟨catalog, middle, name, hmiddle, hs', hparse⟩
  all_goals
    rw [hs'] at hs hdots
    simp only [List.mem_cons, List.mem_append, List.not_mem_nil, or_false, forall_eq_or_imp,
      forall_eq] at hs hdots
    rw [hparse]
  · constructor <;> simp [hs, hdots]
  · have hfull : Text.HasFullSegments database := by
      simp [Text.HasFullSegments, Text.segments_of_not_mem hdots.1, hs]
    constructor <;> simp [hs, hdots, hfull]
  · have hfull : Text.HasFullSegments (Text.dotted middle) := by
      unfold Text.HasFullSegments
      rw [Text.segments_dotted hmiddle fun part hpart => hdots.2 part (Or.inl hpart)]
      exact fun part hpart => hs.2 part (Or.inl hpart)
    constructor <;> simp [hs, hdots, hfull]

/-! ## Writing -/

namespace IsWellFormed

variable {t : TableName}

/-- A well-formed name is written with all the parts that it has. -/
theorem parts_eq (h : t.IsWellFormed) :
    t.parts = t.catalog.toList ++ t.database.toList ++ [t.name] := by
  unfold parts
  rw [List.filter_eq_self]
  intro part hpart
  rw [bne_iff_ne]
  simp only [List.mem_append, Option.mem_toList, List.mem_singleton] at hpart
  rcases hpart with (hcatalog | hdatabase) | rfl
  · exact h.catalog_ne part hcatalog
  · exact Text.ne_empty_of_hasFullSegments (h.database_full part hdatabase)
  · exact h.name_ne

/-- Without a catalog above it a database has one segment. -/
theorem segments_of_no_catalog (h : t.IsWellFormed) (hcatalog : t.catalog = none)
    {database : String} (hdatabase : t.database = some database) :
    Text.segments database = [database] := by
  apply Text.segments_of_not_mem
  intro hdots
  have hgiven := h.database_dots database hdatabase hdots
  rw [hcatalog] at hgiven
  cases hgiven

end IsWellFormed

/-- The text of a well-formed name has the segments of the name. -/
theorem segments_qualifiedName {t : TableName} (h : t.IsWellFormed) :
    Text.segments t.qualifiedName = t.path := by
  have hcatalog : t.catalog.toList.flatMap Text.segments = t.catalog.toList := by
    cases hcase : t.catalog with
    | none => rfl
    | some catalog => simp [Text.segments_of_not_mem (h.catalog_dots catalog hcase)]
  have hname : Text.segments t.name = [t.name] := Text.segments_of_not_mem h.name_dots
  unfold qualifiedName path
  rw [h.parts_eq, Text.segments_dotted_eq_flatMap (by simp)]
  simp only [List.flatMap_append, List.flatMap_singleton, hcatalog, hname, List.append_assoc]

/-- A well-formed name is read back from its text. -/
theorem parse_qualifiedName {t : TableName} (h : t.IsWellFormed) : parse t.qualifiedName = t := by
  have hpath := segments_qualifiedName h
  rcases t with ⟨name, database, catalog⟩
  cases catalog with
  | none =>
    cases database with
    | none =>
      have hsegments : Text.segments (qualifiedName ⟨name, none, none⟩) = [name] := hpath
      simp [parse, hsegments]
    | some database =>
      have hsegments : Text.segments (qualifiedName ⟨name, some database, none⟩) =
          [database, name] := by
        rw [hpath]
        simp [path, h.segments_of_no_catalog rfl rfl]
      simp [parse, hsegments]
  | some catalog =>
    obtain ⟨inner, rfl⟩ := Option.isSome_iff_exists.1 (h.database_of_catalog rfl)
    have hsegments : Text.segments (qualifiedName ⟨name, some inner, some catalog⟩) =
        catalog :: (Text.segments inner ++ [name]) := by
      rw [hpath]
      simp [path]
    rw [parse_of_segments (Text.segments_ne_nil inner) hsegments, Text.dotted_segments]

/-- The text of a well-formed name has no empty segments. -/
theorem hasFullSegments_qualifiedName {t : TableName} (h : t.IsWellFormed) :
    Text.HasFullSegments t.qualifiedName := by
  intro segment hsegment
  rw [segments_qualifiedName h] at hsegment
  simp only [path, List.mem_append, Option.mem_toList, List.mem_flatMap,
    List.mem_singleton] at hsegment
  rcases hsegment with hcatalog | ⟨database, hdatabase, hinner⟩ | rfl
  · exact h.catalog_ne segment hcatalog
  · exact h.database_full database hdatabase segment hinner
  · exact h.name_ne

/-- A text without empty segments is written again as it was read. -/
theorem qualifiedName_parse {s : String} (h : Text.HasFullSegments s) :
    (parse s).qualifiedName = s := by
  have hsegments : Text.segments (parse s).qualifiedName = Text.segments s := by
    rw [segments_qualifiedName (isWellFormed_parse h), path_parse]
  calc (parse s).qualifiedName
      = Text.dotted (Text.segments (parse s).qualifiedName) := (Text.dotted_segments _).symm
    _ = Text.dotted (Text.segments s) := by rw [hsegments]
    _ = s := Text.dotted_segments s

/-- Reading and writing are inverse to each other between the texts without empty segments and the
well-formed names, and each leads from the one to the other. -/
theorem parse_inverse_qualifiedName :
    (∀ s : String, Text.HasFullSegments s → (parse s).qualifiedName = s ∧ (parse s).IsWellFormed) ∧
    ∀ t : TableName, t.IsWellFormed →
      parse t.qualifiedName = t ∧ Text.HasFullSegments t.qualifiedName := by
  constructor
  · intro s hs
    exact ⟨qualifiedName_parse hs, isWellFormed_parse hs⟩
  · intro t ht
    exact ⟨parse_qualifiedName ht, hasFullSegments_qualifiedName ht⟩

/-- A table in a database of two segments. -/
def ofNestedDatabase : TableName := ⟨"orders", some "sales.eu", some "lake"⟩

/-- A database of two segments is well-formed under a catalog. -/
theorem isWellFormed_ofNestedDatabase : ofNestedDatabase.IsWellFormed := by
  constructor <;> unfold ofNestedDatabase <;> decide

/-- Reading and writing undo each other on `lake.sales.eu.orders`. -/
theorem parse_inverse_ofNestedDatabase :
    (Text.HasFullSegments "lake.sales.eu.orders" ∧ ofNestedDatabase.IsWellFormed) ∧
    ((parse "lake.sales.eu.orders").qualifiedName = "lake.sales.eu.orders" ∧
      (parse "lake.sales.eu.orders").IsWellFormed) ∧
    parse ofNestedDatabase.qualifiedName = ofNestedDatabase ∧
      Text.HasFullSegments ofNestedDatabase.qualifiedName :=
  have hs : Text.HasFullSegments "lake.sales.eu.orders" := by decide
  ⟨⟨hs, isWellFormed_ofNestedDatabase⟩, parse_inverse_qualifiedName.1 _ hs,
    parse_inverse_qualifiedName.2 _ isWellFormed_ofNestedDatabase⟩

end TableName

end ColumnTrace
