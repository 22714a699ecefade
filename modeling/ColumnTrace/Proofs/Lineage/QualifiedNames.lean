import ColumnTrace.Proofs.Lineage.EverySource
import ColumnTrace.Proofs.Lineage.UnknownColumns
import ColumnTrace.Proofs.Namespaces

/-!
# Names that carry a qualifier

A dependency that a table knows by its name only is kept if the name lies under the table's
qualifier (`Text.LiesUnder`): its segments without the last end with those of the qualifier. What is
compared are the texts, though, and a text ends with another also where the first segment of that
one is only the end of a segment of its own (`Text.EndsWithin`), as `mydb.t` ends with `db.t`. These
two cases exclude each other, and there is no third (`Text.suffix_namespaceOf_iff`). So the table
keeps names under its qualifier and cuts them to their last segment, but it keeps the names of
tables in databases with a longer name as well, as its own (`LineageMap.ofRelation_keptIff`).
-/

set_option autoImplicit false

namespace ColumnTrace

namespace Text

variable {separator : Char}

/-! ## Texts that end with a text -/

/-- Of a text at the end of another one all pieces are pieces there too, but for the first, which
may be the end of one. -/
theorem exists_cutAt_append {cs first : List Char} {rest : List (List Char)}
    (h : cutAt separator cs = first :: rest) (front : List Char) :
    ∃ outer piece, cutAt separator (front ++ cs) = outer ++ (piece ++ first) :: rest := by
  induction front with
  | nil => exact ⟨[], [], h⟩
  | cons c front ih =>
    obtain ⟨outer, piece, hcut⟩ := ih
    rw [List.cons_append, cutAt, hcut]
    split
    · exact ⟨[] :: outer, piece, rfl⟩
    · cases outer with
      | nil => exact ⟨[], c :: piece, rfl⟩
      | cons next outer => exact ⟨(c :: next) :: outer, piece, rfl⟩

/-- What is put before a path goes into its first segment and before it. -/
theorem exists_segments_append {path first : String} {rest : List String}
    (h : segments path = first :: rest) (front : String) :
    ∃ outer piece, segments (front ++ path) = outer ++ (piece ++ first) :: rest := by
  obtain ⟨head, tail, hcut, rfl, rfl⟩ := List.map_eq_cons_iff.1 h
  obtain ⟨outer, piece, hboth⟩ := exists_cutAt_append hcut front.toList
  refine ⟨outer.map String.ofList, String.ofList piece, ?_⟩
  rw [segments, String.toList_append, hboth, List.map_append, List.map_cons, String.ofList_append]

/-- What is put before the first segment is put before the text. -/
theorem dotted_append_cons (piece first : String) (rest : List String) :
    dotted ((piece ++ first) :: rest) = piece ++ dotted (first :: rest) := by
  cases rest with
  | nil => rw [dotted_singleton, dotted_singleton]
  | cons next rest =>
    have hfirst : ∀ s : String, dotted (s :: next :: rest) = s ++ "." ++ dotted (next :: rest) := by
      intro s
      rw [← List.singleton_append, dotted_append (List.cons_ne_nil _ _) (List.cons_ne_nil _ _),
        dotted_singleton]
    rw [hfirst, hfirst]
    simp only [String.append_assoc]

/-- A dotted text ends with a text if and only if its parts end with the segments of that one, the
first of which may be the end of a part only. -/
theorem exists_dotted_eq_append_iff {parts : List String} (hne : parts ≠ [])
    (hdots : ∀ part ∈ parts, '.' ∉ part.toList) {path first : String} {rest : List String}
    (hpath : segments path = first :: rest) :
    (∃ front, dotted parts = front ++ path) ↔
      ∃ outer piece, parts = outer ++ (piece ++ first) :: rest := by
  constructor
  · rintro ⟨front, hfront⟩
    rw [← segments_dotted hne hdots, hfront]
    exact exists_segments_append hpath front
  · rintro ⟨outer, piece, rfl⟩
    have hends : dotted ((piece ++ first) :: rest) = piece ++ path := by
      rw [dotted_append_cons, ← hpath, dotted_segments]
    by_cases houter : outer = []
    · exact ⟨piece, by rw [houter, List.nil_append, hends]⟩
    · refine ⟨dotted outer ++ "." ++ piece, ?_⟩
      rw [dotted_append houter (List.cons_ne_nil _ _), hends]
      simp only [String.append_assoc]

/-! ## Names under a path -/

/-- The segments of the name without the last end with those of the path. -/
def LiesUnder (name path : String) : Prop := segments path <:+ (segments name).dropLast

/-- The segments of the name without the last end with those of the path, but the first of these is
no segment of the name: it is what a longer one ends with. -/
def EndsWithin (name path : String) : Prop :=
  ∃ outer piece first rest, segments path = first :: rest ∧
    (segments name).dropLast = outer ++ (piece ++ first) :: rest ∧ piece ≠ ""

instance (name path : String) : Decidable (LiesUnder name path) :=
  inferInstanceAs (Decidable (_ <:+ _))

variable {name path : String}

/-- A name that lies under a path does not end with it within a segment. -/
theorem not_endsWithin_of_liesUnder (h : LiesUnder name path) : ¬ EndsWithin name path := by
  rintro ⟨outer, piece, first, rest, hpath, hname, hpiece⟩
  obtain ⟨front, hfront⟩ := h
  rw [hpath, hname] at hfront
  have hfirst := (List.cons.inj (List.append_inj' hfront rfl).2).1
  have hlength := congrArg String.length hfirst
  rw [String.length_append] at hlength
  have hempty : piece.length = 0 := by omega
  exact hpiece (String.length_eq_zero_iff.1 hempty)

/-- A name that ends with a path in either way has more than one segment. -/
theorem ne_nil_of_liesUnder_or_endsWithin (h : LiesUnder name path ∨ EndsWithin name path) :
    (segments name).dropLast ≠ [] := by
  rcases h with ⟨front, hfront⟩ | ⟨outer, piece, first, rest, -, hname, -⟩
  · rw [← hfront]
    exact List.append_ne_nil_of_right_ne_nil front (segments_ne_nil path)
  · rw [hname]
    exact List.append_ne_nil_of_right_ne_nil outer (List.cons_ne_nil _ _)

/-- What stands before the last dot of a name ends with a path if and only if the name lies under
the path or ends with it within a segment. -/
theorem suffix_namespaceOf_iff (hne : (segments name).dropLast ≠ []) :
    path.toList <:+ (namespaceOf name).toList ↔ LiesUnder name path ∨ EndsWithin name path := by
  obtain ⟨first, rest, hpath⟩ := List.exists_cons_of_ne_nil (segments_ne_nil path)
  have hdots : ∀ part ∈ (segments name).dropLast, '.' ∉ part.toList := by
    intro part hpart
    exact not_mem_of_mem_segments ((List.dropLast_sublist _).subset hpart)
  have hends := exists_dotted_eq_append_iff hne hdots hpath
  have htexts : path.toList <:+ (namespaceOf name).toList ↔
      ∃ front, namespaceOf name = front ++ path := by
    constructor
    · rintro ⟨front, hfront⟩
      exact ⟨String.ofList front, String.toList_inj.1 (by simpa using hfront.symm)⟩
    · rintro ⟨front, hfront⟩
      exact ⟨front.toList, by rw [hfront, String.toList_append]⟩
  rw [htexts, namespaceOf, hends]
  constructor
  · rintro ⟨outer, piece, hname⟩
    by_cases hpiece : piece = ""
    · refine Or.inl ⟨outer, ?_⟩
      rw [hpath, hname, hpiece, String.empty_append]
    · exact Or.inr ⟨outer, piece, first, rest, hpath, hname, hpiece⟩
  · rintro (⟨front, hfront⟩ | ⟨outer, piece, head, tail, hhead, hname, -⟩)
    · exact ⟨front, "", by rw [← hfront, hpath, String.empty_append]⟩
    · obtain ⟨rfl, rfl⟩ := List.cons.inj (hpath.symm.trans hhead)
      exact ⟨outer, piece, hname⟩

end Text

namespace LineageMap

variable {parent : LineageMap} {output : List Attribute} {a : Attribute} {name : String}

/-! ## What a table keeps -/

/-- A column is named under a table if its name lies under the qualifier or ends with it within a
segment. -/
theorem isNamedUnder_iff (hname : a.name = some name) (qualifier : List String) :
    isNamedUnder qualifier a = true ↔
      Text.LiesUnder name (Text.dotted qualifier) ∨
        Text.EndsWithin name (Text.dotted qualifier) := by
  have hlength : 1 < (Text.segments name).length ↔ (Text.segments name).dropLast ≠ [] := by
    rw [← List.length_pos_iff, List.length_dropLast]
    omega
  simp only [isNamedUnder, hname, Option.any_some, Bool.and_eq_true, decide_eq_true_eq,
    List.isSuffixOf_iff_suffix, hlength]
  constructor
  · rintro ⟨hne, hsuffix⟩
    exact (Text.suffix_namespaceOf_iff hne).1 hsuffix
  · intro h
    have hne := Text.ne_nil_of_liesUnder_or_endsWithin h
    exact ⟨hne, (Text.suffix_namespaceOf_iff hne).2 h⟩

/-- A dependency under the last segment of its name, without backticks, and a table's qualifier. -/
def cutName (a : Attribute) (name : String) (qualifier : List String) : Attribute :=
  ⟨a.id, some (dropBackticks (Text.lastSegment name)), qualifier⟩

/-- How a table answers a dependency of which it knows the name at most. -/
theorem answer?_eq_some_iff_of_name (houtput : ∀ key ∈ output, key.id ≠ a.id)
    (hmarked : a.isSubqueryMarked = false) (hcount : a.isCountMarker = false)
    (hname : a.name = some name) {qualifier : List String} {b : Attribute} :
    answer? output qualifier a = some b ↔
      (Text.LiesUnder name (Text.dotted qualifier) ∨
        Text.EndsWithin name (Text.dotted qualifier)) ∧ b = cutName a name qualifier := by
  have hcut : (a.withName (a.name.map fun name => dropBackticks (Text.lastSegment name))
      ).withQualifier qualifier = cutName a name qualifier := by
    rw [hname]
    rfl
  rw [answer?_of_unknown houtput, answer?, hmarked, hcount, hcut, ← isNamedUnder_iff hname]
  simp only [List.any_nil, Bool.false_eq_true, if_false, Option.ite_none_right_eq_some,
    Option.some_inj]
  exact and_congr_right fun _ => eq_comm

/-- The map has the dependency among the sources of a column if and only if `P` holds, and then
under the last segment of its name and with the qualifier. -/
def KeepsIff (m : LineageMap) (key a : Attribute) (name : String) (qualifier : List String)
    (P : Prop) : Prop :=
  ∀ b, (m.sourcesOf key).find? a.id = some b ↔ P ∧ b = cutName a name qualifier

/-- A map keeps a dependency for one reason only. -/
theorem KeepsIff.iff_iff {m : LineageMap} {key : Attribute} {qualifier : List String} {P Q : Prop}
    (h : m.KeepsIff key a name qualifier P) : m.KeepsIff key a name qualifier Q ↔ (P ↔ Q) := by
  constructor
  · intro hQ
    have hP := h (cutName a name qualifier)
    rw [hQ (cutName a name qualifier)] at hP
    simpa using hP.symm
  · intro hPQ b
    rw [h b, hPQ]

/-- A dependency that a table knows by its name at most is kept if its name lies under the qualifier
or ends with it within a segment, and then under the last segment of its name. So the table goes by
whole segments for just those dependencies whose names do not end with the qualifier within a
segment. -/
theorem ofRelation_keptIff (hsources : parent.All (·.isNamed = true))
    {entry : Attribute × AttributeSet} (hentry : entry ∈ parent.entries)
    (ha : a ∈ entry.2.attrs) (hname : a.name = some name)
    (houtput : ∀ key ∈ output, key.id ≠ a.id) (hmarked : a.isSubqueryMarked = false)
    (hcount : a.isCountMarker = false) (qualifier : List String) :
    ∃ m, (parent.ofRelation output qualifier).result = .ok m ∧
      m.KeepsIff entry.1 a name qualifier
        (Text.LiesUnder name (Text.dotted qualifier) ∨
          Text.EndsWithin name (Text.dotted qualifier)) ∧
      (m.KeepsIff entry.1 a name qualifier (Text.LiesUnder name (Text.dotted qualifier)) ↔
        ¬ Text.EndsWithin name (Text.dotted qualifier)) := by
  have hkeeps : (parent.answerOf output qualifier).KeepsIff entry.1 a name qualifier
      (Text.LiesUnder name (Text.dotted qualifier) ∨
        Text.EndsWithin name (Text.dotted qualifier)) := by
    intro b
    rw [answerOf, OrderedMap.isEmpty_eq_false_of_mem hentry, if_neg Bool.false_ne_true,
      sourcesOf_mapValues _ hentry, AttributeSet.find?_ofList_filterMap _ fun _ _ => id_of_answer?,
      AttributeSet.find?_of_mem ha, Option.bind_some]
    exact answer?_eq_some_iff_of_name houtput hmarked hcount hname
  refine ⟨parent.answerOf output qualifier, Lineage.result_ofRelation_of_named hsources, hkeeps, ?_⟩
  rw [hkeeps.iff_iff]
  constructor
  · intro h hwithin
    exact Text.not_endsWithin_of_liesUnder (h.1 (Or.inr hwithin)) hwithin
  · intro h
    exact or_iff_left h

/-- A column of the table `db.t` under its full name. -/
def ofOwnTable : Attribute := ⟨7, some "db.t.`col`", []⟩

/-- A column of a table `t` in a database whose name ends with `db`. -/
def ofOtherDatabase : Attribute := ⟨8, some "mydb.t.col", []⟩

/-- A column that depends on both. -/
def dependsOnBoth : Attribute × AttributeSet :=
  (⟨5, some "out", []⟩, .ofList [ofOwnTable, ofOtherDatabase])

/-- The request for that column. -/
def askedByName : LineageMap := .ofList [dependsOnBoth]

/-- The columns that the table `db.t` is known to have. -/
def knownColumns : List Attribute := [⟨1, some "a", []⟩]

/-- A column of the table is kept under its full name. -/
theorem ofRelation_keptIff_ofOwnTable :
    ((askedByName.All (·.isNamed = true) ∧ dependsOnBoth ∈ askedByName.entries ∧
        ofOwnTable ∈ dependsOnBoth.2.attrs) ∧
      ofOwnTable.name = some "db.t.`col`" ∧ (∀ key ∈ knownColumns, key.id ≠ ofOwnTable.id) ∧
      ofOwnTable.isSubqueryMarked = false ∧ ofOwnTable.isCountMarker = false) ∧
    ∃ m, (askedByName.ofRelation knownColumns ["db.t"]).result = .ok m ∧
      m.KeepsIff dependsOnBoth.1 ofOwnTable "db.t.`col`" ["db.t"]
        (Text.LiesUnder "db.t.`col`" (Text.dotted ["db.t"]) ∨
          Text.EndsWithin "db.t.`col`" (Text.dotted ["db.t"])) ∧
      (m.KeepsIff dependsOnBoth.1 ofOwnTable "db.t.`col`" ["db.t"]
          (Text.LiesUnder "db.t.`col`" (Text.dotted ["db.t"])) ↔
        ¬ Text.EndsWithin "db.t.`col`" (Text.dotted ["db.t"])) := by
  have hsources : askedByName.All (·.isNamed = true) := by
    unfold All
    decide
  exact ⟨⟨⟨hsources, by decide, by decide⟩, by decide⟩,
    ofRelation_keptIff hsources (by decide) (by decide) rfl (by decide) (by decide) (by decide)
      ["db.t"]⟩

/-- The column of the other database does not lie under the table's qualifier, and is kept as a
column of the table. -/
theorem ofRelation_keeps_ofOtherDatabase :
    ¬ Text.LiesUnder "mydb.t.col" (Text.dotted ["db.t"]) ∧
    (∀ key ∈ knownColumns, key.id ≠ ofOtherDatabase.id) ∧
    ofOtherDatabase.isSubqueryMarked = false ∧ ofOtherDatabase.isCountMarker = false ∧
    ∃ m, (askedByName.ofRelation knownColumns ["db.t"]).result = .ok m ∧
      (m.sourcesOf dependsOnBoth.1).find? ofOtherDatabase.id = some ⟨8, some "col", ["db.t"]⟩ ∧
      ¬ m.KeepsIff dependsOnBoth.1 ofOtherDatabase "mydb.t.col" ["db.t"]
        (Text.LiesUnder "mydb.t.col" (Text.dotted ["db.t"])) := by
  have hunder : ¬ Text.LiesUnder "mydb.t.col" (Text.dotted ["db.t"]) := by decide
  have hkept : ((askedByName.answerOf knownColumns ["db.t"]).sourcesOf dependsOnBoth.1).find?
      ofOtherDatabase.id = some ⟨8, some "col", ["db.t"]⟩ := by decide
  exact ⟨hunder, by decide, by decide, by decide, _, rfl, hkept, fun h => hunder ((h _).1 hkept).1⟩

end LineageMap

end ColumnTrace
