import ColumnTrace.Attribute

/-!
# Sets of attributes

An `AttributeSet` holds one attribute for each identity, in order of first appearance. The first
attribute of an identity represents it, unless it carries no qualifier and a later one does: the
bare one is a request that was passed through, the qualified one its answer. Attributes that come
later under another qualifier change nothing.
-/

set_option autoImplicit false

namespace ColumnTrace

/-- The attribute joins the list: at the end if its identity is new, in the place of a bare
attribute of its identity if it is qualified itself. -/
def joinAttribute (a : Attribute) : List Attribute → List Attribute
  | [] => [a]
  | b :: rest =>
    if b.id = a.id then
      (if b.qualifier.isEmpty && !a.qualifier.isEmpty then a else b) :: rest
    else b :: joinAttribute a rest

/-- A column that joins keeps the identities in order; a new one comes last. -/
theorem map_id_joinAttribute (a : Attribute) (attrs : List Attribute) :
    (joinAttribute a attrs).map Attribute.id =
      if a.id ∈ attrs.map Attribute.id then attrs.map Attribute.id
      else attrs.map Attribute.id ++ [a.id] := by
  induction attrs with
  | nil => simp [joinAttribute]
  | cons b rest ih =>
    by_cases h : b.id = a.id
    · have hid : (if b.qualifier.isEmpty && !a.qualifier.isEmpty then a else b).id = b.id := by
        split
        · exact h.symm
        · rfl
      simp only [joinAttribute, List.map_cons, hid, List.mem_cons, h, true_or, if_true]
    · by_cases hmem : a.id ∈ rest.map Attribute.id
      · rw [if_pos hmem] at ih
        rw [if_pos (by simp only [List.map_cons, List.mem_cons]; exact Or.inr hmem)]
        simp only [joinAttribute, if_neg h, List.map_cons, ih]
      · rw [if_neg hmem] at ih
        rw [if_neg (by
          simp only [List.map_cons, List.mem_cons, not_or]
          exact ⟨fun e => h e.symm, hmem⟩)]
        simp only [joinAttribute, if_neg h, List.map_cons, ih, List.cons_append]

/-- Identities stay distinct. -/
theorem nodup_map_id_joinAttribute (a : Attribute) {attrs : List Attribute}
    (h : (attrs.map Attribute.id).Nodup) : ((joinAttribute a attrs).map Attribute.id).Nodup := by
  rw [map_id_joinAttribute]
  split
  · exact h
  · next hmem =>
    refine List.nodup_append.2 ⟨h, by simp, ?_⟩
    intro x hx y hy
    rw [List.mem_singleton] at hy
    exact fun hxy => hmem (hy ▸ hxy ▸ hx)

/-- Attributes in order of first appearance, one for each identity. -/
structure AttributeSet where
  attrs : List Attribute
  nodup_ids : (attrs.map Attribute.id).Nodup
deriving DecidableEq

namespace AttributeSet

@[ext]
theorem ext {s t : AttributeSet} (h : s.attrs = t.attrs) : s = t := by
  cases s; cases t; cases h; rfl

/-- The set without attributes. -/
def empty : AttributeSet := ⟨[], by simp⟩

instance : Inhabited AttributeSet := ⟨empty⟩

instance : EmptyCollection AttributeSet := ⟨empty⟩

/-- The set with one attribute more. -/
def insert (s : AttributeSet) (a : Attribute) : AttributeSet :=
  ⟨joinAttribute a s.attrs, nodup_map_id_joinAttribute a s.nodup_ids⟩

/-- The set with all attributes of a list. -/
def insertAll (s : AttributeSet) (attrs : List Attribute) : AttributeSet := attrs.foldl insert s

/-- The set of the attributes of a list. -/
def ofList (attrs : List Attribute) : AttributeSet := empty.insertAll attrs

/-- The set of one attribute. -/
def singleton (a : Attribute) : AttributeSet := ⟨[a], by simp⟩

/-- The attributes of the first set and after them those of the second. -/
def union (s t : AttributeSet) : AttributeSet := s.insertAll t.attrs

instance : Union AttributeSet := ⟨union⟩

/-- The number of attributes. -/
def size (s : AttributeSet) : Nat := s.attrs.length

/-- The set holds no attribute. -/
def isEmpty (s : AttributeSet) : Bool := s.attrs.isEmpty

/-- The identity is in the set. -/
def hasId (s : AttributeSet) (id : Int) : Bool := s.attrs.any (·.id == id)

/-- The identity of the attribute is in the set. -/
def contains (s : AttributeSet) (a : Attribute) : Bool := s.hasId a.id

/-- Both sets hold the same attributes, in whatever order. -/
def sameElements (s t : AttributeSet) : Bool :=
  s.attrs.all t.attrs.contains && t.attrs.all s.attrs.contains

/-- The set as log lines show it. -/
def shown (s : AttributeSet) : String :=
  "\x7b" ++ ", ".intercalate (s.attrs.map Attribute.shown) ++ "\x7d"

theorem insertAll_append (s : AttributeSet) (xs ys : List Attribute) :
    s.insertAll (xs ++ ys) = (s.insertAll xs).insertAll ys := by
  simp [insertAll]

theorem ofList_append (xs ys : List Attribute) :
    ofList (xs ++ ys) = (ofList xs).insertAll ys :=
  insertAll_append empty xs ys

end AttributeSet

end ColumnTrace
