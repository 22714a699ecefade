import ColumnTrace.Proofs.Unions

/-!
# The normal form of a list of attributes

Where an attribute stands in a set and which attribute stands there are told apart. The places go to
the identities in order of first appearance and are never given up. The attribute at a place may
give way later on, to the first one of its identity with a qualifier (`Represents`). Both together
tell the set that a list makes (`AttributeSet.eq_ofList_iff`). Lists behind each other make the
union of the sets that they make, so unions have the laws of lists
(`AttributeSet.ofList_isHomomorphism`).
-/

set_option autoImplicit false

namespace ColumnTrace

/-- The attribute represents its identity in the list: it is the first of its identity that is
qualified, or the first of its identity if none is. -/
def Represents (attrs : List Attribute) (a : Attribute) : Prop :=
  ∃ before after, attrs = before ++ a :: after ∧
    ((a.qualifier ≠ [] ∧ ∀ b ∈ before, b.id = a.id → b.qualifier = []) ∨
      ((∀ b ∈ before, b.id ≠ a.id) ∧ ∀ b ∈ attrs, b.id = a.id → b.qualifier = []))

/-- The first qualified attribute of an identity. -/
theorem find?_qualified_eq_some_iff {attrs : List Attribute} {id : Int} {a : Attribute} :
    attrs.find? (fun b => b.id == id && !b.qualifier.isEmpty) = some a ↔
      a.id = id ∧ ∃ before after, attrs = before ++ a :: after ∧
        a.qualifier ≠ [] ∧ ∀ b ∈ before, b.id = a.id → b.qualifier = [] := by
  rw [List.find?_eq_some_iff_append]
  simp only [Bool.and_eq_true, beq_iff_eq, Bool.not_and, Bool.not_not, Bool.or_eq_true,
    List.isEmpty_iff, Bool.not_eq_eq_eq_not, Bool.not_true, List.isEmpty_eq_false_iff,
    beq_eq_false_iff_ne]
  constructor
  · rintro ⟨⟨rfl, hqualified⟩, before, after, hsplit, hbefore⟩
    exact ⟨rfl, before, after, hsplit, hqualified, fun b hb hid =>
      (hbefore b hb).resolve_left (not_not_intro hid)⟩
  · rintro ⟨rfl, before, after, hsplit, hqualified, hbefore⟩
    refine ⟨⟨rfl, hqualified⟩, before, after, hsplit, fun b hb => ?_⟩
    exact (em (b.id = a.id)).elim (fun hid => Or.inr (hbefore b hb hid)) Or.inl

/-- The first attribute of an identity. -/
theorem find?_id_eq_some_iff_append {attrs : List Attribute} {id : Int} {a : Attribute} :
    attrs.find? (·.id == id) = some a ↔
      a.id = id ∧ ∃ before after, attrs = before ++ a :: after ∧ ∀ b ∈ before, b.id ≠ a.id := by
  rw [List.find?_eq_some_iff_append]
  simp only [beq_iff_eq, Bool.not_eq_eq_eq_not, Bool.not_true, beq_eq_false_iff_ne]
  constructor <;> (rintro ⟨rfl, hfirst⟩; exact ⟨rfl, hfirst⟩)

/-- The representative of an identity in a list is the attribute that represents it. -/
theorem representative_eq_some_iff {attrs : List Attribute} {id : Int} {a : Attribute} :
    representative attrs id = some a ↔ a.id = id ∧ Represents attrs a := by
  unfold representative
  rw [Option.or_eq_some_iff, find?_qualified_eq_some_iff, find?_id_eq_some_iff_append,
    List.find?_eq_none]
  constructor
  · rintro (⟨rfl, before, after, hsplit, hfirst⟩ | ⟨hnone, rfl, before, after, hsplit, hfirst⟩)
    · exact ⟨rfl, before, after, hsplit, Or.inl hfirst⟩
    · refine ⟨rfl, before, after, hsplit, Or.inr ⟨hfirst, fun b hb hid => ?_⟩⟩
      simpa [hid] using hnone b hb
  · rintro ⟨rfl, before, after, hsplit, hfirst | ⟨hfirst, hbare⟩⟩
    · exact Or.inl ⟨rfl, before, after, hsplit, hfirst⟩
    · refine Or.inr ⟨fun b hb => ?_, rfl, before, after, hsplit, hfirst⟩
      by_cases hid : b.id = a.id <;> simp [hid, hbare b hb]

namespace AttributeSet

/-- The set holds each identity of the list once, in order of first appearance, and of each the
attribute that represents it in the list. -/
structure IsNormalForm (attrs : List Attribute) (s : AttributeSet) : Prop where
  inOrder : FirstSeen (attrs.map Attribute.id) (s.attrs.map Attribute.id)
  represents : ∀ a ∈ s.attrs, Represents attrs a

/-- The set of a list is a normal form of it. -/
theorem isNormalForm_ofList (attrs : List Attribute) : IsNormalForm attrs (ofList attrs) where
  inOrder := by
    rw [map_id_ofList]
    exact firstSeen_eraseDups _
  represents a ha := by
    have hfound : representative attrs a.id = some a := by
      rw [← find?_ofList]
      exact find?_of_mem ha
    exact (representative_eq_some_iff.1 hfound).2

/-- The normal form of a list is the set that the list makes. -/
theorem eq_ofList_iff {attrs : List Attribute} {s : AttributeSet} :
    s = ofList attrs ↔ IsNormalForm attrs s := by
  constructor
  · rintro rfl
    exact isNormalForm_ofList attrs
  · intro h
    have hids : s.attrs.map Attribute.id = (ofList attrs).attrs.map Attribute.id :=
      h.inOrder.eq (isNormalForm_ofList attrs).inOrder
    refine ext_find? hids fun id => ?_
    rw [find?_ofList]
    cases hfound : s.find? id with
    | some a =>
      obtain ⟨ha, rfl⟩ := find?_eq_some_iff.1 hfound
      exact (representative_eq_some_iff.2 ⟨rfl, h.represents a ha⟩).symm
    | none =>
      -- an identity that the set lacks is none of the list's
      have habsent : id ∉ (ofList attrs).attrs.map Attribute.id := by
        rw [← hids]
        exact find?_eq_none_iff.1 hfound
      rw [← find?_ofList]
      exact (find?_eq_none_iff.2 habsent).symm

/-- A list makes its normal form, and lists behind each other make the union of what they make. So
unions are associative and idempotent, and the empty set changes nothing. -/
theorem ofList_isHomomorphism :
    (∀ (attrs : List Attribute) (s : AttributeSet), s = ofList attrs ↔ IsNormalForm attrs s) ∧
    (∀ xs ys : List Attribute, ofList (xs ++ ys) = ofList xs ∪ ofList ys) ∧
    (∀ s t u : AttributeSet, s ∪ t ∪ u = s ∪ (t ∪ u)) ∧
    (∀ s : AttributeSet, s ∪ s = s) ∧
    ∀ s : AttributeSet, ∅ ∪ s = s ∧ s ∪ ∅ = s := by
  refine ⟨fun _ _ => eq_ofList_iff, fun xs ys => ?_, union_assoc, union_self, fun s =>
    ⟨empty_union s, union_empty s⟩⟩
  rw [union_eq_ofList, ofList_append_ofList, ofList_ofList_append]

/-- The place is that of the first attribute, and the first qualified one takes it. -/
example :
    (ofList [⟨1, some "a", []⟩, ⟨2, some "b", []⟩, ⟨1, some "a", ["t"]⟩,
        ⟨1, some "a", ["u"]⟩]).attrs =
      [⟨1, some "a", ["t"]⟩, ⟨2, some "b", []⟩] := by
  decide

end AttributeSet

end ColumnTrace
