import ColumnTrace.Proofs.FirstAppearances
import ColumnTrace.Proofs.Representatives
import Mathlib.Data.Option.Basic

/-!
# Unions of sets of attributes

Two things tell which set a list makes: the identities of the list, in order of first appearance
(`map_id_ofList`), and for each identity the attribute that represents it in the list
(`find?_ofList`). Which one represents it is told part by part, since `prefer` is associative
(`representative_append`). So a set can stand for the list that it was made of as part of a longer
list (`ofList_ofList_append`, `ofList_append_ofList`), what a list repeats changes nothing
(`ofList_append_of_subset`), and unions are associative and idempotent.
-/

set_option autoImplicit false

namespace ColumnTrace

/-! ## Who represents an identity -/

/-- Which of three attributes stays does not depend on which two are compared first. -/
theorem prefer_assoc (a b c : Option Attribute) :
    prefer (prefer a b) c = prefer a (prefer b c) := by
  cases a with
  | none => rfl
  | some a =>
    cases b with
    | none => rfl
    | some b =>
      cases c with
      | none => simp
      | some c =>
        by_cases ha : a.qualifier.isEmpty <;> by_cases hb : b.qualifier.isEmpty <;>
          by_cases hc : c.qualifier.isEmpty <;> simp [prefer, ha, hb, hc]

/-- Whoever has been looked at before changes nothing. -/
theorem prefer_prefer_left (a b : Option Attribute) : prefer (prefer a b) a = prefer a b := by
  cases a with
  | none => exact prefer_none_right _
  | some a =>
    cases b with
    | none => simp [prefer]
    | some b =>
      by_cases ha : a.qualifier.isEmpty <;> by_cases hb : b.qualifier.isEmpty <;>
        simp [prefer, ha, hb]

/-- The attribute that represents an identity in a list: the first of this identity with a
qualifier, or the first if none has one. -/
def representative (attrs : List Attribute) (id : Int) : Option Attribute :=
  (attrs.find? fun a => a.id == id && !a.qualifier.isEmpty).or (attrs.find? (·.id == id))

/-- The first attribute is preferred to the representative of the others, or not. -/
theorem representative_cons (a : Attribute) (attrs : List Attribute) (id : Int) :
    representative (a :: attrs) id =
      prefer (if a.id = id then some a else none) (representative attrs id) := by
  by_cases hid : a.id = id
  · by_cases hbare : a.qualifier.isEmpty
    · cases hqualified : attrs.find? fun b => b.id == id && !b.qualifier.isEmpty with
      | some b =>
        have hfound := List.find?_some hqualified
        rw [Bool.and_eq_true, Bool.not_eq_true'] at hfound
        simp [representative, prefer, hid, hbare, hqualified, hfound.2]
      | none =>
        cases hfirst : attrs.find? (·.id == id) with
        | none => simp [representative, hid, hbare, hqualified, hfirst]
        | some b =>
          have hb : b.qualifier.isEmpty = true := by
            have hnone := List.find?_eq_none.1 hqualified b (List.mem_of_find?_eq_some hfirst)
            simpa [List.find?_some hfirst] using hnone
          simp [representative, prefer, hid, hbare, hqualified, hfirst, hb]
    · cases hrest : representative attrs id <;> simp [representative, prefer, hid, hbare]
  · simp [representative, hid]

/-- The representative of two lists is told from that of each. -/
theorem representative_append (xs ys : List Attribute) (id : Int) :
    representative (xs ++ ys) id = prefer (representative xs id) (representative ys id) := by
  induction xs with
  | nil => rfl
  | cons x rest ih =>
    rw [List.cons_append, representative_cons, ih, representative_cons, prefer_assoc]

/-- An attribute that stands in the list already does not come to represent its identity by standing
there once more. -/
theorem prefer_representative_of_mem {attrs : List Attribute} {a : Attribute} (h : a ∈ attrs)
    (id : Int) :
    prefer (representative attrs id) (if a.id = id then some a else none) =
      representative attrs id := by
  induction attrs with
  | nil => cases h
  | cons b rest ih =>
    rw [representative_cons]
    rcases List.mem_cons.1 h with rfl | hrest
    · exact prefer_prefer_left _ _
    · rw [prefer_assoc, ih hrest]

/-- What a list repeats does not change who represents an identity. -/
theorem representative_append_of_subset {xs ys : List Attribute} (h : ys ⊆ xs) (id : Int) :
    representative (xs ++ ys) id = representative xs id := by
  rw [representative_append]
  induction ys with
  | nil => exact prefer_none_right _
  | cons y rest ih =>
    rw [List.cons_subset] at h
    rw [representative_cons, ← prefer_assoc, prefer_representative_of_mem h.1, ih h.2]

namespace AttributeSet

/-! ## What a list makes -/

/-- The identities come in the order in which they appear first. -/
theorem map_id_insertAll (s : AttributeSet) (attrs : List Attribute) :
    (s.insertAll attrs).attrs.map Attribute.id =
      (s.attrs.map Attribute.id ++ attrs.map Attribute.id).eraseDups := by
  induction attrs generalizing s with
  | nil =>
    rw [List.map_nil, List.append_nil, eraseDups_of_nodup s.nodup_ids]
    rfl
  | cons a rest ih =>
    have hinsert : (s.insert a).attrs.map Attribute.id =
        (s.attrs.map Attribute.id ++ [a.id]).eraseDups := by
      rw [eraseDups_append_singleton, eraseDups_of_nodup s.nodup_ids]
      exact map_id_joinAttribute a s.attrs
    rw [insertAll_cons, ih, hinsert, eraseDups_eraseDups_append, List.append_assoc,
      List.map_cons, List.singleton_append]

/-- What is there is preferred to the representative of what is added, or not. -/
theorem find?_insertAll (s : AttributeSet) (attrs : List Attribute) (id : Int) :
    (s.insertAll attrs).find? id = prefer (s.find? id) (representative attrs id) := by
  induction attrs generalizing s with
  | nil => exact (prefer_none_right _).symm
  | cons a rest ih =>
    rw [insertAll_cons, ih, find?_insert, representative_cons, prefer_assoc]

/-- The identities of a set, in order of first appearance in the list that makes it. -/
theorem map_id_ofList (attrs : List Attribute) :
    (ofList attrs).attrs.map Attribute.id = (attrs.map Attribute.id).eraseDups :=
  map_id_insertAll empty attrs

/-- The set of a list finds the representatives of the list. -/
theorem find?_ofList (attrs : List Attribute) (id : Int) :
    (ofList attrs).find? id = representative attrs id :=
  find?_insertAll empty attrs id

/-- A set is told by its identities in order and by what it finds under them. -/
theorem ext_find? {s t : AttributeSet}
    (hids : s.attrs.map Attribute.id = t.attrs.map Attribute.id)
    (hfind : ∀ id, s.find? id = t.find? id) : s = t := by
  have hread : ∀ u : AttributeSet, u.attrs.map some = (u.attrs.map Attribute.id).map u.find? := by
    intro u
    rw [List.map_map]
    exact List.map_congr_left fun a ha => (find?_of_mem ha).symm
  have hsome : s.attrs.map some = t.attrs.map some := by
    rw [hread s, hread t, hids]
    exact List.map_congr_left fun id _ => hfind id
  exact ext (List.map_injective_iff.2 (Option.some_injective Attribute) hsome)

/-- Two lists make one set if and only if they have the same identities in order of first appearance
and the same attributes represent them. -/
theorem ofList_eq_iff {xs ys : List Attribute} :
    ofList xs = ofList ys ↔
      (xs.map Attribute.id).eraseDups = (ys.map Attribute.id).eraseDups ∧
        ∀ id, representative xs id = representative ys id := by
  constructor
  · intro h
    rw [← map_id_ofList, ← map_id_ofList, h]
    refine ⟨rfl, fun id => ?_⟩
    rw [← find?_ofList, ← find?_ofList, h]
  · rintro ⟨hids, hrepresentative⟩
    refine ext_find? ?_ fun id => ?_
    · rw [map_id_ofList, map_id_ofList, hids]
    · rw [find?_ofList, find?_ofList, hrepresentative id]

/-! ## Lists in parts -/

/-- What stands in a list already changes nothing behind it. -/
theorem ofList_append_of_subset {xs ys : List Attribute} (h : ys ⊆ xs) :
    ofList (xs ++ ys) = ofList xs := by
  refine ofList_eq_iff.2 ⟨?_, representative_append_of_subset h⟩
  rw [List.map_append]
  exact eraseDups_append_of_subset (List.map_subset Attribute.id h)

/-- The set of a list has the representatives of the list. -/
theorem representative_attrs_ofList (attrs : List Attribute) (id : Int) :
    representative (ofList attrs).attrs id = representative attrs id := by
  rw [← find?_ofList, ofList_attrs, find?_ofList]

/-- The set of the first part of a list can stand for it. -/
theorem ofList_ofList_append (xs ys : List Attribute) :
    ofList ((ofList xs).attrs ++ ys) = ofList (xs ++ ys) := by
  rw [ofList_append, ofList_attrs, ofList_append]

/-- The set of the second part of a list can stand for it. -/
theorem ofList_append_ofList (xs ys : List Attribute) :
    ofList (xs ++ (ofList ys).attrs) = ofList (xs ++ ys) := by
  refine ofList_eq_iff.2 ⟨?_, fun id => ?_⟩
  · rw [List.map_append, map_id_ofList, eraseDups_append_eraseDups, List.map_append]
  · rw [representative_append, representative_attrs_ofList, representative_append]

/-- The sets of the parts of a list can stand for them. -/
theorem ofList_flatMap_ofList {α : Type} (f : α → List Attribute) (xs : List α) :
    ofList (xs.flatMap fun x => (ofList (f x)).attrs) = ofList (xs.flatMap f) := by
  induction xs using List.reverseRecOn with
  | nil => rfl
  | append_singleton xs x ih =>
    simp only [List.flatMap_append, List.flatMap_singleton]
    rw [ofList_append_ofList, ofList_append, ih, ← ofList_append]

/-- What repeated members are exchanged for changes nothing after the first time. -/
theorem ofList_flatMap_eraseDups {α : Type} [BEq α] [LawfulBEq α] (f : α → List Attribute)
    (xs : List α) : ofList (xs.eraseDups.flatMap f) = ofList (xs.flatMap f) := by
  induction xs using List.reverseRecOn with
  | nil => rfl
  | append_singleton xs x ih =>
    rw [eraseDups_append_singleton, List.flatMap_append, List.flatMap_singleton]
    split
    · next hx =>
      have hsubset : f x ⊆ xs.flatMap f := fun a ha => List.mem_flatMap.2 ⟨x, hx, ha⟩
      rw [ih, ofList_append_of_subset hsubset]
    · rw [List.flatMap_append, List.flatMap_singleton, ofList_append, ih, ← ofList_append]

/-- Where an identity tells an attribute, the set of a list is the list without repetitions. -/
theorem attrs_ofList_of_agree {attrs : List Attribute}
    (h : ∀ x ∈ attrs, ∀ y ∈ attrs, x.id = y.id → x = y) :
    (ofList attrs).attrs = attrs.eraseDups := by
  induction attrs using List.reverseRecOn with
  | nil => rfl
  | append_singleton attrs a ih =>
    have hattrs := ih fun x hx y hy =>
      h x (List.mem_append_left [a] hx) y (List.mem_append_left [a] hy)
    rw [eraseDups_append_singleton]
    split
    · next ha =>
      rw [ofList_append_of_subset (by simpa using ha), hattrs]
    · next ha =>
      have hfresh : a.id ∉ (ofList attrs).attrs.map Attribute.id := by
        intro hid
        obtain ⟨x, hx, hxid⟩ := List.mem_map.1 hid
        have hmem := mem_of_mem_ofList hx
        exact ha (h x (List.mem_append_left [a] hmem) a (by simp) hxid ▸ hmem)
      rw [ofList_append, ← hattrs]
      exact joinAttribute_of_not_mem hfresh

/-! ## Unions -/

/-- A union is the set of the two lists one after the other. -/
theorem union_eq_ofList (s t : AttributeSet) : s ∪ t = ofList (s.attrs ++ t.attrs) := by
  rw [ofList_append, ofList_attrs]
  rfl

/-- Unions may be put together in any way. -/
theorem union_assoc (s t u : AttributeSet) : s ∪ t ∪ u = s ∪ (t ∪ u) := by
  rw [union_eq_ofList (s ∪ t), union_eq_ofList s t, ofList_ofList_append, List.append_assoc,
    union_eq_ofList s, union_eq_ofList t u, ofList_append_ofList]

/-- A set adds nothing to itself. -/
@[simp]
theorem union_self (s : AttributeSet) : s ∪ s = s := by
  rw [union_eq_ofList, ofList_append_of_subset (List.Subset.refl _), ofList_attrs]

end AttributeSet

end ColumnTrace
