import ColumnTrace.AttributeSet

/-!
# Which attribute represents an identity

A set of attributes is read through `AttributeSet.find?`: the attribute that stands for an identity.
Adding an attribute and joining two sets change what is found by one rule, `prefer`: the first
attribute stays, unless it is bare and the second is qualified. Two sets have the same elements if
and only if they find the same attributes (`sameElements_iff`).

The second half is about the set of a list in which an identity may come several times: nothing is
made up (`mem_of_mem_ofList`), no identity is lost (`exists_mem_ofList`), and a qualified attribute
that no other qualified one contradicts is kept (`mem_ofList_of_qualified`).
-/

set_option autoImplicit false

namespace ColumnTrace

/-- Of two attributes of one identity, the one that represents it: the first, unless it is bare and
the second is qualified. -/
def prefer : Option Attribute → Option Attribute → Option Attribute
  | none, second => second
  | some a, none => some a
  | some a, some b => some (if a.qualifier.isEmpty && !b.qualifier.isEmpty then b else a)

@[simp]
theorem prefer_none_right (a : Option Attribute) : prefer a none = a := by
  cases a <;> rfl

@[simp]
theorem prefer_none_left (a : Option Attribute) : prefer none a = a := rfl

/-- One of the two stays. -/
theorem prefer_eq_or (a b : Option Attribute) : prefer a b = a ∨ prefer a b = b := by
  cases a with
  | none => exact Or.inr rfl
  | some a =>
    cases b with
    | none => exact Or.inl rfl
    | some b =>
      simp only [prefer]
      split
      · exact Or.inr rfl
      · exact Or.inl rfl

/-- The second gives way to nothing if and only if it stands already or is bare itself. -/
theorem prefer_eq_right_iff {a b : Attribute} :
    prefer (some a) (some b) = some b ↔
      b = a ∨ (a.qualifier.isEmpty = true ∧ b.qualifier.isEmpty = false) := by
  simp only [prefer, Option.some.injEq]
  by_cases ha : a.qualifier.isEmpty <;> by_cases hb : b.qualifier.isEmpty <;>
    simp [ha, hb, eq_comm]

/-- The first stays if and only if it is the second or it is qualified or the second is bare. -/
theorem prefer_eq_left_iff {a b : Attribute} :
    prefer (some a) (some b) = some a ↔
      a = b ∨ a.qualifier.isEmpty = false ∨ b.qualifier.isEmpty = true := by
  simp only [prefer, Option.some.injEq]
  by_cases ha : a.qualifier.isEmpty <;> by_cases hb : b.qualifier.isEmpty <;>
    simp [ha, hb, eq_comm]

/-! ## Lists with one attribute for each identity -/

/-- Where identities are distinct, a member is found under its own. -/
theorem find?_id_of_mem {attrs : List Attribute} (hnodup : (attrs.map Attribute.id).Nodup)
    {a : Attribute} (ha : a ∈ attrs) : attrs.find? (·.id == a.id) = some a := by
  induction attrs with
  | nil => cases ha
  | cons b rest ih =>
    simp only [List.map_cons, List.nodup_cons] at hnodup
    rcases List.mem_cons.1 ha with rfl | hrest
    · simp
    · have hne : b.id ≠ a.id := fun h => hnodup.1 (h ▸ List.mem_map_of_mem hrest)
      simp [hne, ih hnodup.2 hrest]

/-- Where identities are distinct, the attributes that are found are the members. -/
theorem find?_id_eq_some_iff {attrs : List Attribute} (hnodup : (attrs.map Attribute.id).Nodup)
    {id : Int} {a : Attribute} :
    attrs.find? (·.id == id) = some a ↔ a ∈ attrs ∧ a.id = id := by
  constructor
  · intro h
    exact ⟨List.mem_of_find?_eq_some h, by simpa using List.find?_some h⟩
  · rintro ⟨ha, rfl⟩
    exact find?_id_of_mem hnodup ha

/-- Joining an attribute to a list changes what is found under its identity only. -/
theorem find?_id_joinAttribute (a : Attribute) (attrs : List Attribute) (id : Int) :
    (joinAttribute a attrs).find? (·.id == id) =
      prefer (attrs.find? (·.id == id)) (if a.id = id then some a else none) := by
  induction attrs with
  | nil =>
    by_cases h : a.id = id <;> simp [joinAttribute, h]
  | cons b rest ih =>
    by_cases hb : b.id = a.id
    · by_cases h : a.id = id
      · by_cases hq : b.qualifier.isEmpty && !a.qualifier.isEmpty <;>
          simp [joinAttribute, hb, h, hq, prefer]
      · by_cases hq : b.qualifier.isEmpty && !a.qualifier.isEmpty <;>
          simp [joinAttribute, hb, h, hq]
    · unfold joinAttribute
      rw [if_neg hb]
      by_cases h : b.id = id
      · have ha : a.id ≠ id := fun e => hb (h.trans e.symm)
        simp [h, ha]
      · simp [h, ih]

/-- A column with a new identity comes last. -/
theorem joinAttribute_of_not_mem {a : Attribute} {attrs : List Attribute}
    (h : a.id ∉ attrs.map Attribute.id) : joinAttribute a attrs = attrs ++ [a] := by
  induction attrs with
  | nil => rfl
  | cons b rest ih =>
    simp only [List.map_cons, List.mem_cons, not_or] at h
    simp [joinAttribute, Ne.symm h.1, ih h.2]

/-- Joining a column makes up nothing. -/
theorem mem_of_mem_joinAttribute {a x : Attribute} {attrs : List Attribute}
    (h : x ∈ joinAttribute a attrs) : x ∈ attrs ∨ x = a := by
  induction attrs with
  | nil => exact Or.inr (List.mem_singleton.1 h)
  | cons b rest ih =>
    simp only [joinAttribute] at h
    split at h
    · rcases List.mem_cons.1 h with rfl | hx
      · split
        · exact Or.inr rfl
        · exact Or.inl List.mem_cons_self
      · exact Or.inl (List.mem_cons_of_mem b hx)
    · rcases List.mem_cons.1 h with rfl | hx
      · exact Or.inl List.mem_cons_self
      · exact (ih hx).imp_left (List.mem_cons_of_mem b)

namespace AttributeSet

/-- The attribute that represents an identity. -/
def find? (s : AttributeSet) (id : Int) : Option Attribute := s.attrs.find? (·.id == id)

/-- What is found under an identity is the member with it. -/
theorem find?_eq_some_iff {s : AttributeSet} {id : Int} {a : Attribute} :
    s.find? id = some a ↔ a ∈ s.attrs ∧ a.id = id :=
  find?_id_eq_some_iff s.nodup_ids

/-- A member is found under its identity. -/
theorem find?_of_mem {s : AttributeSet} {a : Attribute} (h : a ∈ s.attrs) :
    s.find? a.id = some a :=
  find?_eq_some_iff.2 ⟨h, rfl⟩

/-- Nothing is found under an identity that no member has. -/
theorem find?_eq_none_iff {s : AttributeSet} {id : Int} :
    s.find? id = none ↔ id ∉ s.attrs.map Attribute.id := by
  simp [find?, List.find?_eq_none]

/-- Two attributes of a set with one identity are one attribute. -/
theorem eq_of_id_eq {s : AttributeSet} {a b : Attribute} (ha : a ∈ s.attrs) (hb : b ∈ s.attrs)
    (h : a.id = b.id) : a = b := by
  have hfound := find?_of_mem ha
  rw [h, find?_of_mem hb] at hfound
  exact (Option.some.inj hfound).symm

/-- An attribute is preferred to what is there under its identity, or not, and changes nothing else.
-/
theorem find?_insert (s : AttributeSet) (a : Attribute) (id : Int) :
    (s.insert a).find? id = prefer (s.find? id) (if a.id = id then some a else none) :=
  find?_id_joinAttribute a s.attrs id

theorem insertAll_cons (s : AttributeSet) (a : Attribute) (attrs : List Attribute) :
    s.insertAll (a :: attrs) = (s.insert a).insertAll attrs := rfl

/-- Attributes with distinct identities are added one apart from the other. -/
theorem find?_insertAll_of_nodup (s : AttributeSet) {attrs : List Attribute}
    (hnodup : (attrs.map Attribute.id).Nodup) (id : Int) :
    (s.insertAll attrs).find? id = prefer (s.find? id) (attrs.find? (·.id == id)) := by
  induction attrs generalizing s with
  | nil => simp [insertAll]
  | cons a rest ih =>
    simp only [List.map_cons, List.nodup_cons] at hnodup
    rw [insertAll_cons, ih (s.insert a) hnodup.2, find?_insert]
    by_cases h : a.id = id
    · have hrest : rest.find? (·.id == id) = none := by
        rw [List.find?_eq_none]
        intro b hb hbid
        have hid : a.id = b.id := by
          rw [h]
          exact (beq_iff_eq.1 hbid).symm
        exact hnodup.1 (hid ▸ List.mem_map_of_mem hb)
      simp [h, hrest]
    · simp [h]

/-- The union finds what the first set finds, unless that is bare and the second knows better. -/
theorem find?_union (s t : AttributeSet) (id : Int) :
    (s ∪ t).find? id = prefer (s.find? id) (t.find? id) :=
  find?_insertAll_of_nodup s t.nodup_ids id

/-- The set of a list with one attribute for each identity is that list. -/
theorem attrs_ofList_of_nodup {attrs : List Attribute} (h : (attrs.map Attribute.id).Nodup) :
    (ofList attrs).attrs = attrs := by
  have key : ∀ (s : AttributeSet) (xs : List Attribute),
      ((s.attrs ++ xs).map Attribute.id).Nodup → (s.insertAll xs).attrs = s.attrs ++ xs := by
    intro s xs
    induction xs generalizing s with
    | nil => intro _; simp [insertAll]
    | cons a rest ih =>
      intro hnodup
      have hfresh : a.id ∉ s.attrs.map Attribute.id := by
        intro hmem
        rw [List.map_append, List.nodup_append] at hnodup
        exact hnodup.2.2 _ hmem _ (by simp) rfl
      have hattrs : (s.insert a).attrs = s.attrs ++ [a] := joinAttribute_of_not_mem hfresh
      have hrest : (((s.insert a).attrs ++ rest).map Attribute.id).Nodup := by
        rw [hattrs]
        simpa using hnodup
      rw [insertAll_cons, ih (s.insert a) hrest, hattrs, List.append_assoc, List.singleton_append]
  exact key empty attrs h

@[simp]
theorem ofList_attrs (s : AttributeSet) : ofList s.attrs = s :=
  ext (attrs_ofList_of_nodup s.nodup_ids)

@[simp]
theorem empty_union (s : AttributeSet) : ∅ ∪ s = s := ofList_attrs s

@[simp]
theorem union_empty (s : AttributeSet) : s ∪ ∅ = s := rfl

/-- Two sets have the same elements if and only if they find the same attributes. -/
theorem sameElements_iff {s t : AttributeSet} :
    s.sameElements t = true ↔ ∀ id, s.find? id = t.find? id := by
  have hmem : s.sameElements t = true ↔
      (∀ a ∈ s.attrs, a ∈ t.attrs) ∧ ∀ a ∈ t.attrs, a ∈ s.attrs := by
    simp [sameElements]
  rw [hmem]
  constructor
  · rintro ⟨hst, hts⟩ id
    ext a
    rw [find?_eq_some_iff, find?_eq_some_iff]
    exact ⟨fun h => ⟨hst a h.1, h.2⟩, fun h => ⟨hts a h.1, h.2⟩⟩
  · intro h
    constructor
    · intro a ha
      exact (find?_eq_some_iff.1 ((h a.id).symm.trans (find?_of_mem ha))).1
    · intro a ha
      exact (find?_eq_some_iff.1 ((h a.id).trans (find?_of_mem ha))).1

/-! ## Lists in which an identity may come several times -/

/-- Adding attributes makes up nothing. -/
theorem mem_of_mem_insertAll {s : AttributeSet} {attrs : List Attribute} {x : Attribute}
    (h : x ∈ (s.insertAll attrs).attrs) : x ∈ s.attrs ∨ x ∈ attrs := by
  induction attrs generalizing s with
  | nil => exact Or.inl h
  | cons a rest ih =>
    rw [insertAll_cons] at h
    rcases ih h with hs | hrest
    · rcases mem_of_mem_joinAttribute hs with hmem | rfl
      · exact Or.inl hmem
      · exact Or.inr List.mem_cons_self
    · exact Or.inr (List.mem_cons_of_mem a hrest)

/-- The set of a list makes up nothing. -/
theorem mem_of_mem_ofList {attrs : List Attribute} {x : Attribute}
    (h : x ∈ (ofList attrs).attrs) : x ∈ attrs :=
  (mem_of_mem_insertAll h).resolve_left List.not_mem_nil

/-- The identities are those from before and those that were added. -/
theorem mem_ids_insertAll {s : AttributeSet} {attrs : List Attribute} {id : Int} :
    id ∈ (s.insertAll attrs).attrs.map Attribute.id ↔
      id ∈ s.attrs.map Attribute.id ∨ id ∈ attrs.map Attribute.id := by
  induction attrs generalizing s with
  | nil => simp [insertAll]
  | cons a rest ih =>
    have hinsert : id ∈ (s.insert a).attrs.map Attribute.id ↔
        id ∈ s.attrs.map Attribute.id ∨ id = a.id := by
      show id ∈ (joinAttribute a s.attrs).map Attribute.id ↔ _
      rw [map_id_joinAttribute]
      split
      · next hmem =>
        exact ⟨Or.inl, fun h => h.elim (fun hs => hs) (fun e => e ▸ hmem)⟩
      · simp
    rw [insertAll_cons, ih, hinsert, List.map_cons, List.mem_cons, or_assoc]

/-- The set of a list loses no identity. -/
theorem exists_mem_ofList {attrs : List Attribute} {x : Attribute} (h : x ∈ attrs) :
    ∃ y ∈ (ofList attrs).attrs, y.id = x.id := by
  have hid : x.id ∈ (ofList attrs).attrs.map Attribute.id :=
    mem_ids_insertAll.2 (Or.inr (List.mem_map_of_mem h))
  exact List.mem_map.1 hid

/-- A qualified attribute is not lost when another is added, where no other qualified one has its
identity. -/
theorem mem_insert_of_qualified {s : AttributeSet} {a x : Attribute} (hx : x ∈ s.attrs ∨ x = a)
    (hqualified : x.qualifier.isEmpty = false)
    (hunique : ∀ y, y ∈ s.attrs ∨ y = a → y.id = x.id → y.qualifier.isEmpty = false → y = x) :
    x ∈ (s.insert a).attrs := by
  have hfound : (s.insert a).find? x.id = some x := by
    rw [find?_insert]
    by_cases ha : a.id = x.id
    · rw [if_pos ha]
      cases hs : s.find? x.id with
      | none =>
        rcases hx with hx | rfl
        · rw [find?_of_mem hx] at hs
          cases hs
        · rfl
      | some b =>
        obtain ⟨hb, hbid⟩ := find?_eq_some_iff.1 hs
        by_cases hbare : b.qualifier.isEmpty = true
        · -- a bare one gives way, so `x` has to be the one that is added
          have hax : x = a := by
            rcases hx with hx | hx
            · rw [eq_of_id_eq hx hb hbid.symm, hbare] at hqualified
              cases hqualified
            · exact hx
          rw [← hax]
          exact prefer_eq_right_iff.2 (Or.inr ⟨hbare, hqualified⟩)
        · rw [Bool.not_eq_true] at hbare
          rw [hunique b (Or.inl hb) hbid hbare]
          exact prefer_eq_left_iff.2 (Or.inr (Or.inl hqualified))
    · rw [if_neg ha, prefer_none_right]
      rcases hx with hx | rfl
      · exact find?_of_mem hx
      · exact absurd rfl ha
  exact (find?_eq_some_iff.1 hfound).1

/-- A qualified attribute of a list is in its set, where no other qualified attribute of the list
has its identity. -/
theorem mem_ofList_of_qualified {attrs : List Attribute} {x : Attribute} (hx : x ∈ attrs)
    (hqualified : x.qualifier.isEmpty = false)
    (hunique : ∀ y ∈ attrs, y.id = x.id → y.qualifier.isEmpty = false → y = x) :
    x ∈ (ofList attrs).attrs := by
  have key : ∀ (s : AttributeSet) (xs : List Attribute), (x ∈ s.attrs ∨ x ∈ xs) →
      (∀ y, y ∈ s.attrs ∨ y ∈ xs → y.id = x.id → y.qualifier.isEmpty = false → y = x) →
      x ∈ (s.insertAll xs).attrs := by
    intro s xs
    induction xs generalizing s with
    | nil => intro hmem _; exact hmem.resolve_right List.not_mem_nil
    | cons a rest ih =>
      intro hmem honly
      have hstep : x ∈ s.attrs ∨ x = a → x ∈ (s.insert a).attrs := by
        intro h
        refine mem_insert_of_qualified h hqualified fun y hy => honly y ?_
        rcases hy with hy | rfl
        · exact Or.inl hy
        · exact Or.inr List.mem_cons_self
      rw [insertAll_cons]
      apply ih (s.insert a)
      · rcases hmem with hs | hxs
        · exact Or.inl (hstep (Or.inl hs))
        · exact (List.mem_cons.1 hxs).imp_left fun h => hstep (Or.inr h)
      · rintro y (hy | hy)
        · rcases mem_of_mem_joinAttribute hy with hs | rfl
          · exact honly y (Or.inl hs)
          · exact honly y (Or.inr List.mem_cons_self)
        · exact honly y (Or.inr (List.mem_cons_of_mem a hy))
  exact key empty attrs (Or.inr hx) fun y hy =>
    hunique y (hy.resolve_left List.not_mem_nil)

/-- The set of a list is empty if and only if the list is. -/
theorem isEmpty_ofList {attrs : List Attribute} :
    (ofList attrs).isEmpty = true ↔ attrs = [] := by
  unfold isEmpty
  rw [List.isEmpty_iff]
  constructor
  · intro h
    cases attrs with
    | nil => rfl
    | cons a rest =>
      obtain ⟨y, hy, -⟩ := exists_mem_ofList (List.mem_cons_self (a := a) (l := rest))
      rw [h] at hy
      cases hy
  · rintro rfl
    rfl

end AttributeSet

end ColumnTrace
