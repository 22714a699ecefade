import ColumnTrace.Proofs.Unions

/-!
# Lists that account for what arrives

Attributes that arrive under one identity are put together to one. A list accounts for what arrives
if it makes nothing up, represents every identity, and keeps every qualified attribute
(`AccountsFor`). Where an identity has no more than one qualified attribute, lists that account for
parts of what arrives are put together to a set that accounts for all of it (`AccountsFor.ofList`).
-/

set_option autoImplicit false

namespace ColumnTrace

/-- The list holds of each identity that arrives an attribute, only what arrives, and all of it that
is qualified. -/
structure AccountsFor (attrs : List Attribute) (arrives : Attribute → Prop) : Prop where
  sound : ∀ x ∈ attrs, arrives x
  represented : ∀ x, arrives x → ∃ y ∈ attrs, y.id = x.id
  kept : ∀ x, arrives x → x.qualifier ≠ [] → x ∈ attrs

namespace AccountsFor

variable {xs ys : List Attribute} {P Q : Attribute → Prop}

/-- Two conditions that come to the same are accounted for alike. -/
theorem congr (h : AccountsFor xs P) (hiff : ∀ x, P x ↔ Q x) : AccountsFor xs Q where
  sound x hx := (hiff x).1 (h.sound x hx)
  represented x hx := h.represented x ((hiff x).2 hx)
  kept x hx := h.kept x ((hiff x).2 hx)

/-- Columns are accounted for by the condition that says which they are. -/
theorem of_mem_iff (h : ∀ x, x ∈ xs ↔ P x) : AccountsFor xs P where
  sound x hx := (h x).1 hx
  represented x hx := ⟨x, (h x).2 hx, rfl⟩
  kept x hx _ := (h x).2 hx

/-- Two lists together account for what one of them does. -/
theorem append (hxs : AccountsFor xs P) (hys : AccountsFor ys Q) :
    AccountsFor (xs ++ ys) fun x => P x ∨ Q x where
  sound x hx := (List.mem_append.1 hx).imp (hxs.sound x) (hys.sound x)
  represented := by
    rintro x (hx | hx)
    · obtain ⟨y, hy, hid⟩ := hxs.represented x hx
      exact ⟨y, List.mem_append_left _ hy, hid⟩
    · obtain ⟨y, hy, hid⟩ := hys.represented x hx
      exact ⟨y, List.mem_append_right _ hy, hid⟩
  kept := by
    rintro x (hx | hx) hqualified
    · exact List.mem_append_left _ (hxs.kept x hx hqualified)
    · exact List.mem_append_right _ (hys.kept x hx hqualified)

/-- The columns that are put in for each column account for what arrives by one of them. -/
theorem flatMap {f : Attribute → List Attribute} {R : Attribute → Attribute → Prop}
    (h : ∀ d ∈ xs, AccountsFor (f d) (R d)) :
    AccountsFor (xs.flatMap f) fun x => ∃ d ∈ xs, R d x where
  sound x hx := by
    obtain ⟨d, hd, hx⟩ := List.mem_flatMap.1 hx
    exact ⟨d, hd, (h d hd).sound x hx⟩
  represented := by
    rintro x ⟨d, hd, hx⟩
    obtain ⟨y, hy, hid⟩ := (h d hd).represented x hx
    exact ⟨y, List.mem_flatMap.2 ⟨d, hd, hy⟩, hid⟩
  kept := by
    rintro x ⟨d, hd, hx⟩ hqualified
    exact List.mem_flatMap.2 ⟨d, hd, (h d hd).kept x hx hqualified⟩

/-- The set of a list accounts for what the list accounts for, where an identity has no more than
one qualified attribute. -/
theorem ofList (source : Int → Attribute) (h : AccountsFor xs P)
    (hsource : ∀ x, P x → x.qualifier ≠ [] → x = source x.id) :
    AccountsFor (AttributeSet.ofList xs).attrs P where
  sound x hx := h.sound x (AttributeSet.mem_of_mem_ofList hx)
  represented x hx := by
    obtain ⟨y, hy, hyx⟩ := h.represented x hx
    obtain ⟨z, hz, hzy⟩ := AttributeSet.exists_mem_ofList hy
    exact ⟨z, hz, hzy.trans hyx⟩
  kept x hx hqualified := by
    refine AttributeSet.mem_ofList_of_qualified (h.kept x hx hqualified)
      (by simpa using hqualified) ?_
    intro y hy hid hyqualified
    rw [hsource y (h.sound y hy) (by simpa using hyqualified), hid, ← hsource x hx hqualified]

/-- A union accounts for what one of its sets does, if columns with a qualifier are told by their
identity. -/
theorem union (source : Int → Attribute) {s t : AttributeSet} (hs : AccountsFor s.attrs P)
    (ht : AccountsFor t.attrs Q) (hsource : ∀ x, P x ∨ Q x → x.qualifier ≠ [] → x = source x.id) :
    AccountsFor (s ∪ t).attrs fun x => P x ∨ Q x := by
  rw [AttributeSet.union_eq_ofList]
  exact AccountsFor.ofList source (hs.append ht) hsource

end AccountsFor

/-- Where an identity tells an attribute, the set of a list holds the whole list. -/
theorem AttributeSet.mem_ofList_iff {attrs : List Attribute}
    (h : ∀ x ∈ attrs, ∀ y ∈ attrs, x.id = y.id → x = y) {x : Attribute} :
    x ∈ (ofList attrs).attrs ↔ x ∈ attrs := by
  refine ⟨mem_of_mem_ofList, fun hx => ?_⟩
  obtain ⟨y, hy, hid⟩ := exists_mem_ofList hx
  rw [← h y (mem_of_mem_ofList hy) x hx hid]
  exact hy

end ColumnTrace
