import ColumnTrace.Proofs.Lineage.NamedColumns
import ColumnTrace.Proofs.Unions

/-!
# Requests that are resolved step by step

On its way down a plan a request is resolved against what one operator computes, and what comes out
of that against what the next one computes. The same comes out of one step: resolve what the first
operator computes against the second one, and the request against the result. Where the first
operator gives several columns the same source, the two ways put sources of one identity together at
different times; `resolveAll_resolveAll` says that this leaves the same sources in the same order,
with the same attribute for each identity. `join_inSteps` says that neither way fails.
-/

set_option autoImplicit false

namespace ColumnTrace

namespace LineageMap

variable {p m c : LineageMap}

/-- An identity tells which attribute stands for it among the sources of a map. -/
def Agrees (m : LineageMap) : Prop :=
  ∀ entry ∈ m.entries, ∀ other ∈ m.entries, ∀ a ∈ entry.2.attrs, ∀ b ∈ other.2.attrs,
    a.id = b.id → a = b

instance (m : LineageMap) : Decidable m.Agrees :=
  inferInstanceAs (Decidable (∀ entry ∈ m.entries, ∀ other ∈ m.entries, ∀ a ∈ entry.2.attrs,
    ∀ b ∈ other.2.attrs, a.id = b.id → a = b))

/-- Under an identity is found what its sources are changed to. -/
theorem byId?_mapValues (f : AttributeSet → AttributeSet) (m : LineageMap) (id : Int) :
    byId? (m.mapValues fun _ sources => f sources) id = (m.byId? id).map f := by
  rw [byId?, byId?, OrderedMap.entries_mapValues, ← List.map_reverse, List.find?_map,
    Option.map_map, Option.map_map]
  rfl

/-- A request with names joins to what is below by resolving. -/
theorem result_join_ofNamed (hp : p.isNamed = true) (c : LineageMap) :
    (p.join c).result = .ok (p.resolveAll c) := by
  obtain ⟨hkeys, hsources⟩ := isNamed_iff.1 hp
  refine result_join_of_names fun entry hentry a ha => Or.inr ⟨hsources entry hentry a ha, ?_⟩
  exact hkeys entry.1 (OrderedMap.key_mem_of_entry_mem hentry)

/-- A column that a map knows is resolved to its sources there, each of them resolved. -/
theorem resolve_resolveAll {a : Attribute} (h : m.byId? a.id ≠ none) (c : LineageMap) :
    (m.resolveAll c).resolve a =
      (AttributeSet.ofList ((m.resolve a).flatMap c.resolve)).attrs := by
  obtain ⟨sources, hsources⟩ := Option.ne_none_iff_exists'.1 h
  obtain ⟨key, hentry, -⟩ := exists_entry_of_byId? hsources
  have hne : m.isEmpty = false := by
    rw [OrderedMap.isEmpty, List.isEmpty_eq_false_iff]
    exact List.ne_nil_of_mem hentry
  have hfound : (m.resolveAll c).byId? a.id =
      some (.ofList (sources.attrs.flatMap c.resolve)) := by
    rw [resolveAll_of_not_isEmpty hne,
      byId?_mapValues fun sources => .ofList (sources.attrs.flatMap c.resolve), hsources,
      Option.map_some]
  rw [resolve_of_byId? hfound, resolve_of_byId? hsources]

/-- Where an identity tells an attribute, what a map resolves dependencies to can be resolved
further with or without its repetitions. -/
theorem ofList_flatMap_resolve (hagrees : m.Agrees) {attrs : List Attribute}
    (hknown : ∀ a ∈ attrs, m.byId? a.id ≠ none) (c : LineageMap) :
    AttributeSet.ofList ((AttributeSet.ofList (attrs.flatMap m.resolve)).attrs.flatMap c.resolve) =
      .ofList ((attrs.flatMap m.resolve).flatMap c.resolve) := by
  have hsource : ∀ x ∈ attrs.flatMap m.resolve, ∃ entry ∈ m.entries, x ∈ entry.2.attrs := by
    intro x hx
    obtain ⟨a, ha, hx⟩ := List.mem_flatMap.1 hx
    obtain ⟨sources, hsources⟩ := Option.ne_none_iff_exists'.1 (hknown a ha)
    obtain ⟨key, hentry, -⟩ := exists_entry_of_byId? hsources
    rw [resolve_of_byId? hsources] at hx
    exact ⟨(key, sources), hentry, hx⟩
  rw [AttributeSet.attrs_ofList_of_agree, AttributeSet.ofList_flatMap_eraseDups]
  intro x hx y hy hid
  obtain ⟨entry, hentry, hx⟩ := hsource x hx
  obtain ⟨other, hother, hy⟩ := hsource y hy
  exact hagrees entry hentry other hother x hx y hy hid

/-- A request that is resolved against a map and then against another one is resolved against the
first map resolved against the second. -/
theorem resolveAll_resolveAll (hagrees : m.Agrees)
    (hknown : ∀ entry ∈ p.entries, ∀ a ∈ entry.2.attrs, m.byId? a.id ≠ none) (c : LineageMap) :
    (p.resolveAll m).resolveAll c = p.resolveAll (m.resolveAll c) := by
  cases hp : p.isEmpty with
  | true => rw [resolveAll_of_isEmpty hp, resolveAll_of_isEmpty hp]
  | false =>
    have hfirst : (p.resolveAll m).isEmpty = false :=
      (OrderedMap.isEmpty_eq_of_keys_eq (keys_resolveAll hp m)).trans hp
    rw [resolveAll_of_not_isEmpty hfirst, resolveAll_of_not_isEmpty hp,
      resolveAll_of_not_isEmpty hp]
    apply OrderedMap.ext
    rw [OrderedMap.entries_mapValues, OrderedMap.entries_mapValues, OrderedMap.entries_mapValues,
      List.map_map]
    refine List.map_congr_left fun entry hentry => congrArg (Prod.mk entry.1) ?_
    have hentryKnown := hknown entry hentry
    calc AttributeSet.ofList
          ((AttributeSet.ofList (entry.2.attrs.flatMap m.resolve)).attrs.flatMap c.resolve)
        = .ofList ((entry.2.attrs.flatMap m.resolve).flatMap c.resolve) :=
          ofList_flatMap_resolve hagrees hentryKnown c
      _ = .ofList (entry.2.attrs.flatMap fun a => (m.resolve a).flatMap c.resolve) := by
          rw [List.flatMap_assoc]
      _ = .ofList (entry.2.attrs.flatMap fun a =>
            (AttributeSet.ofList ((m.resolve a).flatMap c.resolve)).attrs) :=
          (AttributeSet.ofList_flatMap_ofList _ _).symm
      _ = .ofList (entry.2.attrs.flatMap (m.resolveAll c).resolve) := by
          rw [List.flatMap_congr fun a ha => (resolve_resolveAll (hentryKnown a ha) c).symm]

/-- A request for columns that an operator computes is resolved against its map and then against
the next one, or against the first map resolved against the next: both ways go through and give the
same columns the same sources in the same order. A marker of rows is left only where the last map
has it. -/
theorem join_inSteps (hp : p.isNamed = true) (hm : m.isNamed = true) (hagrees : m.Agrees)
    (hknown : ∀ entry ∈ p.entries, ∀ a ∈ entry.2.attrs, ∃ key ∈ m.keys, key.id = a.id)
    (c : LineageMap) :
    ∃ r, (p.join m >>= fun resolved => resolved.join c).result = .ok r ∧
      (m.join c >>= fun resolved => p.join resolved).result = .ok r ∧
      (p.isEmpty = false → r.keys = p.keys) ∧
      r.All fun a => a.isCountMarker = true → ∃ entry ∈ c.entries, a ∈ entry.2.attrs := by
  have hfound : ∀ entry ∈ p.entries, ∀ a ∈ entry.2.attrs, m.byId? a.id ≠ none := by
    intro entry hentry a ha hnone
    obtain ⟨key, hkey, hid⟩ := hknown entry hentry a ha
    exact byId?_eq_none_iff.1 hnone key hkey hid
  have hfirst : (p.join m).result = .ok (p.resolveAll m) :=
    result_join_of_names fun entry hentry a ha => Or.inl (hfound entry hentry a ha)
  have hnames : (p.resolveAll m).isNamed = true :=
    (ends_join (E := fun _ => True) hp hm).of_ok hfirst
  have hsecond : ((p.resolveAll m).join c).result = .ok ((p.resolveAll m).resolveAll c) :=
    result_join_ofNamed hnames c
  have hbelow : ∀ entry ∈ p.entries, ∀ a ∈ entry.2.attrs, (m.resolveAll c).byId? a.id ≠ none := by
    intro entry hentry a ha hnone
    obtain ⟨key, hkey, hid⟩ := hknown entry hentry a ha
    have hne : m.isEmpty = false := by
      rw [← OrderedMap.isEmpty_keys, List.isEmpty_eq_false_iff]
      exact List.ne_nil_of_mem hkey
    exact byId?_eq_none_iff.1 hnone key ((keys_resolveAll hne c).symm ▸ hkey) hid
  -- the map resolved against the next one has the keys that it had
  have honce : (p.join (m.resolveAll c)).result = .ok (p.resolveAll (m.resolveAll c)) :=
    result_join_of_names fun entry hentry a ha => Or.inl (hbelow entry hentry a ha)
  refine ⟨(p.resolveAll m).resolveAll c, ?_, ?_, ?_, ?_⟩
  · rw [Traced.result_bind_of_ok hfirst, hsecond]
  · rw [Traced.result_bind_of_ok (result_join_ofNamed hm c), honce,
      resolveAll_resolveAll hagrees hfound]
  · intro hne
    have hkeys := keys_resolveAll hne m
    rw [keys_resolveAll ((OrderedMap.isEmpty_eq_of_keys_eq hkeys).trans hne), hkeys]
  · have hall : (p.resolveAll m).All fun _ => True := fun _ _ _ _ => trivial
    refine hall.resolveAll (fun entry hentry a ha _ => ⟨entry, hentry, ha⟩) ?_
    intro a _ hplain hcount
    rw [hplain] at hcount
    cases hcount

/-- The total of a price and a tax is asked for. -/
def askedTotal : LineageMap :=
  .ofList [(⟨1, some "total", []⟩, .ofList [⟨2, some "price", []⟩, ⟨3, some "tax", []⟩])]

/-- Price and tax with what they are computed from, a number of rows among it. -/
def computedParts : LineageMap :=
  .ofList [(⟨2, some "price", []⟩, .ofList [⟨4, some "net", []⟩, ⟨5, some countName, []⟩]),
    (⟨3, some "tax", []⟩, .ofList [⟨6, some "rate", []⟩, ⟨4, some "net", []⟩])]

/-- Both are read off one column, which the first has without its table. -/
def readParts : LineageMap :=
  .ofList [(⟨4, some "net", []⟩, .ofList [⟨7, some "amount", []⟩]),
    (⟨6, some "rate", []⟩, .ofList [⟨7, some "amount", ["t"]⟩])]

/-- The total is resolved in two ways to the same. -/
theorem join_inSteps_total :
    (askedTotal.isNamed = true ∧ computedParts.isNamed = true ∧ computedParts.Agrees ∧
      ∀ entry ∈ askedTotal.entries, ∀ a ∈ entry.2.attrs,
        ∃ key ∈ computedParts.keys, key.id = a.id) ∧
    ∃ r, (askedTotal.join computedParts >>= fun resolved => resolved.join readParts).result =
        .ok r ∧
      (computedParts.join readParts >>= fun resolved => askedTotal.join resolved).result = .ok r ∧
      (askedTotal.isEmpty = false → r.keys = askedTotal.keys) ∧
      r.All fun a => a.isCountMarker = true → ∃ entry ∈ readParts.entries, a ∈ entry.2.attrs :=
  ⟨by decide, join_inSteps (by decide) (by decide) (by decide) (by decide) readParts⟩

end LineageMap

end ColumnTrace
